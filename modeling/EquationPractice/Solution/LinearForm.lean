import EquationPractice.Equation
import EquationPractice.Expr.Value

/-!
# Expressions of first degree

An expression in one unknown is reduced to `coefficient * unknown + constant`.  The reduction is by
structure, so parts that mention the unknown may cancel: a divisor or an exponent only has to come out
constant.

## Main definitions

* `LinearForm.ofExpr`: the reduced form, or the first reason why there is none.
-/

namespace EquationPractice

/-- Why an equation is not solved. -/
inductive SolveError where
  | nonLinear (e : Expr)
  | unexpectedVariable (expected found : String)
  | notAnEquation (relation : Relation)
  | divisionByZero
  deriving DecidableEq, Repr

/-- What is said about an equation that is not solved. -/
def SolveError.message : SolveError → String
  | nonLinear e => "expression is not linear: " ++ e.text
  | unexpectedVariable expected found =>
      "unexpected variable '" ++ found ++ "' while solving for '" ++ expected ++ "'"
  | notAnEquation relation => "expected an equation, found relation '" ++ relation.text ++ "'"
  | divisionByZero => "division by zero"

/-- The expression `coefficient * unknown + constant`. -/
structure LinearForm where
  coefficient : Rat
  constant : Rat
  deriving DecidableEq, Repr

namespace LinearForm

/-- A form without the unknown. -/
def ofConstant (value : Rat) : LinearForm := ⟨0, value⟩

/-- The unknown itself. -/
def unknown : LinearForm := ⟨1, 0⟩

/-- Whether the unknown has dropped out. -/
def isConstant (form : LinearForm) : Bool := form.coefficient == 0

/-- The form multiplied by a number. -/
def scale (form : LinearForm) (factor : Rat) : LinearForm :=
  ⟨form.coefficient * factor, form.constant * factor⟩

instance : Add LinearForm := ⟨fun f g => ⟨f.coefficient + g.coefficient, f.constant + g.constant⟩⟩
instance : Sub LinearForm := ⟨fun f g => ⟨f.coefficient - g.coefficient, f.constant - g.constant⟩⟩
instance : Neg LinearForm := ⟨fun f => ⟨-f.coefficient, -f.constant⟩⟩

/-- The product of two forms, of which one must be constant. -/
def mul? (f g : LinearForm) : Option LinearForm :=
  if f.isConstant then some (g.scale f.constant)
  else if g.isConstant then some (f.scale g.constant)
  else none

/-- A form raised to a constant exponent.  The unknown has only the powers zero and one. -/
def pow? (base : LinearForm) (exponent : Rat) : Option LinearForm :=
  if base.isConstant then (Expr.exactPow? base.constant exponent).map ofConstant
  else if exponent = 1 then some base
  else if exponent = 0 then some (ofConstant 1)
  else none

/-- The reduced form of an expression in the given unknown.  Divisors and exponents are reduced
before what they apply to. -/
def ofExpr (unknownName : String) : Expr → Except SolveError LinearForm
  | .number q => .ok (ofConstant q)
  | .var name =>
      if name = unknownName then .ok unknown else .error (.unexpectedVariable unknownName name)
  | .add l r => do
      let f ← ofExpr unknownName l
      let g ← ofExpr unknownName r
      return f + g
  | .sub l r => do
      let f ← ofExpr unknownName l
      let g ← ofExpr unknownName r
      return f - g
  | .neg e => do
      let f ← ofExpr unknownName e
      return -f
  | .mul l r => do
      let f ← ofExpr unknownName l
      let g ← ofExpr unknownName r
      match f.mul? g with
      | some product => return product
      | none => throw (.nonLinear (.mul l r))
  | .div l r => do
      let g ← ofExpr unknownName r
      if !g.isConstant then throw (.nonLinear (.div l r))
      if g.constant = 0 then throw .divisionByZero
      let f ← ofExpr unknownName l
      return f.scale g.constant⁻¹
  | .pow b x => do
      let exponent ← ofExpr unknownName x
      if !exponent.isConstant || exponent.constant.den ≠ 1 then throw (.nonLinear (.pow b x))
      let base ← ofExpr unknownName b
      if base.isConstant && base.constant = 0 && exponent.constant < 0 then throw .divisionByZero
      match base.pow? exponent.constant with
      | some power => return power
      | none => throw (.nonLinear (.pow b x))

end LinearForm

end EquationPractice
