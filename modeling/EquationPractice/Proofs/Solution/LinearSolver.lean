import EquationPractice.Proofs.Results
import EquationPractice.Solution.Outcome
import Mathlib.Algebra.Order.Field.Rat
import Mathlib.Data.Rat.Lemmas
import Mathlib.Tactic

/-!
# The solver against exact evaluation

The solver reduces an expression to `coefficient * unknown + constant` by structure alone.  This
file holds it against evaluation in the field of rational numbers: wherever the reduction succeeds,
the expression has a value at every number, and that value is what the reduced form says.  So the
outcome of a solved equation describes exactly the numbers at which its sides agree.

Exact evaluation has no limits on powers.  Besides a foreign variable, the only expressions without
a value are a quotient by zero, a negative power of zero and a power whose exponent is not an
integer.

## Main definitions

* `Expr.fieldPow?`: a power in the field.
* `Expr.exactAt?`: the value of an expression at a number put for the unknown.
* `Outcome.admits`: the numbers that an outcome admits as solutions.
-/

namespace EquationPractice

namespace Expr

/-- The power of two numbers in the field: the exponent must be an integer, and zero has no negative
powers.  The power with exponent zero is one, also of zero. -/
def fieldPow? (base exponent : ℚ) : Option ℚ :=
  if exponent.den ≠ 1 then none
  else if base = 0 ∧ exponent < 0 then none
  else some (base ^ exponent.num)

/-- The exact value of an expression at a number put for the unknown.  Any other variable has no
value. -/
def exactAt? (unknownName : String) (v : ℚ) : Expr → Option ℚ
  | number q => some q
  | var name => if name = unknownName then some v else none
  | add l r => do return (← l.exactAt? unknownName v) + (← r.exactAt? unknownName v)
  | sub l r => do return (← l.exactAt? unknownName v) - (← r.exactAt? unknownName v)
  | mul l r => do return (← l.exactAt? unknownName v) * (← r.exactAt? unknownName v)
  | div l r => do
      let denominator ← r.exactAt? unknownName v
      if denominator = 0 then none else return (← l.exactAt? unknownName v) / denominator
  | pow b x => do fieldPow? (← b.exactAt? unknownName v) (← x.exactAt? unknownName v)
  | neg e => do return -(← e.exactAt? unknownName v)

/-! ## Powers -/

theorem zpow_num_of_neg {exponent : ℚ} (base : ℚ) (hneg : exponent.num < 0) :
    base ^ exponent.num = (base ^ exponent.num.natAbs)⁻¹ := by
  obtain ⟨n, hn⟩ := Int.eq_negSucc_of_lt_zero hneg
  rw [hn, zpow_negSucc]
  rfl

theorem zpow_num_of_nonneg {exponent : ℚ} (base : ℚ) (hnonneg : ¬exponent.num < 0) :
    base ^ exponent.num = base ^ exponent.num.natAbs := by
  rw [← zpow_natCast, Int.natAbs_of_nonneg (not_lt.mp hnonneg)]

/-- A power is given when the exponent is an integer, both limits are kept and zero is not inverted;
it is then the power in the field. -/
theorem exactPow?_eq_some {base exponent power : ℚ} :
    exactPow? base exponent = some power ↔
      exponent.num.natAbs ≤ maxExponent ∧ bitSize base * exponent.num.natAbs ≤ maxPowerBits ∧
        fieldPow? base exponent = some power := by
  -- a fraction is negative when its numerator is
  have hsign : exponent.num < 0 ↔ exponent < 0 := Rat.num_neg
  unfold exactPow? fieldPow?
  by_cases hden : exponent.den ≠ 1
  · simp [hden]
  rw [if_neg hden, if_neg hden]
  by_cases hexponent : maxExponent < exponent.num.natAbs
  · simp [hexponent]
  rw [if_neg hexponent]
  by_cases hbits : maxPowerBits < bitSize base * exponent.num.natAbs
  · simp [hbits]
  rw [if_neg hbits]
  simp only [not_lt.mp hexponent, not_lt.mp hbits, true_and]
  by_cases hneg : exponent.num < 0
  · rw [if_pos hneg, zpow_num_of_neg base hneg]
    simp only [hsign.mp hneg, and_true]
  · rw [if_neg hneg, zpow_num_of_nonneg base hneg]
    simp [hsign.not.mp hneg]

@[simp] theorem fieldPow?_one (base : ℚ) : fieldPow? base 1 = some base := by
  simp [fieldPow?]

@[simp] theorem fieldPow?_zero (base : ℚ) : fieldPow? base 0 = some 1 := by
  simp [fieldPow?]

end Expr

/-! ## Reduced forms -/

namespace LinearForm

open EquationPractice.Expr

/-- The number that a reduced form stands for at a value of the unknown. -/
def valueAt (form : LinearForm) (v : ℚ) : ℚ :=
  form.coefficient * v + form.constant

@[simp] theorem valueAt_ofConstant (q v : ℚ) : (ofConstant q).valueAt v = q := by
  simp [valueAt, ofConstant]

@[simp] theorem valueAt_unknown (v : ℚ) : unknown.valueAt v = v := by
  simp [valueAt, unknown]

@[simp] theorem valueAt_add (f g : LinearForm) (v : ℚ) :
    (f + g).valueAt v = f.valueAt v + g.valueAt v := by
  change (f.coefficient + g.coefficient) * v + (f.constant + g.constant) = _
  unfold valueAt
  ring

@[simp] theorem valueAt_sub (f g : LinearForm) (v : ℚ) :
    (f - g).valueAt v = f.valueAt v - g.valueAt v := by
  change (f.coefficient - g.coefficient) * v + (f.constant - g.constant) = _
  unfold valueAt
  ring

@[simp] theorem valueAt_neg (f : LinearForm) (v : ℚ) : (-f).valueAt v = -f.valueAt v := by
  change -f.coefficient * v + -f.constant = _
  unfold valueAt
  ring

@[simp] theorem valueAt_scale (f : LinearForm) (factor v : ℚ) :
    (f.scale factor).valueAt v = f.valueAt v * factor := by
  simp only [valueAt, scale]
  ring

/-- Where the unknown has dropped out, a form stands for its constant. -/
theorem valueAt_of_isConstant {f : LinearForm} (hconstant : f.isConstant = true) (v : ℚ) :
    f.valueAt v = f.constant := by
  have hzero : f.coefficient = 0 := by simpa [isConstant] using hconstant
  simp [valueAt, hzero]

theorem valueAt_mul? {f g product : LinearForm} (hproduct : f.mul? g = some product) (v : ℚ) :
    product.valueAt v = f.valueAt v * g.valueAt v := by
  unfold mul? at hproduct
  split at hproduct
  · next hf =>
      obtain rfl := Option.some.inj hproduct
      rw [valueAt_scale, valueAt_of_isConstant hf, mul_comm]
  · split at hproduct
    · next hg =>
        obtain rfl := Option.some.inj hproduct
        rw [valueAt_scale, valueAt_of_isConstant hg]
    · simp at hproduct

theorem valueAt_pow? {base power : LinearForm} {exponent : ℚ}
    (hpower : base.pow? exponent = some power) (v : ℚ) :
    fieldPow? (base.valueAt v) exponent = some (power.valueAt v) := by
  unfold pow? at hpower
  split at hpower
  · next hbase =>
      obtain ⟨q, hq, rfl⟩ := Option.map_eq_some_iff.mp hpower
      rw [valueAt_of_isConstant hbase, valueAt_ofConstant]
      exact (exactPow?_eq_some.mp hq).2.2
  · split at hpower
    · next hone =>
        obtain rfl := Option.some.inj hpower
        rw [hone, fieldPow?_one]
    · split at hpower
      · next hzero =>
          obtain rfl := Option.some.inj hpower
          rw [hzero, fieldPow?_zero, valueAt_ofConstant]
      · simp at hpower

variable {unknownName : String} {form : LinearForm}

attribute [local simp] ofExpr

theorem ofExpr_add_eq_ok {l r : Expr} : ofExpr unknownName (.add l r) = .ok form ↔
    ∃ f, ofExpr unknownName l = .ok f ∧ ∃ g, ofExpr unknownName r = .ok g ∧ f + g = form := by
  simp [bind_eq_ok]

theorem ofExpr_sub_eq_ok {l r : Expr} : ofExpr unknownName (.sub l r) = .ok form ↔
    ∃ f, ofExpr unknownName l = .ok f ∧ ∃ g, ofExpr unknownName r = .ok g ∧ f - g = form := by
  simp [bind_eq_ok]

theorem ofExpr_neg_eq_ok {e : Expr} : ofExpr unknownName (.neg e) = .ok form ↔
    ∃ f, ofExpr unknownName e = .ok f ∧ -f = form := by
  simp [bind_eq_ok]

theorem ofExpr_mul_eq_ok {l r : Expr} : ofExpr unknownName (.mul l r) = .ok form ↔
    ∃ f, ofExpr unknownName l = .ok f ∧ ∃ g, ofExpr unknownName r = .ok g ∧
      f.mul? g = some form := by
  simp only [ofExpr, bind_eq_ok]
  refine exists_congr fun f => and_congr_right fun _ => exists_congr fun g =>
    and_congr_right fun _ => ?_
  cases f.mul? g <;> simp

theorem ofExpr_div_eq_ok {l r : Expr} : ofExpr unknownName (.div l r) = .ok form ↔
    ∃ g, ofExpr unknownName r = .ok g ∧ g.isConstant = true ∧ g.constant ≠ 0 ∧
      ∃ f, ofExpr unknownName l = .ok f ∧ f.scale g.constant⁻¹ = form := by
  simp only [ofExpr, bind_eq_ok]
  refine exists_congr fun g => and_congr_right fun _ => ?_
  by_cases hconstant : g.isConstant = true
  · by_cases hzero : g.constant = 0 <;> simp [hconstant, hzero, bind_eq_ok]
  · simp [hconstant]

/-- Zero has no negative powers, so the guard against them refuses nothing that had a power. -/
theorem pow?_eq_none_of_zero {f : LinearForm} {exponent : ℚ} (hconstant : f.isConstant = true)
    (hzero : f.constant = 0) (hneg : exponent < 0) : f.pow? exponent = none := by
  unfold pow?
  rw [if_pos hconstant, Option.map_eq_none_iff, Option.eq_none_iff_forall_ne_some]
  intro power hpower
  have hfield := (exactPow?_eq_some.mp hpower).2.2
  simp [fieldPow?, hzero, hneg] at hfield

theorem ofExpr_pow_eq_ok {b x : Expr} : ofExpr unknownName (.pow b x) = .ok form ↔
    ∃ g, ofExpr unknownName x = .ok g ∧ g.isConstant = true ∧ g.constant.den = 1 ∧
      ∃ f, ofExpr unknownName b = .ok f ∧ f.pow? g.constant = some form := by
  simp only [ofExpr, bind_eq_ok]
  refine exists_congr fun g => and_congr_right fun _ => ?_
  by_cases hconstant : g.isConstant = true
  · by_cases hden : g.constant.den = 1
    · simp only [hconstant, hden, Bool.not_true, ne_eq, not_true, decide_false, Bool.or_self,
        Bool.false_eq_true, if_false, true_and]
      rw [bind_eq_ok]
      refine exists_congr fun f => and_congr_right fun _ => ?_
      split
      · next hguard =>
          simp only [Bool.and_eq_true, decide_eq_true_eq] at hguard
          simp [pow?_eq_none_of_zero hguard.1.1 hguard.1.2 hguard.2]
      · cases f.pow? g.constant <;> simp
    · simp [hconstant, hden]
  · simp [hconstant]

/-- **The reduction is sound.**  A reduced expression has a value at every number, and it is the
value of the reduced form. -/
theorem exactAt?_of_ofExpr {e : Expr} (hform : ofExpr unknownName e = .ok form) (v : ℚ) :
    e.exactAt? unknownName v = some (form.valueAt v) := by
  induction e generalizing form with
  | number q =>
      obtain rfl := Except.ok.inj hform
      rw [exactAt?, valueAt_ofConstant]
  | var name =>
      by_cases hname : name = unknownName
      · simp only [ofExpr, if_pos hname, Except.ok.injEq] at hform
        rw [exactAt?, if_pos hname, ← hform, valueAt_unknown]
      · simp [hname] at hform
  | add l r ihl ihr =>
      obtain ⟨f, hf, g, hg, rfl⟩ := ofExpr_add_eq_ok.mp hform
      simp [exactAt?, ihl hf, ihr hg]
  | sub l r ihl ihr =>
      obtain ⟨f, hf, g, hg, rfl⟩ := ofExpr_sub_eq_ok.mp hform
      simp [exactAt?, ihl hf, ihr hg]
  | mul l r ihl ihr =>
      obtain ⟨f, hf, g, hg, hproduct⟩ := ofExpr_mul_eq_ok.mp hform
      simp [exactAt?, ihl hf, ihr hg, valueAt_mul? hproduct]
  | div l r ihl ihr =>
      obtain ⟨g, hg, hconstant, hzero, f, hf, rfl⟩ := ofExpr_div_eq_ok.mp hform
      simp [exactAt?, ihl hf, ihr hg, valueAt_of_isConstant hconstant, hzero, div_eq_mul_inv]
  | pow b x ihb ihx =>
      obtain ⟨g, hg, hconstant, -, f, hf, hpower⟩ := ofExpr_pow_eq_ok.mp hform
      simp [exactAt?, ihb hf, ihx hg, valueAt_of_isConstant hconstant, valueAt_pow? hpower]
  | neg e ih =>
      obtain ⟨f, hf, rfl⟩ := ofExpr_neg_eq_ok.mp hform
      simp [exactAt?, ih hf]

/-- A reduced expression mentions no variable but the unknown. -/
theorem eq_of_mentions_of_ofExpr {e : Expr} (hform : ofExpr unknownName e = .ok form)
    {name : String} (hmentions : e.mentions name = true) : name = unknownName := by
  induction e generalizing form with
  | number q => simp [mentions] at hmentions
  | var other =>
      have hother : other = name := by simpa [mentions] using hmentions
      -- a foreign variable is refused by the reduction
      by_contra hname
      simp [hother, hname] at hform
  | neg e ih =>
      obtain ⟨f, hf, -⟩ := ofExpr_neg_eq_ok.mp hform
      exact ih hf hmentions
  | add l r ihl ihr =>
      obtain ⟨f, hf, g, hg, -⟩ := ofExpr_add_eq_ok.mp hform
      exact (Bool.or_eq_true_iff.mp hmentions).elim (ihl hf) (ihr hg)
  | sub l r ihl ihr =>
      obtain ⟨f, hf, g, hg, -⟩ := ofExpr_sub_eq_ok.mp hform
      exact (Bool.or_eq_true_iff.mp hmentions).elim (ihl hf) (ihr hg)
  | mul l r ihl ihr =>
      obtain ⟨f, hf, g, hg, -⟩ := ofExpr_mul_eq_ok.mp hform
      exact (Bool.or_eq_true_iff.mp hmentions).elim (ihl hf) (ihr hg)
  | div l r ihl ihr =>
      obtain ⟨g, hg, -, -, f, hf, -⟩ := ofExpr_div_eq_ok.mp hform
      exact (Bool.or_eq_true_iff.mp hmentions).elim (ihl hf) (ihr hg)
  | pow b x ihb ihx =>
      obtain ⟨g, hg, -, -, f, hf, -⟩ := ofExpr_pow_eq_ok.mp hform
      exact (Bool.or_eq_true_iff.mp hmentions).elim (ihb hf) (ihx hg)

end LinearForm

/-! ## Solved equations -/

/-- What an outcome says about a number: whether it is a solution. -/
def Outcome.admits : Outcome → ℚ → Prop
  | root r, v => v = r
  | special .anyNumber, _ => True
  | special .noSolution, _ => False

/-- An outcome that admits one number only is that root. -/
theorem Outcome.eq_root_of_admits {outcome : Outcome} {q : ℚ}
    (hadmits : ∀ v, outcome.admits v ↔ v = q) : outcome = .root q := by
  cases outcome with
  | root r => exact congrArg Outcome.root ((hadmits r).mp rfl)
  | special kind =>
      cases kind with
      | anyNumber => exact absurd ((hadmits (q + 1)).mp trivial) (by simp)
      | noSolution => exact ((hadmits q).mpr rfl).elim

/-- An outcome is known by the numbers that it admits. -/
theorem Outcome.eq_of_admits {outcome other : Outcome}
    (hadmits : ∀ v, outcome.admits v ↔ other.admits v) : outcome = other := by
  cases other with
  | root q => exact eq_root_of_admits hadmits
  | special kind =>
      cases outcome with
      | root q => exact (eq_root_of_admits fun v => (hadmits v).symm).symm
      | special first =>
          have hzero := hadmits 0
          cases first <;> cases kind <;> simp_all [admits]

/-- The outcome of a reduced form describes its zeros. -/
theorem LinearForm.zeros_admits (form : LinearForm) (v : ℚ) :
    form.zeros.admits v ↔ form.valueAt v = 0 := by
  unfold zeros
  split
  · next hcoefficient =>
      simp only [Outcome.admits, valueAt]
      rw [eq_div_iff hcoefficient]
      constructor
      · intro hroot
        linarith
      · intro hzero
        linarith
  · next hcoefficient =>
      have hcoefficient : form.coefficient = 0 := not_not.mp hcoefficient
      split
      · next hconstant => simp [Outcome.admits, valueAt, hcoefficient, hconstant]
      · next hconstant => simp [Outcome.admits, valueAt, hcoefficient, hconstant]

/-- A solved equation is an equation in the narrow sense, and its outcome is that of the reduced
forms of its sides. -/
theorem Equation.solve_eq_ok {equation : Equation} {unknownName : String} {outcome : Outcome} :
    equation.solve unknownName = .ok outcome ↔ equation.relation = .equal ∧
      ∃ f, LinearForm.ofExpr unknownName equation.lhs = .ok f ∧
        ∃ g, LinearForm.ofExpr unknownName equation.rhs = .ok g ∧ (f - g).zeros = outcome := by
  unfold Equation.solve solveZero Equation.difference
  by_cases hrelation : equation.relation = .equal
  · rw [if_pos hrelation, map_eq_ok]
    simp only [hrelation, true_and, LinearForm.ofExpr_sub_eq_ok]
    constructor
    · rintro ⟨form, ⟨f, hf, g, hg, rfl⟩, hzeros⟩
      exact ⟨f, hf, g, hg, hzeros⟩
    · rintro ⟨f, hf, g, hg, hzeros⟩
      exact ⟨_, ⟨f, hf, g, hg, rfl⟩, hzeros⟩
  · simp [hrelation]

/-- **The solver is right.**  Whatever is reduced has a value at every number, the one its reduced
form gives.  An equation that is solved states equality, mentions no variable but the unknown, has a
value on both sides at every number, and its sides agree exactly at the numbers that the outcome
admits. -/
theorem Equation.solve_sound (unknownName : String) :
    (∀ (e : Expr) (form : LinearForm), LinearForm.ofExpr unknownName e = .ok form →
      ∀ v, e.exactAt? unknownName v = some (form.coefficient * v + form.constant)) ∧
    ∀ (equation : Equation) (outcome : Outcome), equation.solve unknownName = .ok outcome →
      equation.relation = .equal ∧
      (∀ name, equation.lhs.mentions name = true ∨ equation.rhs.mentions name = true →
        name = unknownName) ∧
      ∀ v, ∃ a b, equation.lhs.exactAt? unknownName v = some a ∧
        equation.rhs.exactAt? unknownName v = some b ∧ (a = b ↔ outcome.admits v) := by
  refine ⟨fun e form hform v => LinearForm.exactAt?_of_ofExpr hform v, ?_⟩
  intro equation outcome hsolve
  obtain ⟨hrelation, f, hf, g, hg, rfl⟩ := Equation.solve_eq_ok.mp hsolve
  refine ⟨hrelation, ?_, ?_⟩
  · rintro name (hleft | hright)
    · exact LinearForm.eq_of_mentions_of_ofExpr hf hleft
    · exact LinearForm.eq_of_mentions_of_ofExpr hg hright
  · intro v
    refine ⟨_, _, LinearForm.exactAt?_of_ofExpr hf v, LinearForm.exactAt?_of_ofExpr hg v, ?_⟩
    rw [LinearForm.zeros_admits, LinearForm.valueAt_sub, sub_eq_zero]

/-- `(x - x + 2) * x^1 = 1 / (3 - 1)`: the unknown cancels in a factor and stands in a power. -/
theorem Equation.solve_sound_cancelling :
    Equation.solve ⟨.mul (.add (.sub (.var "x") (.var "x")) (.number 2))
      (.pow (.var "x") (.number 1)), .equal, .div (.number 1) (.sub (.number 3) (.number 1))⟩ "x" =
        .ok (.root (1 / 4)) ∧
    ∀ v, ∃ a b,
      (Expr.mul (.add (.sub (.var "x") (.var "x")) (.number 2))
        (.pow (.var "x") (.number 1))).exactAt? "x" v = some a ∧
      (Expr.div (.number 1) (.sub (.number 3) (.number 1))).exactAt? "x" v = some b ∧
      (a = b ↔ v = 1 / 4) := by
  have hsolve : Equation.solve ⟨.mul (.add (.sub (.var "x") (.var "x")) (.number 2))
      (.pow (.var "x") (.number 1)), .equal, .div (.number 1) (.sub (.number 3) (.number 1))⟩ "x" =
        .ok (.root (1 / 4)) := by decide +kernel
  exact ⟨hsolve, ((Equation.solve_sound "x").2 _ _ hsolve).2.2⟩

end EquationPractice
