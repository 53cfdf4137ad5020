import EquationPractice.Solution.LinearForm
import EquationPractice.Solution.SpecialAnswer

/-!
# Solving equations of first degree

An equation of first degree has one root, holds for every number, or holds for none.
-/

namespace EquationPractice

/-- What an equation says about its unknown. -/
inductive Outcome where
  | root (value : Rat)
  | special (kind : SpecialAnswer)
  deriving DecidableEq, Repr

/-- The numbers at which a form is zero. -/
def LinearForm.zeros (form : LinearForm) : Outcome :=
  if form.coefficient ≠ 0 then .root (-form.constant / form.coefficient)
  else if form.constant = 0 then .special .anyNumber
  else .special .noSolution

/-- The numbers at which an expression in one unknown is zero. -/
def solveZero (e : Expr) (unknownName : String) : Except SolveError Outcome :=
  (LinearForm.ofExpr unknownName e).map LinearForm.zeros

/-- The numbers at which the two sides of an equation agree. -/
def Equation.solve (equation : Equation) (unknownName : String) : Except SolveError Outcome :=
  if equation.relation = .equal then solveZero equation.difference unknownName
  else .error (.notAnEquation equation.relation)

end EquationPractice
