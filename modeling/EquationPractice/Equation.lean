import EquationPractice.Expr.Printer

/-!
# Relations between two expressions

What a question states: two sides and the sign between them.  Only the relation `=` is an equation in
the narrow sense; the others are read and shown, and refused by the solver.
-/

namespace EquationPractice

/-- The sign between two sides. -/
inductive Relation where
  | equal
  | notEqual
  | less
  | greater
  | atMost
  | atLeast
  deriving DecidableEq, Repr

/-- The characters of a relation sign. -/
def Relation.chars : Relation → List Char
  | equal => ['=']
  | notEqual => ['!', '=']
  | less => ['<']
  | greater => ['>']
  | atMost => ['<', '=']
  | atLeast => ['>', '=']

/-- A relation sign as text. -/
def Relation.text (relation : Relation) : String :=
  String.ofList relation.chars

/-- Two expressions and the relation stated between them. -/
structure Equation where
  lhs : Expr
  relation : Relation
  rhs : Expr
  deriving DecidableEq, Repr

namespace Equation

/-- The expression that the relation compares with zero. -/
def difference (equation : Equation) : Expr :=
  .sub equation.lhs equation.rhs

/-- The two sides around the relation sign. -/
def text (equation : Equation) : String :=
  equation.lhs.text ++ " " ++ equation.relation.text ++ " " ++ equation.rhs.text

end Equation

end EquationPractice
