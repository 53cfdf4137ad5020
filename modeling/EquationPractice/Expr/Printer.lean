import EquationPractice.Expr.Basic

/-!
# Expressions as text

The infix form of an expression.  Every operator has a binding strength, and an operand is put in
parentheses when it binds too weakly for its place.  Literals that show a sign or a slash bind like
the operator they show, and an operand that starts with a sign is never written directly to the right
of a binary operator: `x - (-3)`, not `x - -3`.
-/

namespace EquationPractice

/-- The decimal digits of a natural number. -/
def natChars (n : Nat) : List Char :=
  Nat.toDigits 10 n

/-- The decimal digits of an integer, after a minus sign when it is negative. -/
def intChars (n : Int) : List Char :=
  if n < 0 then '-' :: natChars n.natAbs else natChars n.natAbs

/-- A rational number in lowest terms; the denominator one is left out. -/
def ratChars (q : Rat) : List Char :=
  if q.den = 1 then intChars q.num else intChars q.num ++ '/' :: natChars q.den

/-- A rational number as text. -/
def ratText (q : Rat) : String :=
  String.ofList (ratChars q)

namespace Expr

/-- How strongly the outermost part of an expression binds. -/
def strength : Expr → Nat
  | add _ _ | sub _ _ => 1
  | mul _ _ | div _ _ => 2
  | pow _ _ => 3
  | neg _ => 4
  | number q => if q < 0 then 4 else if q.den ≠ 1 then 2 else 5
  | var _ => 5

/-- Whether the text of an expression starts with its own minus sign. -/
def isSigned : Expr → Bool
  | neg _ => true
  | number q => q < 0
  | _ => false

/-- A text in parentheses, if so wanted. -/
def parenthesized (wanted : Bool) (cs : List Char) : List Char :=
  if wanted then '(' :: cs ++ [')'] else cs

/-- The characters of the infix form. -/
def chars : Expr → List Char
  | number q => ratChars q
  | var name => name.toList
  | add l r =>
      parenthesized (l.strength < 1) l.chars ++ [' ', '+', ' '] ++
        parenthesized (r.strength < 1 || r.isSigned) r.chars
  | sub l r =>
      parenthesized (l.strength < 1) l.chars ++ [' ', '-', ' '] ++
        parenthesized (r.strength ≤ 1 || r.isSigned) r.chars
  | mul l r =>
      parenthesized (l.strength < 2) l.chars ++ [' ', '*', ' '] ++
        parenthesized (r.strength < 2 || r.isSigned) r.chars
  | div l r =>
      parenthesized (l.strength < 2) l.chars ++ [' ', '/', ' '] ++
        parenthesized (r.strength ≤ 2 || r.isSigned) r.chars
  | pow b x =>
      parenthesized (b.strength ≤ 3 || b.isSigned) b.chars ++ ['^'] ++
        parenthesized (x.strength < 3 || x.isSigned) x.chars
  | neg e => '-' :: parenthesized (e.strength ≤ 4) e.chars

/-- The infix form of an expression. -/
def text (e : Expr) : String :=
  String.ofList e.chars

end Expr

end EquationPractice
