import EquationPractice.Expr.Printer

/-!
# Expressions in LaTeX

Quotients become fractions and exponents are raised, so both group by themselves; the remaining
operands are put in sized parentheses when they bind too weakly.  A name such as `x12` becomes a
letter with an index, a longer name upright text.
-/

namespace EquationPractice

/-- A text between braces. -/
def braced (cs : List Char) : List Char :=
  '\x7b' :: cs ++ ['\x7d']

/-- A fraction of two texts. -/
def fractionLatex (numerator denominator : List Char) : List Char :=
  "\\frac".toList ++ braced numerator ++ braced denominator

/-- A rational number; the sign of a fraction stands before it. -/
def ratLatex (q : Rat) : List Char :=
  if q.den = 1 then intChars q.num
  else (if q < 0 then ['-'] else []) ++ fractionLatex (natChars q.num.natAbs) (natChars q.den)

/-- The name of a variable: one letter stands as it is, a letter before digits takes them as an
index, any other name is upright text. -/
def nameLatex (name : List Char) : List Char :=
  match name with
  | [] => []
  | [c] => [c]
  | c :: rest =>
      if !c.isDigit && rest.all Char.isDigit then c :: '_' :: braced rest
      else "\\text".toList ++ braced name

namespace Expr

/-- A text between sized parentheses, if so wanted. -/
def sizedParentheses (wanted : Bool) (cs : List Char) : List Char :=
  if wanted then "\\left(".toList ++ cs ++ "\\right)".toList else cs

/-- The characters of the LaTeX form. -/
def latexChars : Expr → List Char
  | number q => ratLatex q
  | var name => nameLatex name.toList
  | add l r => l.latexChars ++ " + ".toList ++ sizedParentheses (r.strength < 1) r.latexChars
  | sub l r => l.latexChars ++ " - ".toList ++ sizedParentheses (r.strength ≤ 1) r.latexChars
  | mul l r =>
      sizedParentheses (l.strength < 2) l.latexChars ++ " \\cdot ".toList ++
        sizedParentheses (r.strength < 2) r.latexChars
  | div l r => fractionLatex l.latexChars r.latexChars
  | pow b x => sizedParentheses (b.strength ≤ 3) b.latexChars ++ '^' :: braced x.latexChars
  | neg e => '-' :: sizedParentheses (e.strength ≤ 4) e.latexChars

/-- The LaTeX form of an expression. -/
def latex (e : Expr) : String :=
  String.ofList e.latexChars

end Expr

end EquationPractice
