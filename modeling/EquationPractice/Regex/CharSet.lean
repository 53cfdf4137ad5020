import EquationPractice.Text.Blank
import EquationPractice.Text.CaseFolding
import EquationPractice.Text.DecimalDigit
import EquationPractice.Text.WordChar

/-!
# Sets of characters

What one position of a pattern accepts: single characters, ranges, the classes of digits, word
characters and blanks, and what is built from them.
-/

namespace EquationPractice

open Text

/-- A set of characters. -/
inductive CharSet where
  | single (c : Char)
  | range (first last : Char)
  | digit
  | word
  | blank
  | empty
  | union (left right : CharSet)
  | complement (set : CharSet)
  | anyCase (set : CharSet)
  deriving DecidableEq, Repr

namespace CharSet

/-- Whether a character belongs to the set.  A set in any case holds every character that has a
variant in the set. -/
def contains : CharSet → Char → Bool
  | single c, x => x == c
  | range first last, x => first ≤ x && x ≤ last
  | digit, x => isDecimalDigit x
  | word, x => isWordChar x
  | blank, x => isBlank x
  | empty, _ => false
  | union left right, x => left.contains x || right.contains x
  | complement set, x => !set.contains x
  | anyCase set, x => (caseVariants x).any set.contains

/-- Every character but a line feed. -/
def withinLine : CharSet :=
  complement (single '\n')

end CharSet

end EquationPractice
