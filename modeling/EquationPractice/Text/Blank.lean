/-!
# Blank characters

Two notions of white space live side by side.  A *blank* is any character with the Unicode property
`White_Space`; blanks are trimmed from what people type.  A *gap* is one of the four characters that
may stand between the tokens of an expression.  Every gap is a blank.
-/

namespace EquationPractice.Text

/-- A character with the Unicode property `White_Space`. -/
def isBlank (c : Char) : Bool :=
  let n := c.toNat
  (9 ≤ n && n ≤ 13) || n == 0x20 || n == 0x85 || n == 0xA0 || n == 0x1680 ||
    (0x2000 ≤ n && n ≤ 0x200A) || n == 0x2028 || n == 0x2029 || n == 0x202F || n == 0x205F ||
    n == 0x3000

/-- A space, tab, carriage return or line feed: what may stand between two tokens. -/
def isGap (c : Char) : Bool :=
  c == ' ' || c == '\t' || c == '\r' || c == '\n'

theorem isBlank_of_isGap {c : Char} (hgap : isGap c = true) : isBlank c = true := by
  simp only [isGap, Bool.or_eq_true, beq_iff_eq] at hgap
  rcases hgap with ((rfl | rfl) | rfl) | rfl <;> decide

/-- The text after its leading gaps. -/
def skipGaps (cs : List Char) : List Char :=
  cs.dropWhile isGap

/-- The text without blanks at its end. -/
def trimEnd (cs : List Char) : List Char :=
  (cs.reverse.dropWhile isBlank).reverse

/-- The text without blanks at either end. -/
def trim (cs : List Char) : List Char :=
  trimEnd (cs.dropWhile isBlank)

/-- The text without any blank. -/
def removeBlanks (cs : List Char) : List Char :=
  cs.filter fun c => !isBlank c

theorem length_skipGaps_le (cs : List Char) : (skipGaps cs).length ≤ cs.length :=
  (List.dropWhile_suffix isGap).length_le

@[simp] theorem skipGaps_nil : skipGaps [] = [] := rfl

theorem skipGaps_cons (c : Char) (cs : List Char) :
    skipGaps (c :: cs) = if isGap c then skipGaps cs else c :: cs := by
  simp [skipGaps, List.dropWhile_cons]

end EquationPractice.Text
