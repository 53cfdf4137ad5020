/-!
# Tables of code points

Unicode properties are kept as lists of closed ranges, and case mappings as lists of rows that shift
every code point of an evenly spaced run by the same amount.
-/

namespace EquationPractice.Text

/-- Whether a code point lies in one of the closed ranges. -/
def inRanges (ranges : List (Nat × Nat)) (n : Nat) : Bool :=
  ranges.any fun range => range.1 ≤ n && n ≤ range.2

/-- A run of code points `first, first + step, …, last`, all shifted by `shift`. -/
structure ShiftRow where
  first : Nat
  last : Nat
  step : Nat
  shift : Int

namespace ShiftRow

/-- Whether the row says something about the code point. -/
def covers (row : ShiftRow) (n : Nat) : Bool :=
  row.first ≤ n && n ≤ row.last && (n - row.first) % row.step == 0

/-- Where a covered code point goes. -/
def target (row : ShiftRow) (n : Nat) : Nat :=
  (n + row.shift).toNat

/-- The covered code point that goes to `n`, if there is one. -/
def origin? (row : ShiftRow) (n : Nat) : Option Nat :=
  let source := (n - row.shift).toNat
  if row.covers source && row.target source == n then some source else none

end ShiftRow

/-- The image of a code point under the first row that covers it, or the code point itself. -/
def shifted (rows : List ShiftRow) (n : Nat) : Nat :=
  match rows.find? (·.covers n) with
  | some row => row.target n
  | none => n

/-- The code points that some row sends to `n`. -/
def origins (rows : List ShiftRow) (n : Nat) : List Nat :=
  rows.filterMap (·.origin? n)

end EquationPractice.Text
