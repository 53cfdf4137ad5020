import EquationPractice.Expr.Printer

/-!
# Bounds on a number of occurrences

The small language in which a rule states how often it may occur: `m>=2` bounds the number `m` on one
side, `1<=m<5` on both.  Nothing else is well formed, not even a space, and no bound may exceed
`maxCount`.

## Main definitions

* `OccurrenceBounds.ofChars?`: reads a text of one of the two shapes.
* `OccurrenceBounds.holds`: whether a number satisfies the bounds.
-/

namespace EquationPractice

/-- A comparison of two numbers. -/
inductive Comparison where
  | equal
  | notEqual
  | greater
  | atLeast
  | less
  | atMost
  deriving DecidableEq, Repr

namespace Comparison

/-- The characters of a comparison sign. -/
def chars : Comparison → List Char
  | equal => ['=', '=']
  | notEqual => ['!', '=']
  | greater => ['>']
  | atLeast => ['>', '=']
  | less => ['<']
  | atMost => ['<', '=']

/-- Whether two numbers compare so. -/
def holds : Comparison → Nat → Nat → Bool
  | equal, m, n => m == n
  | notEqual, m, n => m != n
  | greater, m, n => m > n
  | atLeast, m, n => m ≥ n
  | less, m, n => m < n
  | atMost, m, n => m ≤ n

/-- Reads a comparison sign; of two signs that start alike the longer one is read. -/
def read? : List Char → Option (Comparison × List Char)
  | '=' :: '=' :: rest => some (equal, rest)
  | '!' :: '=' :: rest => some (notEqual, rest)
  | '>' :: '=' :: rest => some (atLeast, rest)
  | '<' :: '=' :: rest => some (atMost, rest)
  | '>' :: rest => some (greater, rest)
  | '<' :: rest => some (less, rest)
  | _ => none

end Comparison

/-- The largest bound. -/
def maxCount : Nat := UInt64.size - 1

/-- Reads a bound: digits that do not exceed the largest one. -/
def bound? (cs : List Char) : Option (Nat × List Char) :=
  let digits := cs.takeWhile Char.isDigit
  let value := Nat.ofDigitChars 10 digits 0
  if digits.isEmpty || maxCount < value then none
  else some (value, cs.dropWhile Char.isDigit)

/-- Bounds on a number of occurrences `m`: `m op bound`, or `lower op m op upper`. -/
inductive OccurrenceBounds where
  | single (comparison : Comparison) (bound : Nat)
  | range (lower : Nat) (lowerComparison upperComparison : Comparison) (upper : Nat)
  deriving DecidableEq, Repr

namespace OccurrenceBounds

/-- Reads bounds on one side. -/
def single? : List Char → Option OccurrenceBounds
  | 'm' :: rest => do
      let (comparison, rest) ← Comparison.read? rest
      let (bound, rest) ← bound? rest
      if rest.isEmpty then some (single comparison bound) else none
  | _ => none

/-- Reads bounds on both sides. -/
def range? (cs : List Char) : Option OccurrenceBounds := do
  let (lower, rest) ← bound? cs
  let (lowerComparison, rest) ← Comparison.read? rest
  match rest with
  | 'm' :: rest =>
      let (upperComparison, rest) ← Comparison.read? rest
      let (upper, rest) ← bound? rest
      if rest.isEmpty then some (range lower lowerComparison upperComparison upper) else none
  | _ => none

/-- The bounds that a text states. -/
def ofChars? (cs : List Char) : Option OccurrenceBounds :=
  single? cs <|> range? cs

/-- The bounds that a text states. -/
def ofText? (text : String) : Option OccurrenceBounds :=
  ofChars? text.toList

/-- Whether a number of occurrences is within the bounds. -/
def holds (bounds : OccurrenceBounds) (count : Nat) : Bool :=
  match bounds with
  | single comparison bound => comparison.holds count bound
  | range lower lowerComparison upperComparison upper =>
      lowerComparison.holds lower count && upperComparison.holds count upper

/-- The characters of the bounds as they are written. -/
def chars : OccurrenceBounds → List Char
  | single comparison bound => 'm' :: comparison.chars ++ natChars bound
  | range lower lowerComparison upperComparison upper =>
      natChars lower ++ lowerComparison.chars ++ 'm' :: upperComparison.chars ++ natChars upper

/-- The bounds as they are written. -/
def text (bounds : OccurrenceBounds) : String :=
  String.ofList bounds.chars

end OccurrenceBounds

end EquationPractice
