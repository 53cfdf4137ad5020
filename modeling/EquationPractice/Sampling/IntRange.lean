import EquationPractice.Sampling.Source
import EquationPractice.Text.Quoted

/-!
# Weighted ranges of integers

An integer is drawn from a closed range that may be narrowed to some signs, thinned by exclusions and
weighted.  The candidates are the integers that remain, each with its weight; integers without an
explicit weight weigh one.

## Strategy

A word of 64 bits is scaled by the total weight.  The upper half of the product is the number that
picks the candidate; words whose lower half falls into the incomplete last stretch are rejected, so
that every candidate is hit by exactly its share of the words.

## Main definitions

* `IntRange.candidates`: the integers that can be drawn, with their weights.
* `IntRange.sample`: a draw.
-/

namespace EquationPractice

open Text

/-- Why nothing can be drawn from a range. -/
inductive SamplingError where
  | missingSign (signs : String)
  | unexpectedSign (found : Char)
  | weightOutOfRange (number : Int)
  | nonPositiveWeight (number weight : Int)
  | noCandidates
  | rangeTooWide (lo hi : Int)
  deriving DecidableEq, Repr

/-- What is said about a range from which nothing can be drawn. -/
def SamplingError.message : SamplingError → String
  | missingSign signs => "sign set " ++ quoted signs ++ " needs at least one of '+' or '-'"
  | unexpectedSign found =>
      "only '+', '-' and '0' are allowed in a sign set, found " ++ quotedChar found
  | weightOutOfRange number =>
      "can't provide a weight for " ++ toString number ++ ", it is not a candidate"
  | nonPositiveWeight number weight =>
      "weight for " ++ toString number ++ " must be a positive integer, got " ++ toString weight
  | noCandidates => "no number exists for the given arguments"
  | rangeTooWide lo hi =>
      "range [" ++ toString lo ++ ", " ++ toString hi ++ "] is too wide to enumerate"

/-- A closed range of integers, narrowed by signs, exclusions and weights. -/
structure IntRange where
  lo : Int
  hi : Int
  signs : String
  excluded : List Int
  weights : List (Int × Int)
  deriving DecidableEq, Repr

namespace IntRange

/-- The widest range whose integers are listed. -/
def maxWidth : Nat := UInt16.size

/-- The range between two bounds, of every sign. -/
def between (lo hi : Int) : IntRange :=
  ⟨lo, hi, "+-0", [], []⟩

/-- The range from the opposite of a bound to the bound; empty for a negative bound. -/
def symmetric (bound : Int) : IntRange :=
  between (-bound) bound

/-- Restricts to positive numbers, negative ones or zero: the characters `+`, `-` and `0`. -/
def withSigns (range : IntRange) (signs : String) : IntRange :=
  { range with signs }

/-- Leaves out some numbers. -/
def excluding (range : IntRange) (numbers : List Int) : IntRange :=
  { range with excluded := numbers ++ range.excluded }

/-- Puts a weight into a list that is ordered by numbers; a later weight replaces an earlier one. -/
def setWeight (number weight : Int) : List (Int × Int) → List (Int × Int)
  | [] => [(number, weight)]
  | (other, old) :: rest =>
      if number < other then (number, weight) :: (other, old) :: rest
      else if number = other then (number, weight) :: rest
      else (other, old) :: setWeight number weight rest

/-- Gives a number a weight. -/
def withWeight (range : IntRange) (number weight : Int) : IntRange :=
  { range with weights := setWeight number weight range.weights }

/-- Whether numbers of this sign are wanted. -/
def wantsSign (range : IntRange) (n : Int) : Bool :=
  let sign := if n < 0 then '-' else if 0 < n then '+' else '0'
  sign ∈ range.signs.toList

/-- Whether a number can be drawn. -/
def allows (range : IntRange) (n : Int) : Bool :=
  range.lo ≤ n && n ≤ range.hi && range.wantsSign n && n ∉ range.excluded

/-- The fault of a sign set. -/
def signFault? (range : IntRange) : Option SamplingError :=
  match range.signs.toList.find? fun c => c ∉ ['+', '-', '0'] with
  | some c => some (.unexpectedSign c)
  | none =>
      if '+' ∈ range.signs.toList || '-' ∈ range.signs.toList then none
      else some (.missingSign range.signs)

/-- The fault of the weight of a number. -/
def weightFault? (range : IntRange) (number weight : Int) : Option SamplingError :=
  if !range.allows number then some (.weightOutOfRange number)
  else if weight ≤ 0 then some (.nonPositiveWeight number weight)
  else none

/-- The integers of a closed range. -/
def integers (lo hi : Int) : List Int :=
  (List.range (hi + 1 - lo).toNat).map fun (k : Nat) => lo + k

/-- The weight of a number. -/
def weightOf (range : IntRange) (n : Int) : Nat :=
  match range.weights.lookup n with
  | some weight => weight.toNat
  | none => 1

/-- The numbers that can be drawn, in increasing order, each with its weight. -/
def candidates (range : IntRange) : Except SamplingError (List (Int × Nat)) :=
  match range.signFault? with
  | some fault => .error fault
  | none =>
      if maxWidth < range.hi + 1 - range.lo then .error (.rangeTooWide range.lo range.hi)
      else
        match range.weights.findSome? fun (number, weight) => range.weightFault? number weight with
        | some fault => .error fault
        | none =>
            match (integers range.lo range.hi).filter range.allows with
            | [] => .error .noCandidates
            | numbers => .ok (numbers.map fun n => (n, range.weightOf n))

/-- The sum of all weights. -/
def totalWeight : List (Int × Nat) → Nat
  | [] => 0
  | (_, weight) :: rest => weight + totalWeight rest

/-- The number below `total` that a word stands for, unless the word is rejected. -/
def scaled? (total : Nat) (word : UInt64) : Option Nat :=
  let product := word.toNat * total
  let words := UInt64.size
  if product % words ≤ words - 1 - (words - total) % total then some (product / words) else none

/-- The first candidate at which the running sum of weights exceeds a number. -/
def pick? : List (Int × Nat) → Nat → Option Int
  | [], _ => none
  | (n, weight) :: rest, target => if target < weight then some n else pick? rest (target - weight)

/-- The candidate that a word stands for, unless the word is rejected. -/
def pickWord? (candidates : List (Int × Nat)) (word : UInt64) : Option Int :=
  (scaled? (totalWeight candidates) word).bind (pick? candidates)

/-- Draws a number.  No word is drawn when there are no candidates. -/
def sample {σ : Type} [WordSource σ] (attempts : Nat) (range : IntRange) :
    Draw σ SamplingError Int :=
  match range.candidates with
  | .error fault => throw fault
  | .ok candidates => Draw.redraw Draw.word64 (pickWord? candidates) attempts

end IntRange

end EquationPractice
