import EquationPractice.Regex.Match

/-!
# Searching a text

The preferred match at the leftmost place where there is one, and the matches of a whole text from
left to right.  Matches do not overlap.  After an empty match the search moves on by one character,
and an empty match right at the end of the match before it is passed over.
-/

namespace EquationPractice

namespace Regex

/-- A match in a text. -/
structure Span where
  start : Nat
  stop : Nat
  captures : List (Nat × List Char)
  deriving DecidableEq, Repr

/-- The preferred match at a place. -/
def spanAt? (r : Regex) (text : List Char) (start : Nat) : Option Span :=
  (r.runs text (.at start)).head?.map fun stop => ⟨start, stop.pos, stop.captures⟩

/-- The preferred match at the first place, from `from_` on, where there is one. -/
def find? (r : Regex) (text : List Char) (from_ : Nat) : Option Span :=
  (List.range' from_ (text.length + 1 - from_)).findSome? (r.spanAt? text)

/-- Whether there is a match anywhere in the text. -/
def isFoundIn (r : Regex) (text : List Char) : Bool :=
  (r.find? text 0).isSome

/-- The matches from a position on, given where the match before it ended.  Every match, and every
empty match passed over, moves the search on, so as many steps as the text has places are enough. -/
def spansFrom (r : Regex) (text : List Char) : Nat → Nat → Option Nat → List Span
  | 0, _, _ => []
  | fuel + 1, from_, lastStop =>
      match r.find? text from_ with
      | none => []
      | some span =>
          if span.start ≠ span.stop then span :: spansFrom r text fuel span.stop (some span.stop)
          else if lastStop = some span.stop then spansFrom r text fuel (span.stop + 1) lastStop
          else span :: spansFrom r text fuel (span.stop + 1) (some span.stop)

/-- The matches of a text, from left to right. -/
def spans (r : Regex) (text : List Char) : List Span :=
  r.spansFrom text (text.length + 2) 0 none

/-- The number of matches of a text. -/
def count (r : Regex) (text : List Char) : Nat :=
  (r.spans text).length

end Regex

end EquationPractice
