import EquationPractice.Regex.Basic

/-!
# Matching a pattern at a place

A match begins at a place in the text and ends at a later one.  A pattern may have several matches
from one place; they are listed in the order of preference in which a depth-first search would try
them, each once.

## Strategy

The list of matches is computed by structure.  Duplicates are left out as they arise, so the lists
stay as short as the text is long, whatever the nesting of loops.  An unbounded loop walks from
place to place; a round that takes nothing is never walked on, so every step of the walk goes forward
and as many steps as the text has characters are enough.

## Main definitions

* `Regex.runs`: the matches from a place, in order of preference.
-/

namespace EquationPractice

open Text

/-- A place in the text and the groups recorded on the way to it. -/
structure Place where
  pos : Nat
  captures : List (Nat × List Char)
  deriving DecidableEq, Repr

/-- The place before anything is recorded. -/
def Place.at (pos : Nat) : Place := ⟨pos, []⟩

/-- The same place with a group recorded. -/
def Place.capture (place : Place) (index : Nat) (text : List Char) : Place :=
  { place with captures := (index, text) :: place.captures.filter (·.1 != index) }

/-- The slice of a text between two positions. -/
def slice (text : List Char) (start stop : Nat) : List Char :=
  (text.drop start).take (stop - start)

/-! ## Lists without repetition -/

/-- Adds a place at the end, unless it is there already. -/
def addNew (found : List Place) (place : Place) : List Place :=
  if place ∈ found then found else found ++ [place]

/-- Adds places one after the other. -/
def addAll (found places : List Place) : List Place :=
  places.foldl addNew found

/-- Everything that a step reaches from some places. -/
def gather (step : Place → List Place) (places : List Place) : List Place :=
  places.foldl (fun found place => addAll found (step place)) []

theorem mem_addNew {found : List Place} {place other : Place} :
    other ∈ addNew found place ↔ other ∈ found ∨ other = place := by
  unfold addNew
  split
  · next hmem =>
      constructor
      · exact Or.inl
      · rintro (hfound | rfl)
        · exact hfound
        · exact hmem
  · simp

theorem mem_addAll {found places : List Place} {other : Place} :
    other ∈ addAll found places ↔ other ∈ found ∨ other ∈ places := by
  unfold addAll
  induction places generalizing found with
  | nil => simp
  | cons place rest ih => simp [ih, mem_addNew, or_assoc]

theorem mem_gather {step : Place → List Place} {places : List Place} {other : Place} :
    other ∈ gather step places ↔ ∃ place ∈ places, other ∈ step place := by
  have hfold : ∀ found, other ∈ places.foldl (fun found place => addAll found (step place)) found ↔
      other ∈ found ∨ ∃ place ∈ places, other ∈ step place := by
    induction places with
    | nil => simp
    | cons place rest ih =>
        intro found
        simp [ih, mem_addAll, or_assoc]
  simp [gather, hfold]

/-! ## Loops -/

/-- Exactly so many rounds. -/
def rounds (step : Place → List Place) : Nat → List Place → List Place
  | 0, places => places
  | count + 1, places => rounds step count (gather step places)

/-- At most so many rounds. -/
def upTo (step : Place → List Place) (greedy : Bool) : Nat → Place → List Place
  | 0, place => [place]
  | count + 1, place =>
      let more := gather (upTo step greedy count) (step place)
      if greedy then addNew more place else addAll [place] more

/-- Any number of rounds, walked through depth first with at most `fuel` rounds in a row.  Places
that were found before are not walked on again. -/
def walk (step : Place → List Place) (greedy keepsEmpty : Bool) :
    Nat → List Place → Place → List Place
  | 0, found, place => addNew found place
  | fuel + 1, found, place =>
      if place ∈ found then found
      else
        let start := if greedy then found else found ++ [place]
        let reached := (step place).foldl (fun found next =>
          if place.pos < next.pos then walk step greedy keepsEmpty fuel found next
          else if keepsEmpty then addNew found next
          else found) start
        if greedy then addNew reached place else reached

/-- Any number of rounds from each of the places. -/
def walkAll (step : Place → List Place) (greedy keepsEmpty : Bool) (length : Nat)
    (places : List Place) : List Place :=
  places.foldl (fun found place =>
    walk step greedy keepsEmpty (length + 1 - place.pos) found place) []

/-! ## Patterns -/

/-- Whether a word character stands at a position. -/
def wordAt (text : List Char) (pos : Nat) : Bool :=
  match text[pos]? with
  | some c => isWordChar c
  | none => false

/-- Whether a word character stands right before a position. -/
def wordBefore (text : List Char) (pos : Nat) : Bool :=
  match pos with
  | 0 => false
  | before + 1 => wordAt text before

/-- Whether a condition on the place holds. -/
def Anchor.holdsAt (text : List Char) (pos : Nat) : Anchor → Bool
  | start => pos == 0
  | finish => pos == text.length
  | wordBoundary => wordBefore text pos != wordAt text pos
  | noWordBoundary => wordBefore text pos == wordAt text pos

/-- The places where a look-around leaves off, given where its body ends: the place itself with the
groups of the body, or nothing of the body at all. -/
def lookFrom (place : Place) (positive : Bool) (ends : List Place) : List Place :=
  if positive then addAll [] (ends.map fun e => { e with pos := place.pos })
  else if ends.isEmpty then [place] else []

namespace Regex

/-- The matches of a pattern from a place, as the places where they end, in order of preference. -/
def runs (text : List Char) : Regex → Place → List Place
  | empty, place => [place]
  | one set, place =>
      match text[place.pos]? with
      | some c => if set.contains c then [{ place with pos := place.pos + 1 }] else []
      | none => []
  | anchor condition, place => if condition.holdsAt text place.pos then [place] else []
  | seq r s, place => gather (runs text s) (runs text r place)
  | alt r s, place => addAll (runs text r place) (runs text s place)
  | loop least most greedy keepsEmpty r, place =>
      let started := rounds (runs text r) least [place]
      match most with
      | none => walkAll (runs text r) greedy keepsEmpty text.length started
      | some most => gather (upTo (runs text r) greedy (most - least)) started
  | group index r, place =>
      addAll [] ((runs text r place).map fun e => e.capture index (slice text place.pos e.pos))
  | backref index, place =>
      match place.captures.lookup index with
      | some captured =>
          if captured.isPrefixOf (text.drop place.pos) then
            [{ place with pos := place.pos + captured.length }]
          else []
      | none => []
  | atomic r, place => (runs text r place).take 1
  | ahead positive r, place => lookFrom place positive (runs text r place)
  | behind positive width r, place =>
      lookFrom place positive
        (if place.pos < width then []
        else (runs text r { place with pos := place.pos - width }).filter (·.pos == place.pos))

/-- Whether the pattern matches the whole text. -/
def matchesWhole (r : Regex) (text : List Char) : Bool :=
  (r.runs text (.at 0)).any (·.pos == text.length)

end Regex

end EquationPractice
