import EquationPractice.Proofs.Reading.Tokens
import EquationPractice.Regex.Match

/-!
# Matches behind a text

Most patterns do not see what stands before the place where they begin.  Only the start of the text
and a look-behind ask for it, and a word boundary asks for the one character before, where a character
that belongs to no word is as good as none.  For any other pattern the matches in the rest of a text
are the same, in the same order and with the same groups, whether or not something stands before it.

## Strategy

Every place of the rest is moved by the length of what stands before.  Moving is injective and keeps
the order of places, so it goes through the lists without repetition and through loops: rounds, bounded
repetitions and walks of moved steps are the moved rounds, repetitions and walks.

## Main definitions

* `Place.moved`: a place with something put before the text.
* `Regex.asksBefore`: whether a pattern asks for what stands before it.

## Main results

* `Regex.runs_moved`: matches behind a text.
-/

namespace EquationPractice

open Text

/-- The place that a place of a text becomes when so many characters are put before the text. -/
def Place.moved (length : ℕ) (place : Place) : Place :=
  { place with pos := length + place.pos }

variable {length count fuel total : ℕ} {place next : Place} {places found : List Place}
  {step later : Place → List Place} {greedy keepsEmpty positive : Bool}

theorem Place.moved_injective (length : ℕ) : Function.Injective (Place.moved length) := by
  rintro ⟨pos, captures⟩ ⟨pos', captures'⟩ heq
  simp only [Place.moved, Place.mk.injEq, Nat.add_left_cancel_iff] at heq
  simpa using heq

@[simp] theorem Place.pos_moved : (place.moved length).pos = length + place.pos := rfl

@[simp] theorem Place.captures_moved : (place.moved length).captures = place.captures := rfl

/-! ## Lists and loops of moved places -/

theorem mem_map_moved :
    place.moved length ∈ found.map (Place.moved length) ↔ place ∈ found :=
  List.mem_map_of_injective (Place.moved_injective length)

theorem addNew_moved (length : ℕ) (found : List Place) (place : Place) :
    addNew (found.map (Place.moved length)) (place.moved length) =
      (addNew found place).map (Place.moved length) := by
  unfold addNew
  by_cases hmem : place ∈ found
  · rw [if_pos hmem, if_pos (mem_map_moved.mpr hmem)]
  · rw [if_neg hmem, if_neg (mt mem_map_moved.mp hmem), List.map_append, List.map_singleton]

/-- A pass over moved places. -/
theorem foldl_moved {visit revisit : List Place → Place → List Place}
    (hvisit : ∀ found place, revisit (found.map (Place.moved length)) (place.moved length) =
      (visit found place).map (Place.moved length)) (places found : List Place) :
    (places.map (Place.moved length)).foldl revisit (found.map (Place.moved length)) =
      (places.foldl visit found).map (Place.moved length) := by
  rw [List.foldl_map]
  exact List.foldl_hom _ hvisit

theorem addAll_moved (length : ℕ) (found places : List Place) :
    addAll (found.map (Place.moved length)) (places.map (Place.moved length)) =
      (addAll found places).map (Place.moved length) :=
  foldl_moved (addNew_moved length) places found

/-- From a moved place, one step makes what the other makes from the place, moved. -/
def Moves (length : ℕ) (step later : Place → List Place) : Prop :=
  ∀ place : Place, later (place.moved length) = (step place).map (Place.moved length)

theorem Moves.gather (hmoves : Moves length step later) (places : List Place) :
    gather later (places.map (Place.moved length)) =
      (gather step places).map (Place.moved length) := by
  refine foldl_moved (fun found place => ?_) places []
  rw [hmoves, addAll_moved]

theorem Moves.rounds (hmoves : Moves length step later) (places : List Place) :
    rounds later count (places.map (Place.moved length)) =
      (rounds step count places).map (Place.moved length) := by
  induction count generalizing places with
  | zero => rfl
  | succ count ih => rw [EquationPractice.rounds, hmoves.gather, ih, EquationPractice.rounds]

theorem Moves.upTo (hmoves : Moves length step later) :
    Moves length (upTo step greedy count) (upTo later greedy count) := by
  induction count with
  | zero => exact fun _ => rfl
  | succ count ih =>
      intro place
      simp only [EquationPractice.upTo, hmoves place, ih.gather]
      cases greedy with
      | true => simp only [if_true, addNew_moved]
      | false =>
          simp only [if_false, Bool.false_eq_true]
          exact addAll_moved length [place] _

theorem Moves.walk (hmoves : Moves length step later) (found : List Place) (place : Place) :
    walk later greedy keepsEmpty fuel (found.map (Place.moved length)) (place.moved length) =
      (walk step greedy keepsEmpty fuel found place).map (Place.moved length) := by
  induction fuel generalizing found place with
  | zero => exact addNew_moved length found place
  | succ fuel ih =>
      by_cases hmem : place ∈ found
      · simp only [EquationPractice.walk, mem_map_moved, hmem, if_true]
      -- the steps are walked on in the same order
      have hsteps : ∀ start : List Place, (later (place.moved length)).foldl (fun found next =>
            if (place.moved length).pos < next.pos then
              EquationPractice.walk later greedy keepsEmpty fuel found next
            else if keepsEmpty then addNew found next
            else found) (start.map (Place.moved length)) =
          ((step place).foldl (fun found next =>
            if place.pos < next.pos then
              EquationPractice.walk step greedy keepsEmpty fuel found next
            else if keepsEmpty then addNew found next
            else found) start).map (Place.moved length) := by
        intro start
        rw [hmoves]
        refine foldl_moved (fun found next => ?_) (step place) start
        simp only [Place.pos_moved, Nat.add_lt_add_iff_left, ih, addNew_moved]
        split_ifs <;> rfl
      cases greedy with
      | true =>
          simp only [EquationPractice.walk, mem_map_moved, hmem, if_false, if_true, hsteps,
            addNew_moved]
      | false =>
          have hstart := hsteps (found ++ [place])
          rw [List.map_append, List.map_singleton] at hstart
          simp only [EquationPractice.walk, mem_map_moved, hmem, if_false, Bool.false_eq_true,
            hstart]

theorem Moves.walkAll (hmoves : Moves length step later) (total : ℕ) (places : List Place) :
    walkAll later greedy keepsEmpty (length + total) (places.map (Place.moved length)) =
      (walkAll step greedy keepsEmpty total places).map (Place.moved length) := by
  refine foldl_moved (fun found place => ?_) places []
  have hfuel : length + total + 1 - (place.moved length).pos = total + 1 - place.pos := by
    rw [Place.pos_moved]
    omega
  rw [hfuel, hmoves.walk]

/-! ## Conditions on the place -/

variable {before text : List Char}

theorem getElem?_moved (pos : ℕ) : (before ++ text)[before.length + pos]? = text[pos]? := by
  rw [List.getElem?_append_right (Nat.le_add_right _ _), Nat.add_sub_cancel_left]

theorem drop_moved (pos : ℕ) : (before ++ text).drop (before.length + pos) = text.drop pos :=
  List.drop_length_add_append ..

theorem slice_moved (start stop : ℕ) :
    slice (before ++ text) (before.length + start) (before.length + stop) =
      slice text start stop := by
  rw [slice, drop_moved, Nat.add_sub_add_left, slice]

theorem wordAt_moved (pos : ℕ) : wordAt (before ++ text) (before.length + pos) = wordAt text pos := by
  rw [wordAt, getElem?_moved, wordAt]

/-- Behind a text that does not end in a word, no word is cut. -/
theorem wordBefore_moved (hbefore : HeadFree isWordChar before.reverse) (pos : ℕ) :
    wordBefore (before ++ text) (before.length + pos) = wordBefore text pos := by
  cases pos with
  | succ pos => exact wordAt_moved pos
  | zero =>
      rcases List.eq_nil_or_concat' before with rfl | ⟨init, last, rfl⟩
      · rfl
      · have hlast : isWordChar last = false := by simpa using hbefore
        simp [wordBefore, wordAt, hlast]

theorem Anchor.holdsAt_moved (hbefore : HeadFree isWordChar before.reverse) {condition : Anchor}
    (hcondition : condition ≠ .start) (pos : ℕ) :
    condition.holdsAt (before ++ text) (before.length + pos) = condition.holdsAt text pos := by
  cases condition with
  | start => exact absurd rfl hcondition
  | finish => simp [holdsAt]
  | wordBoundary => rw [holdsAt, wordBefore_moved hbefore, wordAt_moved, holdsAt]
  | noWordBoundary => rw [holdsAt, wordBefore_moved hbefore, wordAt_moved, holdsAt]

theorem lookFrom_moved (place : Place) (positive : Bool) (ends : List Place) :
    lookFrom (place.moved length) positive (ends.map (Place.moved length)) =
      (lookFrom place positive ends).map (Place.moved length) := by
  unfold lookFrom
  cases positive with
  | true =>
      simp only [if_true, List.map_map]
      rw [← addAll_moved length [], List.map_map]
      rfl
  | false =>
      cases ends with
      | nil => rfl
      | cons stop rest => rfl

/-! ## Patterns -/

namespace Regex

/-- Whether the pattern asks for what stands before the place where it begins, other than for a
character of a word. -/
def asksBefore : Regex → Bool
  | anchor condition => condition == .start
  | behind _ _ _ => true
  | empty | one _ | backref _ => false
  | seq r s | alt r s => r.asksBefore || s.asksBefore
  | loop _ _ _ _ r | group _ r | atomic r | ahead _ r => r.asksBefore

/-- Behind a text that does not end in a word, a pattern that does not ask for what stands before it
has the same matches. -/
theorem runs_moved (hbefore : HeadFree isWordChar before.reverse) :
    ∀ {r : Regex}, r.asksBefore = false →
      Moves before.length (r.runs text) (r.runs (before ++ text)) := by
  intro r
  induction r with
  | empty => exact fun _ place => rfl
  | one set =>
      intro _ place
      simp only [runs, Place.pos_moved, getElem?_moved]
      cases text[place.pos]? with
      | none => rfl
      | some c =>
          dsimp only
          split
          · rfl
          · rfl
  | anchor condition =>
      intro hr place
      have hcondition : condition ≠ .start := by simpa [asksBefore] using hr
      simp only [runs, Place.pos_moved, Anchor.holdsAt_moved hbefore hcondition]
      split
      · rfl
      · rfl
  | seq r s ihr ihs =>
      intro hr place
      obtain ⟨hr, hs⟩ : r.asksBefore = false ∧ s.asksBefore = false := by simpa [asksBefore] using hr
      rw [runs, ihr hr, (ihs hs).gather, runs]
  | alt r s ihr ihs =>
      intro hr place
      obtain ⟨hr, hs⟩ : r.asksBefore = false ∧ s.asksBefore = false := by simpa [asksBefore] using hr
      rw [runs, ihr hr, ihs hs, addAll_moved, runs]
  | loop least most greedy keepsEmpty r ih =>
      intro hr place
      have hmoves := ih hr
      have hstarted : rounds (r.runs (before ++ text)) least [place.moved before.length] =
          (rounds (r.runs text) least [place]).map (Place.moved before.length) :=
        hmoves.rounds [place]
      simp only [runs, hstarted]
      cases most with
      | none => simp only [List.length_append, hmoves.walkAll]
      | some most => exact (hmoves.upTo).gather _
  | group index r ih =>
      intro hr place
      simp only [runs, ih hr place, List.map_map]
      rw [← addAll_moved before.length [], List.map_map]
      congr 1
      refine List.map_congr_left fun stop _ => ?_
      simp only [Function.comp, Place.pos_moved, slice_moved]
      rfl
  | backref index =>
      intro _ place
      simp only [runs, Place.captures_moved, Place.pos_moved, drop_moved]
      cases place.captures.lookup index with
      | none => rfl
      | some captured =>
          dsimp only
          split
          · simp [Place.moved, Nat.add_assoc]
          · rfl
  | atomic r ih =>
      intro hr place
      rw [runs, ih hr, ← List.map_take, runs]
  | ahead positive r ih =>
      intro hr place
      rw [runs, ih hr, lookFrom_moved, runs]
  | behind positive width r ih =>
      intro hr
      simp [asksBefore] at hr

end Regex

end EquationPractice
