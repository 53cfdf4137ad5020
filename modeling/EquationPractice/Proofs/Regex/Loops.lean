import EquationPractice.Regex.Match
import Mathlib.Tactic

/-!
# What a loop reaches

A loop repeats a step from place to place.  Bounded loops unfold round by round.  An unbounded loop
walks depth first and never walks on from a place twice; this file shows that it still reaches every
place that any number of rounds reaches, provided that every round goes forward.

## Strategy

A walk adds places to those that were found before it.  Among the found ones are the places that the
walk is still busy with, whose steps have not all been taken; they stand strictly before the current
place, because rounds go forward.  So the invariant is that the found places from the current one on
are closed under steps (`Ready`), and what a walk guarantees in turn is that everything it adds is
closed (`Explores`).

## Main definitions

* `Steps`: a place is reached by a number of rounds.
* `Explores`: what a walk from some places adds to the places found before.
-/

namespace EquationPractice

variable {step : Place → List Place} {a b place next : Place}
  {places found mid reached : List Place}
  {greedy keepsEmpty : Bool} {length : Nat}

/-! ## Rounds -/

/-- The second place is reached from the first by so many rounds. -/
def Steps (step : Place → List Place) : Nat → Place → Place → Prop
  | 0, place, last => last = place
  | count + 1, place, last => ∃ next ∈ step place, Steps step count next last

theorem steps_add {m n : Nat} : Steps step (m + n) place next ↔
    ∃ between, Steps step m place between ∧ Steps step n between next := by
  induction m generalizing place with
  | zero => simp [Steps]
  | succ m ih =>
      rw [Nat.add_right_comm]
      simp only [Steps, ih]
      constructor
      · rintro ⟨first, hfirst, between, hm, hn⟩
        exact ⟨between, ⟨first, hfirst, hm⟩, hn⟩
      · rintro ⟨between, ⟨first, hfirst, hm⟩, hn⟩
        exact ⟨first, hfirst, between, hm, hn⟩

theorem mem_rounds {count : Nat} :
    next ∈ rounds step count places ↔ ∃ place ∈ places, Steps step count place next := by
  induction count generalizing places with
  | zero => simp [rounds, Steps]
  | succ count ih =>
      simp only [rounds, ih, mem_gather, Steps]
      constructor
      · rintro ⟨between, ⟨place, hplace, hbetween⟩, hsteps⟩
        exact ⟨place, hplace, between, hbetween, hsteps⟩
      · rintro ⟨place, hplace, between, hbetween, hsteps⟩
        exact ⟨between, ⟨place, hplace, hbetween⟩, hsteps⟩

theorem mem_upTo {count : Nat} :
    next ∈ upTo step greedy count place ↔ ∃ n ≤ count, Steps step n place next := by
  induction count generalizing place with
  | zero => simp [upTo, Steps]
  | succ count ih =>
      -- either no round is taken or a first one and then fewer
      have hsplit : (∃ n ≤ count + 1, Steps step n place next) ↔
          next = place ∨ ∃ between ∈ step place, ∃ n ≤ count, Steps step n between next := by
        constructor
        · rintro ⟨n, hn, hsteps⟩
          cases n with
          | zero => exact Or.inl hsteps
          | succ n =>
              obtain ⟨between, hbetween, hsteps⟩ := hsteps
              exact Or.inr ⟨between, hbetween, n, by omega, hsteps⟩
        · rintro (rfl | ⟨between, hbetween, n, hn, hsteps⟩)
          · exact ⟨0, by omega, rfl⟩
          · exact ⟨n + 1, by omega, between, hbetween, hsteps⟩
      rw [hsplit]
      simp only [upTo]
      split
      · rw [mem_addNew, mem_gather]
        simp only [ih]
        exact or_comm
      · rw [mem_addAll, mem_gather]
        simp only [ih, List.mem_singleton]

/-! ## Walks -/

/-- From every place of the text, the step goes forward within the text. -/
def Forward (step : Place → List Place) (length : Nat) : Prop :=
  ∀ place next, place.pos ≤ length → next ∈ step place →
    place.pos < next.pos ∧ next.pos ≤ length

theorem Forward.steps_le (hforward : Forward step length) {n : Nat} (hplace : place.pos ≤ length)
    (hsteps : Steps step n place next) : next.pos ≤ length := by
  induction n generalizing place with
  | zero => exact (show next = place from hsteps) ▸ hplace
  | succ n ih =>
      obtain ⟨between, hbetween, hsteps⟩ := hsteps
      exact ih (hforward place between hplace hbetween).2 hsteps

/-- All steps from a place lead to found places. -/
def Closed (step : Place → List Place) (found : List Place) (place : Place) : Prop :=
  ∀ next ∈ step place, next ∈ found

theorem Closed.mono (hclosed : Closed step found place) (hsub : found ⊆ reached) :
    Closed step reached place :=
  fun next hnext => hsub (hclosed next hnext)

/-- The found places from a position on are closed under steps. -/
def Ready (step : Place → List Place) (found : List Place) (pos : Nat) : Prop :=
  ∀ place ∈ found, pos ≤ place.pos → Closed step found place

/-- To the places that were found before, a walk adds exactly what is reached from the given ones,
and what it adds is closed under steps. -/
structure Explores (step : Place → List Place) (found places reached : List Place) : Prop where
  keeps : found ⊆ reached
  arrives : places ⊆ reached
  closed : ∀ place ∈ reached, place ∈ found ∨ Closed step reached place
  reaches : ∀ next ∈ reached, next ∈ found ∨ ∃ place ∈ places, ∃ n, Steps step n place next

theorem Explores.refl (found : List Place) : Explores step found [] found :=
  ⟨fun _ h => h, List.nil_subset _, fun _ h => Or.inl h, fun _ h => Or.inl h⟩

theorem Explores.ready {pos : Nat} (hexplores : Explores step found places reached)
    (hready : Ready step found pos) : Ready step reached pos := by
  intro place hplace hpos
  rcases hexplores.closed place hplace with hfound | hclosed
  · exact (hready place hfound hpos).mono hexplores.keeps
  · exact hclosed

theorem Explores.trans (hfirst : Explores step found [place] mid)
    (hrest : Explores step mid places reached) : Explores step found (place :: places) reached where
  keeps := fun _ h => hrest.keeps (hfirst.keeps h)
  arrives := by
    intro other hother
    rcases List.mem_cons.mp hother with rfl | htail
    · exact hrest.keeps (hfirst.arrives List.mem_cons_self)
    · exact hrest.arrives htail
  closed := by
    intro other hother
    rcases hrest.closed other hother with hmid | hclosed
    · exact (hfirst.closed other hmid).imp_right fun hclosed => hclosed.mono hrest.keeps
    · exact Or.inr hclosed
  reaches := by
    intro next hnext
    rcases hrest.reaches next hnext with hmid | ⟨other, hother, hsteps⟩
    · refine (hfirst.reaches next hmid).imp_right ?_
      -- found by the first walk already, hence from the first place
      rintro ⟨other, hother, hsteps⟩
      rw [List.mem_singleton] at hother
      exact ⟨other, by simp [hother], hsteps⟩
    · exact Or.inr ⟨other, List.mem_cons_of_mem _ hother, hsteps⟩

/-- Walks from several places, one after the other. -/
theorem explores_foldl {visit : List Place → Place → List Place}
    (hvisit : ∀ found, ∀ place ∈ places, Ready step found place.pos →
      Explores step found [place] (visit found place))
    (hready : ∀ place ∈ places, Ready step found place.pos) :
    Explores step found places (places.foldl visit found) := by
  induction places generalizing found with
  | nil => exact Explores.refl found
  | cons place rest ih =>
      have hfirst := hvisit found place List.mem_cons_self (hready place List.mem_cons_self)
      exact hfirst.trans (ih (fun found other hother => hvisit found other (.tail _ hother))
        fun other hother => hfirst.ready (hready other (.tail _ hother)))

/-- When all steps from a place have been walked on, the place itself is explored. -/
theorem Explores.of_steps {start : List Place} (hsteps : Explores step start (step place) mid)
    (hstart : ∀ other ∈ start, other ∈ found ∨ other = place) (hfound : found ⊆ start)
    (hmid : mid ⊆ reached) (hplace : place ∈ reached)
    (hreached : ∀ other ∈ reached, other ∈ mid ∨ other = place) :
    Explores step found [place] reached where
  keeps := fun _ h => hmid (hsteps.keeps (hfound h))
  arrives := by
    intro other hother
    rwa [List.mem_singleton.mp hother]
  closed := by
    -- the steps of the place were walked on, so it is closed as soon as they are
    have hclosed : Closed step reached place := fun next hnext => hmid (hsteps.arrives hnext)
    intro other hother
    rcases hreached other hother with hother | rfl
    · rcases hsteps.closed other hother with hother | hother
      · rcases hstart other hother with hfound | rfl
        · exact Or.inl hfound
        · exact Or.inr hclosed
      · exact Or.inr (hother.mono hmid)
    · exact Or.inr hclosed
  reaches := by
    -- the place reaches itself without a step
    have hself : ∃ other ∈ [place], ∃ n, Steps step n other place :=
      ⟨place, List.mem_cons_self, 0, rfl⟩
    intro next hnext
    rcases hreached next hnext with hnext | rfl
    · rcases hsteps.reaches next hnext with hnext | ⟨other, hother, n, hn⟩
      · rcases hstart next hnext with hfound | rfl
        · exact Or.inl hfound
        · exact Or.inr hself
      · exact Or.inr ⟨place, List.mem_cons_self, n + 1, other, hother, hn⟩
    · exact Or.inr hself

theorem explores_walk (hforward : Forward step length) {fuel : Nat} (hplace : place.pos ≤ length)
    (hfuel : length < fuel + place.pos) (hready : Ready step found place.pos) :
    Explores step found [place] (walk step greedy keepsEmpty fuel found place) := by
  induction fuel generalizing found place with
  | zero => omega
  | succ fuel ih =>
      by_cases hmem : place ∈ found
      · have hwalk : walk step greedy keepsEmpty (fuel + 1) found place = found := by
          simp [walk, hmem]
        rw [hwalk]
        refine ⟨fun _ h => h, ?_, fun _ h => Or.inl h, fun _ h => Or.inl h⟩
        intro other hother
        rwa [List.mem_singleton.mp hother]
      · -- the place itself is open while its steps are walked on, but it stands before them
        have hexplores : ∀ start, (∀ other ∈ start, other ∈ found ∨ other = place) →
            found ⊆ start → Explores step start (step place) ((step place).foldl
              (fun found next =>
                if place.pos < next.pos then walk step greedy keepsEmpty fuel found next
                else if keepsEmpty then addNew found next
                else found) start) := by
          intro start hstart hfound
          refine explores_foldl ?_ ?_
          · intro found' next hnext hready'
            obtain ⟨hlt, hle⟩ := hforward place next hplace hnext
            rw [if_pos hlt]
            exact ih hle (by omega) hready'
          · intro next hnext other hother hpos
            have hlt := (hforward place next hplace hnext).1
            rcases hstart other hother with hother | rfl
            · exact (hready other hother (by omega)).mono hfound
            · omega
        cases greedy with
        | true =>
            have hsteps := hexplores found (fun _ h => Or.inl h) (fun _ h => h)
            simp only [walk, hmem, if_false, if_true]
            exact hsteps.of_steps (fun _ h => Or.inl h) (fun _ h => h)
              (fun _ h => mem_addNew.mpr (Or.inl h)) (mem_addNew.mpr (Or.inr rfl))
              fun _ h => mem_addNew.mp h
        | false =>
            have hsteps := hexplores (found ++ [place]) (by simp) (List.subset_append_left ..)
            simp only [walk, hmem, if_false, Bool.false_eq_true]
            exact hsteps.of_steps (by simp) (List.subset_append_left ..) (fun _ h => h)
              (hsteps.keeps (by simp)) fun _ h => Or.inl h

/-- An unbounded loop reaches what any number of rounds reaches. -/
theorem mem_walkAll (hforward : Forward step length)
    (hplaces : ∀ place ∈ places, place.pos ≤ length) :
    next ∈ walkAll step greedy keepsEmpty length places ↔
      ∃ place ∈ places, ∃ n, Steps step n place next := by
  -- nothing was found before the first walk, so what is found is closed
  have hexplores : Explores step [] places (walkAll step greedy keepsEmpty length places) := by
    refine explores_foldl ?_ ?_
    · intro found place hplace hready
      have hpos := hplaces place hplace
      exact explores_walk hforward hpos (by omega) hready
    · intro place _ other hother
      exact absurd hother List.not_mem_nil
  constructor
  · intro hnext
    exact (hexplores.reaches next hnext).resolve_left List.not_mem_nil
  · rintro ⟨place, hplace, n, hsteps⟩
    have hstart := hexplores.arrives hplace
    -- a closed set that contains the place contains what is reached from it
    clear hplace
    induction n generalizing place with
    | zero => exact (show next = place from hsteps) ▸ hstart
    | succ n ih =>
        obtain ⟨between, hbetween, hsteps⟩ := hsteps
        have hclosed := (hexplores.closed place hstart).resolve_left List.not_mem_nil
        exact ih between hsteps (hclosed between hbetween)

/-! ## Loops as patterns -/

namespace Regex

variable {text : List Char} {r : Regex} {least most : Nat}

theorem mem_runs_bounded :
    next ∈ (loop least (some most) greedy keepsEmpty r).runs text place ↔
      ∃ n, least ≤ n ∧ n ≤ max least most ∧ Steps (r.runs text) n place next := by
  simp only [runs, mem_gather, mem_rounds, mem_upTo, List.mem_singleton, exists_eq_left]
  constructor
  · rintro ⟨between, hleast, n, hn, hmore⟩
    exact ⟨least + n, by omega, by omega, steps_add.mpr ⟨between, hleast, hmore⟩⟩
  · rintro ⟨n, hleast, hmost, hsteps⟩
    obtain ⟨more, rfl⟩ := Nat.exists_eq_add_of_le hleast
    obtain ⟨between, hfirst, hmore⟩ := steps_add.mp hsteps
    exact ⟨between, hfirst, more, by omega, hmore⟩

theorem mem_runs_unbounded (hforward : Forward (r.runs text) text.length)
    (hplace : place.pos ≤ text.length) :
    next ∈ (loop least none greedy keepsEmpty r).runs text place ↔
      ∃ n, least ≤ n ∧ Steps (r.runs text) n place next := by
  have hstarted : ∀ between ∈ rounds (r.runs text) least [place], between.pos ≤ text.length := by
    intro between hbetween
    obtain ⟨other, hother, hsteps⟩ := mem_rounds.mp hbetween
    rw [List.mem_singleton.mp hother] at hsteps
    exact hforward.steps_le hplace hsteps
  simp only [runs, mem_walkAll hforward hstarted, mem_rounds, List.mem_singleton, exists_eq_left]
  constructor
  · rintro ⟨between, hleast, n, hmore⟩
    exact ⟨least + n, by omega, steps_add.mpr ⟨between, hleast, hmore⟩⟩
  · rintro ⟨n, hleast, hsteps⟩
    obtain ⟨more, rfl⟩ := Nat.exists_eq_add_of_le hleast
    obtain ⟨between, hfirst, hmore⟩ := steps_add.mp hsteps
    exact ⟨between, hfirst, more, hmore⟩

end Regex

end EquationPractice
