import EquationPractice.Sampling.IntRange
import EquationPractice.Sampling.Shuffle
import Mathlib.Tactic

/-!
# What draws yield

A computation that draws from a source fails, or runs out of attempts, or returns a value.  This
file takes chains of such computations apart, and says of the basic draws that they return a value
of the right kind whenever they end.

## Main definitions

* `Draw.Yields`: whenever the computation ends, it returns a value with some property.
-/

namespace EquationPractice

namespace Draw

variable {σ ε δ α β : Type} {draw : Draw σ ε α} {next : α → Draw σ ε β} {source last : σ}

/-! ## Outcomes of chains -/

@[simp] theorem outcome_ofOutcome (f : σ → Option (Except ε α × σ)) (source : σ) :
    (ofOutcome f).outcome source = f source := rfl

@[simp] theorem outcome_pure (value : α) (source : σ) :
    (pure value : Draw σ ε α).outcome source = some (.ok value, source) := rfl

@[simp] theorem outcome_throw (e : ε) (source : σ) :
    (throw e : Draw σ ε α).outcome source = some (.error e, source) := rfl

/-- What is computed of the value of a draw. -/
theorem eq_of_outcome {value : α} {found : β} (f : α → β)
    (hdraw : draw.outcome source = some (.ok value, last))
    (hfound : (draw.outcome source).bind (fun ended => ended.1.toOption.map f) = some found) :
    f value = found := by
  simpa [hdraw, Except.toOption] using hfound

theorem outcome_bind : (draw >>= next).outcome source =
    (draw.outcome source).bind fun (result, mid) =>
      match result with
      | .ok value => (next value).outcome mid
      | .error e => some (.error e, mid) := by
  unfold outcome
  rw [ExceptT.run_bind, StateT.run_bind, Option.bind_eq_bind]
  congr 1
  funext ended
  obtain ⟨result, mid⟩ := ended
  cases result with
  | ok value => rfl
  | error e => rfl

/-- How a chain ends: with its first link where that fails, and else with the rest. -/
theorem outcome_bind_eq_some {result : Except ε β} :
    (draw >>= next).outcome source = some (result, last) ↔
      (∃ value mid, draw.outcome source = some (.ok value, mid) ∧
        (next value).outcome mid = some (result, last)) ∨
      ∃ e, draw.outcome source = some (.error e, last) ∧ result = .error e := by
  rw [outcome_bind]
  cases draw.outcome source with
  | none => simp
  | some ended =>
      obtain ⟨first, mid⟩ := ended
      cases first with
      | ok value => simp
      | error e =>
          simp only [Option.bind_some, Option.some.injEq, Prod.mk.injEq, reduceCtorEq, false_and,
            exists_false, false_or, Except.error.injEq]
          constructor
          · rintro ⟨rfl, rfl⟩
            exact ⟨e, ⟨rfl, rfl⟩, rfl⟩
          · rintro ⟨e, ⟨rfl, rfl⟩, rfl⟩
            exact ⟨rfl, rfl⟩

/-! ## Computations that never fail -/

/-- Whenever the computation ends, it returns a value with the property. -/
def Yields (draw : Draw σ ε α) (good : α → Prop) : Prop :=
  ∀ source result last, draw.outcome source = some (result, last) →
    ∃ value, result = .ok value ∧ good value

variable {good : α → Prop} {better : β → Prop}

/-- A computation that ends on a source returns a value there. -/
theorem Yields.of_isSome (hdraw : Yields draw good) (hends : (draw.outcome source).isSome = true) :
    ∃ value last, draw.outcome source = some (.ok value, last) ∧ good value := by
  obtain ⟨⟨result, last⟩, hended⟩ := Option.isSome_iff_exists.mp hends
  obtain ⟨value, rfl, hgood⟩ := hdraw _ _ _ hended
  exact ⟨value, last, hended, hgood⟩

theorem Yields.imp {fair : α → Prop} (hdraw : Yields draw good)
    (himp : ∀ value, good value → fair value) : Yields draw fair := by
  intro source result last hended
  obtain ⟨value, rfl, hgood⟩ := hdraw source result last hended
  exact ⟨value, rfl, himp value hgood⟩

theorem yields_pure {value : α} (hgood : good value) :
    Yields (pure value : Draw σ ε α) good := by
  rintro source result last hended
  simp only [outcome_pure, Option.some.injEq, Prod.mk.injEq] at hended
  exact ⟨value, hended.1.symm, hgood⟩

theorem Yields.bind (hdraw : Yields draw good)
    (hnext : ∀ value, good value → Yields (next value) better) : Yields (draw >>= next) better := by
  intro source result last hended
  rcases outcome_bind_eq_some.mp hended with ⟨value, mid, hfirst, hrest⟩ | ⟨e, hfirst, -⟩
  · obtain ⟨_, hvalue, hgood⟩ := hdraw _ _ _ hfirst
    obtain rfl := Except.ok.inj hvalue
    exact hnext value hgood _ _ _ hrest
  · obtain ⟨_, hvalue, -⟩ := hdraw _ _ _ hfirst
    exact absurd hvalue (by simp)

theorem Yields.mapError (hdraw : Yields draw good) (f : ε → δ) :
    Yields (draw.mapError f) good := by
  intro source result last hended
  simp only [Draw.mapError, outcome_ofOutcome, Option.map_eq_some_iff, Prod.mk.injEq] at hended
  obtain ⟨⟨first, mid⟩, hfirst, rfl, -⟩ := hended
  obtain ⟨value, rfl, hgood⟩ := hdraw _ _ _ hfirst
  exact ⟨value, rfl, hgood⟩

/-- Draws that are repeated until a word is accepted yield what words are accepted as. -/
theorem yields_redraw {word : Type} {draw : Draw σ ε word} {accept : word → Option α}
    (hdraw : Yields draw fun _ => True) (haccept : ∀ w value, accept w = some value → good value)
    (attempts : Nat) : Yields (redraw draw accept attempts) good := by
  induction attempts with
  | zero =>
      intro source result last hended
      exact absurd hended (by simp [redraw])
  | succ attempts ih =>
      unfold redraw
      refine hdraw.bind fun w _ => ?_
      split
      · next value hvalue => exact yields_pure (haccept w value hvalue)
      · exact ih

variable [WordSource σ]

theorem yields_word32 : Yields (word32 : Draw σ ε UInt32) fun _ => True := by
  intro source result last hended
  simp only [word32, outcome_ofOutcome, Option.some.injEq, Prod.mk.injEq] at hended
  exact ⟨_, hended.1.symm, trivial⟩

theorem yields_word64 : Yields (word64 : Draw σ ε UInt64) fun _ => True := by
  intro source result last hended
  simp only [word64, outcome_ofOutcome, Option.some.injEq, Prod.mk.injEq] at hended
  exact ⟨_, hended.1.symm, trivial⟩

/-! ## Shuffles -/

theorem yields_below32 (attempts bound : Nat) :
    Yields (below32 attempts bound : Draw σ ε Nat) fun _ => True :=
  yields_redraw yields_word32 (fun _ _ _ => trivial) attempts

theorem yields_below64 (attempts bound : Nat) :
    Yields (below64 attempts bound : Draw σ ε Nat) fun _ => True :=
  yields_redraw yields_word64 (fun _ _ _ => trivial) attempts

theorem swapIfInBounds_perm (items : Array α) (i j : Nat) :
    (items.swapIfInBounds i j).Perm items := by
  rw [Array.swapIfInBounds_def]
  split
  · split
    · exact Array.swap_perm ..
    · exact Array.Perm.refl items
  · exact Array.Perm.refl items

theorem yields_shuffleFirst (attempts count : Nat) (items : Array α) :
    Yields (shuffleFirst attempts count items : Draw σ ε (Array α)) (·.Perm items) := by
  induction count generalizing items with
  | zero => exact yields_pure (Array.Perm.refl items)
  | succ count ih =>
      cases count with
      | zero => exact yields_pure (Array.Perm.refl items)
      | succ last =>
          refine (yields_below32 attempts (last + 2)).bind fun other _ => ?_
          -- every exchange keeps the elements
          have hswap := swapIfInBounds_perm items (last + 1) other
          exact (ih (items.swapIfInBounds (last + 1) other)).imp fun _ hperm => hperm.trans hswap

/-- A shuffled list has the elements it had. -/
theorem yields_shuffle (attempts : Nat) (items : List α) :
    Yields (shuffle attempts items : Draw σ ε (List α)) (·.Perm items) :=
  (yields_shuffleFirst attempts _ _).bind fun shuffled hperm =>
    yields_pure (by simpa using hperm.toList)

end Draw

/-! ## Ranges -/

namespace IntRange

open Draw

variable {σ : Type} [WordSource σ] {range : IntRange} {candidates : List (Int × Nat)} {n lo hi : Int}

theorem wantsSign_iff : range.wantsSign n = true ↔
    (n < 0 → '-' ∈ range.signs.toList) ∧ (n = 0 → '0' ∈ range.signs.toList) ∧
      (0 < n → '+' ∈ range.signs.toList) := by
  unfold wantsSign
  rcases lt_trichotomy n 0 with hneg | rfl | hpos
  · simp [hneg, hneg.ne, hneg.le]
  · simp
  · simp [hpos, hpos.ne', not_lt.mpr hpos.le]

theorem weightFault?_eq_none_iff {number weight : Int} :
    range.weightFault? number weight = none ↔ range.allows number = true ∧ 0 < weight := by
  unfold weightFault?
  cases range.allows number with
  | false => simp
  | true => simp

@[simp] theorem mem_integers : n ∈ integers lo hi ↔ lo ≤ n ∧ n ≤ hi := by
  rw [integers, List.mem_map]
  constructor
  · intro hmem
    obtain ⟨k, hk, rfl⟩ := hmem
    rw [List.mem_range] at hk
    omega
  · intro hbounds
    refine ⟨(n - lo).toNat, ?_, ?_⟩
    · rw [List.mem_range]
      omega
    · omega

theorem length_integers (lo hi : Int) : (integers lo hi).length = (hi + 1 - lo).toNat := by
  rw [integers, List.length_map, List.length_range]

theorem pairwise_integers (lo hi : Int) : (integers lo hi).Pairwise (· < ·) := by
  refine List.pairwise_map.mpr (List.pairwise_lt_range.imp ?_)
  intro first second hlt
  omega

/-- When numbers can be drawn from a range: its signs are signs, it is not too wide, no weight is
faulty, and some number remains.  The candidates are then the numbers that remain. -/
theorem candidates_eq_ok : range.candidates = .ok candidates ↔
    range.signFault? = none ∧ ¬maxWidth < range.hi + 1 - range.lo ∧
      (∀ number weight, (number, weight) ∈ range.weights →
        range.weightFault? number weight = none) ∧
      candidates ≠ [] ∧
      ((integers range.lo range.hi).filter range.allows).map (fun n => (n, range.weightOf n)) =
        candidates := by
  have hweights : range.weights.findSome? (Function.uncurry range.weightFault?) = none ↔
      ∀ number weight, (number, weight) ∈ range.weights →
        range.weightFault? number weight = none := by
    simp [List.findSome?_eq_none_iff]
  rw [← hweights]
  unfold IntRange.candidates
  split
  · next fault hfault => simp [hfault]
  · next hsigns =>
      split
      · next hwide => simp [hsigns, hwide]
      · next hnarrow =>
          split
          · next fault hfault =>
              have hfault : range.weights.findSome? (Function.uncurry range.weightFault?) =
                some fault := hfault
              simp [hfault]
          · next hnone =>
              have hnone : range.weights.findSome? (Function.uncurry range.weightFault?) =
                none := hnone
              split
              · next hempty => simp [hempty, eq_comm]
              · next numbers hnumbers =>
                  simp only [hsigns, hnarrow, hnone, not_false_eq_true, true_and, Except.ok.injEq]
                  refine (and_iff_right_of_imp ?_).symm
                  rintro rfl
                  simpa using hnumbers

/-- Candidates stand in increasing order. -/
theorem pairwise_candidates (hcandidates : range.candidates = .ok candidates) :
    candidates.Pairwise fun first second => first.1 < second.1 := by
  obtain ⟨-, -, -, -, rfl⟩ := candidates_eq_ok.mp hcandidates
  exact List.pairwise_map.mpr ((pairwise_integers _ _).filter _)

/-- No candidate is without weight. -/
theorem weight_pos (hcandidates : range.candidates = .ok candidates) {weight : Nat}
    (hmem : (n, weight) ∈ candidates) : 0 < weight := by
  obtain ⟨-, -, hweights, -, rfl⟩ := candidates_eq_ok.mp hcandidates
  simp only [List.mem_map, Prod.mk.injEq] at hmem
  obtain ⟨m, -, rfl, rfl⟩ := hmem
  unfold weightOf
  split
  · next given hlookup =>
      obtain ⟨before, behind, hsplit, -⟩ := List.lookup_eq_some_iff.mp hlookup
      have hfaultless := weightFault?_eq_none_iff.mp (hweights m given (by simp [hsplit]))
      exact Int.lt_toNat.mpr hfaultless.2
  · exact Nat.one_pos

theorem allows_of_mem_candidates (hcandidates : range.candidates = .ok candidates)
    {weight : Nat} (hmem : (n, weight) ∈ candidates) : range.allows n = true := by
  obtain ⟨-, -, -, -, rfl⟩ := candidates_eq_ok.mp hcandidates
  simp only [List.mem_map, Prod.mk.injEq] at hmem
  obtain ⟨m, hm, rfl, -⟩ := hmem
  exact (List.mem_filter.mp hm).2

theorem mem_of_pick? {target : Nat} (hpick : pick? candidates target = some n) :
    ∃ weight, (n, weight) ∈ candidates := by
  induction candidates generalizing target with
  | nil => exact absurd hpick (by simp [pick?])
  | cons first rest ih =>
      obtain ⟨m, weight⟩ := first
      simp only [pick?] at hpick
      split at hpick
      · obtain rfl := Option.some.inj hpick
        exact ⟨weight, List.mem_cons_self⟩
      · obtain ⟨other, hmem⟩ := ih hpick
        exact ⟨other, List.mem_cons_of_mem _ hmem⟩

/-- A draw from a range with candidates yields a number that the range allows. -/
theorem yields_sample (hcandidates : range.candidates = .ok candidates) (attempts : Nat) :
    Yields (range.sample attempts : Draw σ SamplingError Int) fun n => range.allows n = true := by
  unfold sample
  rw [hcandidates]
  refine yields_redraw yields_word64 (fun word n hword => ?_) attempts
  obtain ⟨target, -, hpick⟩ := Option.bind_eq_some_iff.mp hword
  obtain ⟨weight, hmem⟩ := mem_of_pick? hpick
  exact allows_of_mem_candidates hcandidates hmem

end IntRange

end EquationPractice
