import EquationPractice.Proofs.Sampling.Draws
import EquationPractice.Sampling.WordFeed
import Mathlib.Algebra.Order.Floor.Div
import Mathlib.Data.Set.Card

/-!
# The distribution of a weighted draw

One word decides what is drawn, or that another word is needed.  Of all words of 64 bits, each
candidate is decided by as many as its weight times the quotient of `2 ^ 64` by the total weight,
and as many as the remainder are rejected.

## Strategy

Multiplied by the total weight, the words are spread evenly over one stretch of length `2 ^ 64` for
every number below the total.  The rule of rejection cuts each stretch at the same place, so every
number keeps a run of words, its *share*, and all shares are equally long.  The numbers below the
total fall in turn into *blocks*, one for each candidate and as long as its weight.

## Main definitions

* `IntRange.share`: the words that stand for a number below the total weight.
* `IntRange.block`: the numbers below the total weight at which a candidate is picked.
* `IntRange.Decides`, `IntRange.Redraws`: what a word does when it comes first.
-/

namespace EquationPractice

open Draw

namespace IntRange

/-! ## Shares -/

/-- The words that stand for a number below the total weight. -/
def share (total target : ℕ) : Finset ℕ :=
  Finset.Ico (target * 2 ^ 64 ⌈/⌉ total) (target * 2 ^ 64 ⌈/⌉ total + 2 ^ 64 / total)

section Share

variable {total target v : ℕ}

theorem card_share (total target : ℕ) : (share total target).card = 2 ^ 64 / total := by
  rw [share, Nat.card_Ico, Nat.add_sub_cancel_left]

/-- A share holds the words whose product with the total weight lies in the first part of a
stretch. -/
theorem mem_share (htotal : 0 < total) : v ∈ share total target ↔
    target * 2 ^ 64 ≤ v * total ∧ v * total < target * 2 ^ 64 + 2 ^ 64 / total * total := by
  have hend : target * 2 ^ 64 ⌈/⌉ total + 2 ^ 64 / total =
      (target * 2 ^ 64 + 2 ^ 64 / total * total) ⌈/⌉ total := by
    rw [Nat.ceilDiv_eq_add_pred_div, Nat.ceilDiv_eq_add_pred_div,
      ← Nat.add_mul_div_right _ _ htotal]
    congr 1
    omega
  rw [share, Finset.mem_Ico, hend, ← not_le, ceilDiv_le_iff_le_mul htotal,
    ceilDiv_le_iff_le_mul htotal, not_le, mul_comm total v]

theorem lt_of_mem_share (htarget : target < total) (hv : v ∈ share total target) : v < 2 ^ 64 := by
  obtain ⟨-, hlt⟩ := (mem_share (by omega)).mp hv
  have hstretch : 2 ^ 64 / total * total ≤ 2 ^ 64 := Nat.div_mul_le_self _ _
  have hlast : (target + 1) * 2 ^ 64 ≤ total * 2 ^ 64 := Nat.mul_le_mul_right _ htarget
  refine lt_of_mul_lt_mul_right (a := total) ?_ (Nat.zero_le _)
  omega

theorem pairwiseDisjoint_share (htotal : 0 < total) (targets : Set ℕ) :
    targets.PairwiseDisjoint (share total) := by
  intro first _ second _ hne
  refine Finset.disjoint_left.mpr fun v hfirst hsecond => hne ?_
  have hstretch : 2 ^ 64 / total * total ≤ 2 ^ 64 := Nat.div_mul_le_self _ _
  rw [mem_share htotal] at hfirst hsecond
  omega

theorem lt_of_scaled? {word : UInt64} (htotal : 0 < total)
    (hscaled : scaled? total word = some target) : target < total := by
  have hword : word.toNat < UInt64.size := word.toNat_lt
  simp only [scaled?, Option.ite_none_right_eq_some, Option.some.injEq] at hscaled
  rw [← hscaled.2]
  exact Nat.div_lt_of_lt_mul (Nat.mul_lt_mul_of_pos_right hword htotal)

/-- A word stands for a number if and only if it lies in its share: the rejected words are what the
last stretch is short of a whole one. -/
theorem scaled?_eq_some {word : UInt64} (htotal : 0 < total) (hle : total ≤ 2 ^ 64) :
    scaled? total word = some target ↔ word.toNat ∈ share total target := by
  have hsize : UInt64.size = 2 ^ 64 := rfl
  have hzone : (2 ^ 64 - total) % total = 2 ^ 64 % total := (Nat.mod_eq_sub_mod hle).symm
  have hsplit := Nat.div_add_mod (2 ^ 64) total
  have hkept : total ≤ total * (2 ^ 64 / total) :=
    Nat.le_mul_of_pos_right total (Nat.div_pos hle htotal)
  rw [mem_share htotal, mul_comm (2 ^ 64 / total) total]
  simp only [scaled?, hsize, hzone, Option.ite_none_right_eq_some, Option.some.injEq]
  generalize word.toNat * total = product
  generalize total * (2 ^ 64 / total) = kept at *
  generalize 2 ^ 64 % total = lost at *
  omega

/-- The shares of some numbers hold that many times the words of one share. -/
theorem card_shares (htotal : 0 < total) (targets : Finset ℕ) :
    (targets.biUnion (share total)).card = targets.card * (2 ^ 64 / total) := by
  rw [Finset.card_biUnion fun first hfirst second hsecond hne =>
    pairwiseDisjoint_share htotal targets hfirst hsecond hne]
  simp [card_share]

/-- There are as many words with numbers in a set as the set has elements. -/
theorem ncard_words {numbers : Finset ℕ} (hnumbers : ∀ v ∈ numbers, v < 2 ^ 64) :
    {word : UInt64 | word.toNat ∈ numbers}.ncard = numbers.card := by
  have himage : UInt64.toNat '' {word | word.toNat ∈ numbers} = numbers := by
    ext v
    simp only [Set.mem_image, Set.mem_ofPred_eq, Finset.mem_coe]
    constructor
    · rintro ⟨word, hword, rfl⟩
      exact hword
    · intro hv
      have hword : (UInt64.ofNat v).toNat = v := UInt64.toNat_ofNat_of_lt (hnumbers v hv)
      exact ⟨UInt64.ofNat v, hword.symm ▸ hv, hword⟩
  rw [← Set.ncard_image_of_injective _ fun _ _ => UInt64.toNat_inj.mp, himage,
    Set.ncard_coe_finset]

end Share

/-! ## Blocks -/

section Block

variable {candidates : List (ℤ × ℕ)} {m n : ℤ} {weight target : ℕ}

/-- The numbers below the total weight at which a candidate is picked. -/
def block (candidates : List (ℤ × ℕ)) (n : ℤ) : Finset ℕ :=
  (Finset.range (totalWeight candidates)).filter fun target => pick? candidates target = some n

/-- Some candidate is picked at every number below the total weight, and at no other. -/
theorem isSome_pick? :
    (pick? candidates target).isSome = true ↔ target < totalWeight candidates := by
  induction candidates generalizing target with
  | nil => simp [pick?, totalWeight]
  | cons first rest ih =>
      obtain ⟨m, weight⟩ := first
      simp only [pick?, totalWeight]
      split
      · next hlt => simpa using Nat.lt_add_right _ hlt
      · rw [ih]
        omega

theorem mem_block : target ∈ block candidates n ↔ pick? candidates target = some n := by
  rw [block, Finset.mem_filter, Finset.mem_range, ← isSome_pick?]
  exact and_iff_right_of_imp fun hpick => Option.isSome_of_eq_some hpick

theorem block_cons_self (hfresh : n ∉ candidates.map Prod.fst) :
    block ((n, weight) :: candidates) n = Finset.range weight := by
  ext target
  rw [mem_block, Finset.mem_range, pick?]
  split
  · next hlt => simp [hlt]
  · next hge =>
      refine iff_of_false (fun hpick => hfresh ?_) hge
      obtain ⟨other, hmem⟩ := mem_of_pick? hpick
      exact List.mem_map_of_mem hmem

theorem block_cons_of_ne (hne : m ≠ n) :
    block ((m, weight) :: candidates) n = (block candidates n).map (addRightEmbedding weight) := by
  ext target
  simp only [mem_block, Finset.mem_map, addRightEmbedding_apply, pick?]
  split
  · next hlt =>
      refine iff_of_false (by simpa using hne) ?_
      rintro ⟨earlier, -, rfl⟩
      omega
  · next hge =>
      constructor
      · intro hpick
        exact ⟨target - weight, hpick, by omega⟩
      · rintro ⟨earlier, hpick, rfl⟩
        rwa [Nat.add_sub_cancel]

/-- The block of a candidate is as long as its weight. -/
theorem card_block (hdistinct : (candidates.map Prod.fst).Nodup) (hmem : (n, weight) ∈ candidates) :
    (block candidates n).card = weight := by
  induction candidates with
  | nil => exact absurd hmem List.not_mem_nil
  | cons first rest ih =>
      obtain ⟨m, w⟩ := first
      rw [List.map_cons, List.nodup_cons] at hdistinct
      rcases List.mem_cons.mp hmem with hfirst | hrest
      · obtain ⟨rfl, rfl⟩ := Prod.mk.inj hfirst
        rw [block_cons_self hdistinct.1, Finset.card_range]
      · have hne : m ≠ n := by
          rintro rfl
          exact hdistinct.1 (List.mem_map.mpr ⟨_, hrest, rfl⟩)
        rw [block_cons_of_ne hne, Finset.card_map, ih hdistinct.2 hrest]

end Block

/-! ## Candidates -/

section Candidates

variable {range : IntRange} {candidates : List (ℤ × ℕ)} {n : ℤ} {weight : ℕ}

theorem nodup_candidates (hcandidates : range.candidates = .ok candidates) :
    (candidates.map Prod.fst).Nodup :=
  List.pairwise_map.mpr ((pairwise_candidates hcandidates).imp ne_of_lt)

theorem le_totalWeight (hmem : (n, weight) ∈ candidates) : weight ≤ totalWeight candidates := by
  induction candidates with
  | nil => exact absurd hmem List.not_mem_nil
  | cons first rest ih =>
      obtain ⟨m, w⟩ := first
      rw [totalWeight]
      rcases List.mem_cons.mp hmem with hfirst | hrest
      · obtain ⟨rfl, rfl⟩ := Prod.mk.inj hfirst
        exact Nat.le_add_right _ _
      · exact (ih hrest).trans (Nat.le_add_left _ _)

theorem totalWeight_pos (hcandidates : range.candidates = .ok candidates) :
    0 < totalWeight candidates := by
  obtain ⟨-, -, -, hne, -⟩ := candidates_eq_ok.mp hcandidates
  obtain ⟨⟨n, weight⟩, hmem⟩ := List.exists_mem_of_ne_nil candidates hne
  exact (weight_pos hcandidates hmem).trans_le (le_totalWeight hmem)

end Candidates

/-! ## Words -/

section Words

variable {candidates : List (ℤ × ℕ)} {n : ℤ} {word : UInt64}

theorem pickWord?_eq_some (htotal : 0 < totalWeight candidates)
    (hle : totalWeight candidates ≤ 2 ^ 64) : pickWord? candidates word = some n ↔
      word.toNat ∈ (block candidates n).biUnion (share (totalWeight candidates)) := by
  simp only [pickWord?, Option.bind_eq_some_iff, Finset.mem_biUnion, mem_block,
    scaled?_eq_some htotal hle, and_comm]

/-- A word decides nothing if and only if it lies in no share. -/
theorem pickWord?_eq_none (htotal : 0 < totalWeight candidates)
    (hle : totalWeight candidates ≤ 2 ^ 64) : pickWord? candidates word = none ↔
      word.toNat ∈ Finset.range (2 ^ 64) \
        (Finset.range (totalWeight candidates)).biUnion (share (totalWeight candidates)) := by
  have hword : word.toNat < 2 ^ 64 := word.toNat_lt
  rw [Finset.mem_sdiff, Finset.mem_range, and_iff_right hword, Finset.mem_biUnion,
    ← not_iff_not, not_not, pickWord?, ← ne_eq, Option.ne_none_iff_exists']
  constructor
  · rintro ⟨n, hn⟩
    obtain ⟨target, hscaled, -⟩ := Option.bind_eq_some_iff.mp hn
    exact ⟨target, Finset.mem_range.mpr (lt_of_scaled? htotal hscaled),
      (scaled?_eq_some htotal hle).mp hscaled⟩
  · rintro ⟨target, htarget, hshare⟩
    have hbelow : target < totalWeight candidates := Finset.mem_range.mp htarget
    obtain ⟨n, hpick⟩ := Option.isSome_iff_exists.mp (isSome_pick?.mpr hbelow)
    exact ⟨n, Option.bind_eq_some_iff.mpr
      ⟨target, (scaled?_eq_some htotal hle).mpr hshare, hpick⟩⟩

/-- A candidate is decided by its share of the words as often as its weight says. -/
theorem ncard_pickWord? {weight : ℕ} (hle : totalWeight candidates ≤ 2 ^ 64)
    (htotal : 0 < totalWeight candidates) (hdistinct : (candidates.map Prod.fst).Nodup)
    (hmem : (n, weight) ∈ candidates) :
    {word | pickWord? candidates word = some n}.ncard =
      weight * (2 ^ 64 / totalWeight candidates) := by
  have hnumbers : ∀ v ∈ (block candidates n).biUnion (share (totalWeight candidates)),
      v < 2 ^ 64 := by
    intro v hv
    obtain ⟨target, htarget, hshare⟩ := Finset.mem_biUnion.mp hv
    exact lt_of_mem_share (Finset.mem_range.mp (Finset.mem_filter.mp htarget).1) hshare
  simp only [pickWord?_eq_some htotal hle]
  rw [ncard_words hnumbers, card_shares htotal, card_block hdistinct hmem]

/-- The words that decide nothing are the remainder. -/
theorem ncard_pickWord?_none (hle : totalWeight candidates ≤ 2 ^ 64)
    (htotal : 0 < totalWeight candidates) :
    {word | pickWord? candidates word = none}.ncard = 2 ^ 64 % totalWeight candidates := by
  have hshares : (Finset.range (totalWeight candidates)).biUnion (share (totalWeight candidates)) ⊆
      Finset.range (2 ^ 64) := by
    intro v hv
    obtain ⟨target, htarget, hshare⟩ := Finset.mem_biUnion.mp hv
    exact Finset.mem_range.mpr (lt_of_mem_share (Finset.mem_range.mp htarget) hshare)
  simp only [pickWord?_eq_none htotal hle]
  rw [ncard_words fun v hv => Finset.mem_range.mp (Finset.mem_sdiff.mp hv).1,
    Finset.card_sdiff_of_subset hshares, card_shares htotal, Finset.card_range, Finset.card_range]
  exact (Nat.mod_eq_sub_mul_div ..).symm

end Words

/-! ## Draws -/

/-- Whatever the source hands out behind the word, the draw takes this word alone and yields the
number. -/
def Decides (range : IntRange) (word : UInt64) (n : ℤ) : Prop :=
  ∀ (σ : Type) [WordSource σ] (source : σ) (attempts : ℕ), (WordSource.next64 source).1 = word →
    (range.sample (attempts + 1)).outcome source = some (.ok n, (WordSource.next64 source).2)

/-- Whatever the source hands out behind the word, the draw starts over there. -/
def Redraws (range : IntRange) (word : UInt64) : Prop :=
  ∀ (σ : Type) [WordSource σ] (source : σ) (attempts : ℕ), (WordSource.next64 source).1 = word →
    (range.sample (attempts + 1)).outcome source =
      (range.sample attempts).outcome (WordSource.next64 source).2

section Draws

variable {range : IntRange} {candidates : List (ℤ × ℕ)} {n : ℤ} {word : UInt64}

/-- Without an attempt, a draw does not end. -/
theorem outcome_sample_zero {σ : Type} [WordSource σ]
    (hcandidates : range.candidates = .ok candidates) (source : σ) :
    (range.sample 0).outcome source = none := by
  simp only [sample, hcandidates]
  rfl

/-- The first word decides what is drawn, or else the draw starts over behind it. -/
theorem outcome_sample_succ {σ : Type} [WordSource σ]
    (hcandidates : range.candidates = .ok candidates) (source : σ) (attempts : ℕ) :
    (range.sample (attempts + 1)).outcome source =
      match pickWord? candidates (WordSource.next64 source).1 with
      | some n => some (.ok n, (WordSource.next64 source).2)
      | none => (range.sample attempts).outcome (WordSource.next64 source).2 := by
  have hword : (word64 : Draw σ SamplingError UInt64).outcome source =
      some (.ok (WordSource.next64 source).1, (WordSource.next64 source).2) := rfl
  simp only [sample, hcandidates]
  rw [redraw, outcome_bind, hword, Option.bind_some]
  simp only
  cases pickWord? candidates (WordSource.next64 source).1 with
  | some n => rfl
  | none => rfl

/-- With a single attempt, a draw ends exactly where the first word decides it. -/
theorem outcome_sample_one (hcandidates : range.candidates = .ok candidates) (word : UInt64) :
    ∃ feed last : WordFeed, (WordSource.next64 feed).1 = word ∧ (WordSource.next64 feed).2 = last ∧
      (range.sample 1).outcome feed = (pickWord? candidates word).map fun n => (.ok n, last) := by
  refine ⟨WordFeed.ofWords [word] 0, _, rfl, rfl, ?_⟩
  have hfirst : (WordSource.next64 (WordFeed.ofWords [word] 0)).1 = word := rfl
  rw [outcome_sample_succ hcandidates, hfirst]
  cases pickWord? candidates word with
  | some n => rfl
  | none => rw [outcome_sample_zero hcandidates, Option.map_none]

theorem decides_iff (hcandidates : range.candidates = .ok candidates) :
    range.Decides word n ↔ pickWord? candidates word = some n := by
  constructor
  · intro hdecides
    obtain ⟨feed, last, hfirst, hlast, houtcome⟩ := outcome_sample_one hcandidates word
    rw [hdecides WordFeed feed 0 hfirst, hlast] at houtcome
    obtain ⟨m, hpick, heq⟩ := Option.map_eq_some_iff.mp houtcome.symm
    simp only [Prod.mk.injEq, Except.ok.injEq, and_true] at heq
    rwa [heq] at hpick
  · intro hpick σ _ source attempts hfirst
    rw [outcome_sample_succ hcandidates, hfirst, hpick]

theorem redraws_iff (hcandidates : range.candidates = .ok candidates) :
    range.Redraws word ↔ pickWord? candidates word = none := by
  constructor
  · intro hredraws
    obtain ⟨feed, last, hfirst, hlast, houtcome⟩ := outcome_sample_one hcandidates word
    rw [hredraws WordFeed feed 0 hfirst, outcome_sample_zero hcandidates] at houtcome
    exact Option.map_eq_none_iff.mp houtcome.symm
  · intro hpick σ _ source attempts hfirst
    rw [outcome_sample_succ hcandidates, hfirst, hpick]

end Draws

/-- **A weighted draw has the promised distribution.**  Let a range have candidates whose weights
have a sum below `2 ^ 64`.  Of the words that may come first, a candidate is decided by exactly as
many as its weight times the quotient of `2 ^ 64` by that sum.  No word decides a number that is not
a candidate.  The draw starts over behind a word if and only if the word decides nothing, and there
are as many such words as the remainder says. -/
theorem sample_distribution {range : IntRange} {candidates : List (ℤ × ℕ)}
    (hcandidates : range.candidates = .ok candidates)
    (htotal : totalWeight candidates < 2 ^ 64) :
    (∀ n weight, (n, weight) ∈ candidates →
      {word | range.Decides word n}.ncard = weight * (2 ^ 64 / totalWeight candidates)) ∧
    (∀ word n, range.Decides word n → ∃ weight, (n, weight) ∈ candidates) ∧
    (∀ word, range.Redraws word ↔ ¬∃ n, range.Decides word n) ∧
    {word | range.Redraws word}.ncard = 2 ^ 64 % totalWeight candidates := by
  have hpos := totalWeight_pos hcandidates
  have hdistinct := nodup_candidates hcandidates
  simp only [decides_iff hcandidates, redraws_iff hcandidates]
  refine ⟨fun n weight hmem => ncard_pickWord? htotal.le hpos hdistinct hmem, ?_, ?_,
    ncard_pickWord?_none htotal.le hpos⟩
  · intro word n hpick
    obtain ⟨target, -, hblock⟩ := Option.bind_eq_some_iff.mp hpick
    exact mem_of_pick? hblock
  · intro word
    rw [← Option.ne_none_iff_exists', not_not]

/-- Two candidates of a total weight above the half of all words: each is decided by as many words
as it weighs, and all other words are rejected. -/
theorem sample_distribution_heavy :
    (((IntRange.between 0 1).withWeight 0 9223372036854775807).withWeight 1
      4611686018427387904).candidates = .ok [(0, 9223372036854775807), (1, 4611686018427387904)] ∧
    totalWeight [(0, 9223372036854775807), (1, 4611686018427387904)] < 2 ^ 64 ∧
    {word | (((IntRange.between 0 1).withWeight 0 9223372036854775807).withWeight 1
      4611686018427387904).Decides word 1}.ncard = 4611686018427387904 ∧
    {word | (((IntRange.between 0 1).withWeight 0 9223372036854775807).withWeight 1
      4611686018427387904).Redraws word}.ncard = 4611686018427387905 := by
  have hcandidates : (((IntRange.between 0 1).withWeight 0 9223372036854775807).withWeight 1
      4611686018427387904).candidates =
        .ok [(0, 9223372036854775807), (1, 4611686018427387904)] := by decide +kernel
  have htotal : totalWeight [(0, 9223372036854775807), (1, 4611686018427387904)] < 2 ^ 64 := by
    decide
  obtain ⟨hshares, -, -, hrejected⟩ := sample_distribution hcandidates htotal
  exact ⟨hcandidates, htotal, hshares 1 4611686018427387904 (by simp), hrejected⟩

end IntRange

end EquationPractice
