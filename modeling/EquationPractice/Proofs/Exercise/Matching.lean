import EquationPractice.Proofs.Exercise.Acceptance

/-!
# Interchangeable slots as a matching

Answers are judged one after the other, and each answer of a group takes a free slot of the group
for itself.  If all answers are accepted, the slots that were taken are an injective matching of
answers to slots.  The converse asks whether a free slot, taken as soon as it fits, can ever block an
answer that comes later.

## Strategy

For the converse a matching is adapted to the slots as they are taken.  Where the answer at hand
takes another slot than the matching had meant for it, the two slots change places in the matching.
That is possible if answers that match a common slot match the same slots, `Judge.InBlocks`, and it
is so when no difference is tolerated: answers are then compared by what they denote,
`Answer.essence`.

## Main definitions

* `Judge.Matches`: a given answer is acceptable and the right one for a slot.
* `Judge.Matching`: the slots are assigned to the answers, no slot twice.
* `Judge.InBlocks`: the answers for a group that match a common slot of it match the same slots.
-/

namespace EquationPractice

theorem Slots.pairwise_ne {α : Type} (slots : Slots α) :
    slots.entries.Pairwise fun first second => first.1 ≠ second.1 :=
  slots.increasing.imp fun hlt => Std.ne_of_lt hlt

namespace Judge

variable (judge : Judge) (expected : Slots Answer) (allowed : List SpecialAnswer)
  (groups : List (List String))

/-- A given answer is let through and agrees with the answer that is expected in the slot. -/
def Matches (given : GivenAnswer) (slot : String) : Prop :=
  ∃ answer wanted, judge.letThrough? allowed given = some answer ∧
    expected.get? slot = some wanted ∧ judge.isRight answer wanted = true

/-- The names that stand in some group and for which an answer is given. -/
def groupedNames (entries : List (String × GivenAnswer)) : Set String :=
  {name | (∃ given, (name, given) ∈ entries) ∧ ∃ group ∈ groups, name ∈ group}

/-- Every given answer is let through, every answer outside the groups matches its own slot, and the
others match slots of the first group with their name, no slot being used twice. -/
structure Matching (entries : List (String × GivenAnswer)) (slotOf : String → String) : Prop where
  admitted : ∀ entry ∈ entries, ∃ answer, judge.letThrough? allowed entry.2 = some answer
  alone : ∀ entry ∈ entries, (∀ group ∈ groups, entry.1 ∉ group) →
    judge.Matches expected allowed entry.2 entry.1
  placed : ∀ entry ∈ entries, ∀ group, groups.find? (entry.1 ∈ ·) = some group →
    slotOf entry.1 ∈ group ∧ judge.Matches expected allowed entry.2 (slotOf entry.1)
  injective : Set.InjOn slotOf (groupedNames groups entries)

/-- Answers given for a group that match a common slot of it match the same slots of it. -/
def InBlocks (entries : List (String × GivenAnswer)) : Prop :=
  ∀ group ∈ groups, ∀ slot ∈ group, ∀ other ∈ group,
    ∀ first ∈ entries, first.1 ∈ group → ∀ second ∈ entries, second.1 ∈ group →
    judge.Matches expected allowed first.2 slot → judge.Matches expected allowed first.2 other →
    judge.Matches expected allowed second.2 slot → judge.Matches expected allowed second.2 other

variable {judge expected allowed groups}

theorem Matches.admitted {given : GivenAnswer} {slot : String}
    (hmatches : judge.Matches expected allowed given slot) :
    ∃ answer, judge.letThrough? allowed given = some answer := by
  obtain ⟨answer, wanted, hadmitted, -⟩ := hmatches
  exact ⟨answer, hadmitted⟩

/-! ## Groups -/

section groups

variable {name : String} {group other : List String}

theorem not_grouped_iff :
    groups.find? (name ∈ ·) = none ↔ ∀ group ∈ groups, name ∉ group := by
  simp only [List.find?_eq_none, decide_eq_true_eq]

theorem mem_of_first (hfirst : groups.find? (name ∈ ·) = some group) :
    group ∈ groups ∧ name ∈ group :=
  ⟨List.mem_of_find?_eq_some hfirst, by simpa using List.find?_some hfirst⟩

/-- In disjoint groups a name stands in one group only. -/
theorem eq_of_mem_groups (hdisjoint : groups.Pairwise List.Disjoint) (hgroup : group ∈ groups)
    (hother : other ∈ groups) (hname : name ∈ group) (hname' : name ∈ other) : group = other := by
  by_contra hne
  have : Std.Symm (List.Disjoint (α := String)) := ⟨fun _ _ h => h.symm⟩
  exact hdisjoint.forall hgroup hother hne hname hname'

end groups

/-! ## One answer -/

section step

variable {name slot : String} {given : GivenAnswer} {answer : Answer}
  {group taken : List String} {rest : List (String × GivenAnswer)}

theorem fits_iff : judge.fits expected answer slot = true ↔
    ∃ wanted, expected.get? slot = some wanted ∧ judge.isRight answer wanted = true := by
  unfold fits
  cases expected.get? slot with
  | none => simp
  | some wanted => simp

theorem matches_iff (hadmitted : judge.letThrough? allowed given = some answer) :
    judge.Matches expected allowed given slot ↔ judge.fits expected answer slot = true := by
  simp only [Matches, hadmitted, Option.some.injEq, fits_iff]
  constructor
  · intro hmatches
    obtain ⟨_, wanted, rfl, hwanted⟩ := hmatches
    exact ⟨wanted, hwanted⟩
  · intro hfits
    obtain ⟨wanted, hwanted⟩ := hfits
    exact ⟨answer, wanted, rfl, hwanted⟩

instance : Decidable (judge.Matches expected allowed given slot) :=
  decidable_of_iff ((judge.letThrough? allowed given).any (judge.fits expected · slot) = true) <| by
    cases hadmitted : judge.letThrough? allowed given with
    | none => simp [Matches, hadmitted]
    | some answer => rw [Option.any_some, matches_iff hadmitted]

instance (entries : List (String × GivenAnswer)) :
    Decidable (judge.InBlocks expected allowed groups entries) := by
  unfold InBlocks
  infer_instance

/-- The slot that is taken is a free one that fits. -/
theorem slotFor?_eq_some (hname : name ∈ group)
    (hslot : judge.slotFor? expected answer name group taken = some slot) :
    slot ∈ group ∧ slot ∉ taken ∧ judge.fits expected answer slot = true := by
  have hfound := List.find?_some hslot
  have hmem := List.mem_of_find?_eq_some hslot
  simp only [Bool.and_eq_true, decide_eq_true_eq] at hfound
  refine ⟨?_, hfound⟩
  rcases List.mem_cons.mp hmem with rfl | hmem
  · exact hname
  · exact hmem

/-- Some slot is taken if there is a free one that fits. -/
theorem exists_slotFor? (name : String) (hslot : slot ∈ group) (hfree : slot ∉ taken)
    (hfits : judge.fits expected answer slot = true) :
    ∃ found, judge.slotFor? expected answer name group taken = some found := by
  rw [← Option.isSome_iff_exists, slotFor?, List.find?_isSome]
  exact ⟨slot, List.mem_cons_of_mem _ hslot, by simp [hfree, hfits]⟩

/-- How the next answer is judged: outside the groups by its own slot, and in a group by the slot
that it takes. -/
theorem acceptsFrom_cons_iff :
    judge.acceptsFrom expected allowed groups ((name, given) :: rest) taken = true ↔
      ∃ answer, judge.letThrough? allowed given = some answer ∧
        ((groups.find? (name ∈ ·) = none ∧ judge.fits expected answer name = true ∧
          judge.acceptsFrom expected allowed groups rest taken = true) ∨
        ∃ group slot, groups.find? (name ∈ ·) = some group ∧
          judge.slotFor? expected answer name group taken = some slot ∧
          judge.acceptsFrom expected allowed groups rest (slot :: taken) = true) := by
  rw [acceptsFrom]
  cases judge.letThrough? allowed given with
  | none => simp
  | some answer =>
      cases groups.find? (name ∈ ·) with
      | none => simp
      | some group =>
          cases hslot : judge.slotFor? expected answer name group taken with
          | none => simp [hslot]
          | some slot => simp [hslot]

/-- What it takes for the next answer to be accepted. -/
theorem of_acceptsFrom_cons
    (haccepts : judge.acceptsFrom expected allowed groups ((name, given) :: rest) taken = true) :
    (groups.find? (name ∈ ·) = none ∧ judge.Matches expected allowed given name ∧
      judge.acceptsFrom expected allowed groups rest taken = true) ∨
    ∃ group slot, groups.find? (name ∈ ·) = some group ∧ slot ∈ group ∧ slot ∉ taken ∧
      judge.Matches expected allowed given slot ∧
      judge.acceptsFrom expected allowed groups rest (slot :: taken) = true := by
  obtain ⟨answer, hadmitted, ⟨hnone, hfits, hrest⟩ | ⟨group, slot, hfirst, hslot, hrest⟩⟩ :=
    acceptsFrom_cons_iff.mp haccepts
  · exact Or.inl ⟨hnone, (matches_iff hadmitted).mpr hfits, hrest⟩
  · obtain ⟨hmem, hfree, hfits⟩ := slotFor?_eq_some (mem_of_first hfirst).2 hslot
    exact Or.inr ⟨group, slot, hfirst, hmem, hfree, (matches_iff hadmitted).mpr hfits, hrest⟩

theorem acceptsFrom_cons_alone (hnone : groups.find? (name ∈ ·) = none)
    (hmatches : judge.Matches expected allowed given name) :
    judge.acceptsFrom expected allowed groups ((name, given) :: rest) taken =
      judge.acceptsFrom expected allowed groups rest taken := by
  obtain ⟨answer, wanted, hadmitted, hwanted⟩ := hmatches
  have hfits : judge.fits expected answer name = true := fits_iff.mpr ⟨wanted, hwanted⟩
  rw [acceptsFrom]
  simp only [hadmitted, hnone, hfits, Bool.true_and]

/-- An answer that matches a free slot of its group takes one, though perhaps another. -/
theorem exists_acceptsFrom_cons (rest : List (String × GivenAnswer))
    (hfirst : groups.find? (name ∈ ·) = some group) (hslot : slot ∈ group) (hfree : slot ∉ taken)
    (hmatches : judge.Matches expected allowed given slot) :
    ∃ found ∈ group, found ∉ taken ∧ judge.Matches expected allowed given found ∧
      judge.acceptsFrom expected allowed groups ((name, given) :: rest) taken =
        judge.acceptsFrom expected allowed groups rest (found :: taken) := by
  obtain ⟨answer, wanted, hadmitted, hwanted⟩ := hmatches
  obtain ⟨found, hfound⟩ := exists_slotFor? name hslot hfree
    (fits_iff.mpr ⟨wanted, hwanted⟩)
  obtain ⟨hmem, hnot, hfits⟩ := slotFor?_eq_some (mem_of_first hfirst).2 hfound
  refine ⟨found, hmem, hnot, (matches_iff hadmitted).mpr hfits, ?_⟩
  rw [acceptsFrom]
  simp only [hadmitted, hfirst, hfound]

end step

/-! ## What is accepted is a matching -/

section accepts

variable {entries rest : List (String × GivenAnswer)} {entry : String × GivenAnswer}
  {taken : List String} {slotOf : String → String}

theorem mem_groupedNames (hentry : entry ∈ entries) {group : List String}
    (hfirst : groups.find? (entry.1 ∈ ·) = some group) :
    entry.1 ∈ groupedNames groups entries :=
  ⟨⟨entry.2, hentry⟩, group, mem_of_first hfirst⟩

theorem groupedNames_subset_cons :
    groupedNames groups rest ⊆ groupedNames groups (entry :: rest) := by
  intro name hname
  obtain ⟨⟨given, hmem⟩, hgroup⟩ := hname
  exact ⟨⟨given, List.mem_cons_of_mem _ hmem⟩, hgroup⟩

theorem eq_or_mem_groupedNames {name : String}
    (hname : name ∈ groupedNames groups (entry :: rest)) :
    name = entry.1 ∨ name ∈ groupedNames groups rest := by
  obtain ⟨⟨given, hmem⟩, hgroup⟩ := hname
  rcases List.mem_cons.mp hmem with rfl | hmem
  · exact Or.inl rfl
  · exact Or.inr ⟨⟨given, hmem⟩, hgroup⟩

/-- A name outside the groups is no grouped one. -/
theorem groupedNames_cons_subset (hnone : groups.find? (entry.1 ∈ ·) = none) :
    groupedNames groups (entry :: rest) ⊆ groupedNames groups rest := by
  intro name hname
  rcases eq_or_mem_groupedNames hname with rfl | hrest
  · obtain ⟨-, group, hgroup, hmem⟩ := hname
    exact absurd hmem (not_grouped_iff.mp hnone group hgroup)
  · exact hrest

theorem ne_of_mem_groupedNames (hfresh : ∀ later ∈ rest, entry.1 ≠ later.1) {name : String}
    (hname : name ∈ groupedNames groups rest) : name ≠ entry.1 := by
  obtain ⟨⟨given, hmem⟩, -⟩ := hname
  exact (hfresh _ hmem).symm

theorem Matching.tail
    (hmatching : judge.Matching expected allowed groups (entry :: rest) slotOf) :
    judge.Matching expected allowed groups rest slotOf where
  admitted := fun later hlater => hmatching.admitted later (List.mem_cons_of_mem _ hlater)
  alone := fun later hlater => hmatching.alone later (List.mem_cons_of_mem _ hlater)
  placed := fun later hlater => hmatching.placed later (List.mem_cons_of_mem _ hlater)
  injective := hmatching.injective.mono groupedNames_subset_cons

/-- An answer outside the groups goes with any matching of the others. -/
theorem Matching.cons_alone (hmatching : judge.Matching expected allowed groups rest slotOf)
    (hnone : groups.find? (entry.1 ∈ ·) = none)
    (hmatches : judge.Matches expected allowed entry.2 entry.1) :
    judge.Matching expected allowed groups (entry :: rest) slotOf := by
  refine ⟨?_, ?_, ?_, hmatching.injective.mono (groupedNames_cons_subset hnone)⟩
  · exact List.forall_mem_cons.mpr ⟨hmatches.admitted, hmatching.admitted⟩
  · exact List.forall_mem_cons.mpr ⟨fun _ => hmatches, hmatching.alone⟩
  · refine List.forall_mem_cons.mpr ⟨?_, hmatching.placed⟩
    intro group hfirst
    rw [hnone] at hfirst
    exact absurd hfirst (by simp)

/-- An answer of a group takes a slot that the others leave free. -/
theorem Matching.cons_placed (hmatching : judge.Matching expected allowed groups rest slotOf)
    (hfresh : ∀ later ∈ rest, entry.1 ≠ later.1) {group : List String} {slot : String}
    (hfirst : groups.find? (entry.1 ∈ ·) = some group) (hslot : slot ∈ group)
    (hmatches : judge.Matches expected allowed entry.2 slot)
    (hfree : ∀ name ∈ groupedNames groups rest, slotOf name ≠ slot) :
    judge.Matching expected allowed groups (entry :: rest)
      (Function.update slotOf entry.1 slot) := by
  have hupdate : ∀ name, name ≠ entry.1 → Function.update slotOf entry.1 slot name = slotOf name :=
    fun name hne => Function.update_of_ne hne slot slotOf
  refine ⟨?_, ?_, ?_, ?_⟩
  · exact List.forall_mem_cons.mpr ⟨hmatches.admitted, hmatching.admitted⟩
  · refine List.forall_mem_cons.mpr ⟨?_, hmatching.alone⟩
    intro halone
    obtain ⟨hgroup, hmem⟩ := mem_of_first hfirst
    exact absurd hmem (halone group hgroup)
  · refine List.forall_mem_cons.mpr ⟨?_, ?_⟩
    · intro first hentryFirst
      obtain rfl := Option.some.inj (hfirst.symm.trans hentryFirst)
      rw [Function.update_self]
      exact ⟨hslot, hmatches⟩
    · intro later hlater first hlaterFirst
      rw [hupdate later.1 (hfresh later hlater).symm]
      exact hmatching.placed later hlater first hlaterFirst
  · intro name hname other hother heq
    rcases eq_or_mem_groupedNames hname with rfl | hname
    · rcases eq_or_mem_groupedNames hother with rfl | hother
      · rfl
      · rw [Function.update_self, hupdate other (ne_of_mem_groupedNames hfresh hother)] at heq
        exact absurd heq.symm (hfree other hother)
    · rw [hupdate name (ne_of_mem_groupedNames hfresh hname)] at heq
      rcases eq_or_mem_groupedNames hother with rfl | hother
      · rw [Function.update_self] at heq
        exact absurd heq (hfree name hname)
      · rw [hupdate other (ne_of_mem_groupedNames hfresh hother)] at heq
        exact hmatching.injective hname hother heq

/-- Answers that are accepted are matched to slots that were free before. -/
theorem exists_matching_of_acceptsFrom
    (hnames : entries.Pairwise fun first second => first.1 ≠ second.1)
    (haccepts : judge.acceptsFrom expected allowed groups entries taken = true) :
    ∃ slotOf, judge.Matching expected allowed groups entries slotOf ∧
      ∀ name ∈ groupedNames groups entries, slotOf name ∉ taken := by
  induction entries generalizing taken with
  | nil =>
      refine ⟨id, ⟨by simp, by simp, by simp, ?_⟩, ?_⟩
      · exact Set.injOn_id _
      · intro name hname
        obtain ⟨⟨given, hmem⟩, -⟩ := hname
        exact absurd hmem List.not_mem_nil
  | cons entry rest ih =>
      obtain ⟨hfresh, hrest⟩ := List.pairwise_cons.mp hnames
      rcases of_acceptsFrom_cons haccepts with ⟨hnone, hmatches, haccepts⟩ |
        ⟨group, slot, hfirst, hslot, hfree, hmatches, haccepts⟩
      · obtain ⟨slotOf, hmatching, hnot⟩ := ih hrest haccepts
        exact ⟨slotOf, hmatching.cons_alone hnone hmatches,
          fun name hname => hnot name (groupedNames_cons_subset hnone hname)⟩
      · obtain ⟨slotOf, hmatching, hnot⟩ := ih hrest haccepts
        have hother : ∀ name ∈ groupedNames groups rest, slotOf name ≠ slot := by
          intro name hname heq
          exact hnot name hname (heq ▸ List.mem_cons_self)
        refine ⟨_, hmatching.cons_placed hfresh hfirst hslot hmatches hother, ?_⟩
        intro name hname
        rcases eq_or_mem_groupedNames hname with rfl | hname
        · rw [Function.update_self]
          exact hfree
        · rw [Function.update_of_ne (ne_of_mem_groupedNames hfresh hname)]
          exact fun htaken => hnot name hname (List.mem_cons_of_mem _ htaken)

/-! ## A matching is accepted -/

theorem Matching.slotOf_ne (hmatching : judge.Matching expected allowed groups (entry :: rest) slotOf)
    (hfresh : ∀ later ∈ rest, entry.1 ≠ later.1) {group : List String}
    (hfirst : groups.find? (entry.1 ∈ ·) = some group) {name : String}
    (hname : name ∈ groupedNames groups rest) : slotOf name ≠ slotOf entry.1 := by
  intro heq
  exact ne_of_mem_groupedNames hfresh hname (hmatching.injective (groupedNames_subset_cons hname)
    (mem_groupedNames List.mem_cons_self hfirst) heq)

/-- The first answer may take another slot that it matches: the answer for which that slot was meant
gets the slot that was meant for the first one. -/
theorem Matching.exchange (hdisjoint : groups.Pairwise List.Disjoint)
    (hblocks : judge.InBlocks expected allowed groups (entry :: rest))
    (hmatching : judge.Matching expected allowed groups (entry :: rest) slotOf)
    (hfresh : ∀ later ∈ rest, entry.1 ≠ later.1) {group : List String} {found : String}
    (hfirst : groups.find? (entry.1 ∈ ·) = some group) (hfound : found ∈ group)
    (hmatches : judge.Matches expected allowed entry.2 found) :
    judge.Matching expected allowed groups rest
      (Equiv.swap found (slotOf entry.1) ∘ slotOf) := by
  obtain ⟨hmeant, hmeantMatches⟩ := hmatching.placed entry List.mem_cons_self group hfirst
  refine ⟨hmatching.tail.admitted, hmatching.tail.alone, ?_,
    (Equiv.injective _).comp_injOn hmatching.tail.injective⟩
  intro later hlater first hlaterFirst
  have hne := hmatching.slotOf_ne hfresh hfirst (mem_groupedNames hlater hlaterFirst)
  obtain ⟨hslot, hslotMatches⟩ := hmatching.tail.placed later hlater first hlaterFirst
  rw [Function.comp_apply]
  by_cases heq : slotOf later.1 = found
  · -- the two answers share a slot and so a group, and therefore match the same slots of it
    rw [heq, Equiv.swap_apply_left]
    rw [heq] at hslot hslotMatches
    obtain ⟨hgroup, hname⟩ := mem_of_first hfirst
    obtain ⟨hlaterGroup, hlaterName⟩ := mem_of_first hlaterFirst
    obtain rfl := eq_of_mem_groups hdisjoint hgroup hlaterGroup hfound hslot
    exact ⟨hmeant, hblocks group hgroup found hfound _ hmeant entry List.mem_cons_self hname later
      (List.mem_cons_of_mem _ hlater) hlaterName hmatches hmeantMatches hslotMatches⟩
  · rw [Equiv.swap_apply_of_ne_of_ne heq hne]
    exact ⟨hslot, hslotMatches⟩

theorem InBlocks.tail (hblocks : judge.InBlocks expected allowed groups (entry :: rest)) :
    judge.InBlocks expected allowed groups rest := by
  intro group hgroup slot hslot other hother first hfirst hname second hsecond
  exact hblocks group hgroup slot hslot other hother first (List.mem_cons_of_mem _ hfirst) hname
    second (List.mem_cons_of_mem _ hsecond)

/-- Answers are accepted if they can be matched to free slots. -/
theorem acceptsFrom_of_matching (hdisjoint : groups.Pairwise List.Disjoint)
    (hblocks : judge.InBlocks expected allowed groups entries)
    (hnames : entries.Pairwise fun first second => first.1 ≠ second.1)
    (hmatching : judge.Matching expected allowed groups entries slotOf)
    (hfree : ∀ name ∈ groupedNames groups entries, slotOf name ∉ taken) :
    judge.acceptsFrom expected allowed groups entries taken = true := by
  induction entries generalizing slotOf taken with
  | nil => rfl
  | cons entry rest ih =>
      obtain ⟨hfresh, hrest⟩ := List.pairwise_cons.mp hnames
      cases hfirst : groups.find? (entry.1 ∈ ·) with
      | none =>
          have hmatches := hmatching.alone entry List.mem_cons_self (not_grouped_iff.mp hfirst)
          rw [acceptsFrom_cons_alone hfirst hmatches]
          exact ih hblocks.tail hrest hmatching.tail
            fun name hname => hfree name (groupedNames_subset_cons hname)
      | some group =>
          obtain ⟨hmeant, hmatches⟩ := hmatching.placed entry List.mem_cons_self group hfirst
          have hmeantFree : slotOf entry.1 ∉ taken :=
            hfree entry.1 (mem_groupedNames List.mem_cons_self hfirst)
          obtain ⟨found, hfound, -, hfoundMatches, haccepts⟩ :=
            exists_acceptsFrom_cons rest hfirst hmeant hmeantFree hmatches
          rw [haccepts]
          refine ih hblocks.tail hrest
            (hmatching.exchange hdisjoint hblocks hfresh hfirst hfound hfoundMatches) ?_
          -- what the others are meant for now is neither the slot just taken nor an earlier one
          intro name hname
          have hne := hmatching.slotOf_ne hfresh hfirst hname
          rw [Function.comp_apply]
          by_cases heq : slotOf name = found
          · rw [heq, Equiv.swap_apply_left]
            exact List.not_mem_cons_of_ne_of_not_mem (heq ▸ hne.symm) hmeantFree
          · rw [Equiv.swap_apply_of_ne_of_ne heq hne]
            exact List.not_mem_cons_of_ne_of_not_mem heq
              (hfree name (groupedNames_subset_cons hname))

end accepts

end Judge

/-! ## No tolerance -/

/-- What an answer denotes: a special answer, a number, or else the expression itself. -/
def Answer.essence : Answer → SpecialAnswer ⊕ ℚ ⊕ Expr
  | .special kind => .inl kind
  | .value e =>
      match e.value? with
      | some q => .inr (.inl q)
      | none => .inr (.inr e)

namespace Judge

section exact

variable {judge : Judge} {expected : Slots Answer} {allowed : List SpecialAnswer}
  {groups : List (List String)}

theorem agree_eq_true_iff_eq (hexact : judge.tolerance = 0) {a b : ℚ} :
    judge.agree a b = true ↔ a = b := by
  simp only [agree, rat_abs_eq, hexact, zero_mul, Bool.or_self, decide_eq_true_eq, abs_nonpos_iff,
    sub_eq_zero]

/-- Without tolerance the answers that are right are those that denote the same. -/
theorem isRight_iff_essence_eq (hexact : judge.tolerance = 0) {given wanted : Answer} :
    judge.isRight given wanted = true ↔ given.essence = wanted.essence := by
  cases given with
  | special kind =>
      cases wanted with
      | special other => simp [isRight, Answer.essence]
      | value f => cases hf : f.value? <;> simp [isRight, Answer.essence, hf]
  | value e =>
      cases wanted with
      | special other => cases he : e.value? <;> simp [isRight, Answer.essence, he]
      | value f =>
          cases he : e.value? with
          | none =>
              cases hf : f.value? with
              | none => simp [isRight, Answer.essence, he, hf]
              | some b =>
                  have hne : e ≠ f := ne_of_apply_ne Expr.value? (by simp [he, hf])
                  simp [isRight, Answer.essence, he, hf, hne]
          | some a =>
              cases hf : f.value? with
              | none =>
                  have hne : e ≠ f := ne_of_apply_ne Expr.value? (by simp [he, hf])
                  simp [isRight, Answer.essence, he, hf, hne]
              | some b => simp [isRight, Answer.essence, he, hf, agree_eq_true_iff_eq hexact]

theorem inBlocks_of_exact (hexact : judge.tolerance = 0) (entries : List (String × GivenAnswer)) :
    judge.InBlocks expected allowed groups entries := by
  intro group _ slot _ other _ first _ _ second _ _ hslot hother hsecond
  obtain ⟨answer, wanted, hadmitted, hwanted, hright⟩ := hslot
  obtain ⟨answer', wanted', hadmitted', hwanted', hright'⟩ := hother
  obtain ⟨answer'', wanted'', hadmitted'', hwanted'', hright''⟩ := hsecond
  obtain rfl := Option.some.inj (hadmitted.symm.trans hadmitted')
  obtain rfl := Option.some.inj (hwanted.symm.trans hwanted'')
  rw [isRight_iff_essence_eq hexact] at hright hright' hright''
  refine ⟨answer'', wanted', hadmitted'', hwanted', (isRight_iff_essence_eq hexact).mpr ?_⟩
  exact hright''.trans (hright.symm.trans hright')

end exact

section accepts

variable {judge : Judge} {given : Slots GivenAnswer} {expected : Slots Answer}
  {allowed : List SpecialAnswer} {groups : List (List String)}

theorem exists_matching_of_accepts (haccepts : judge.accepts given expected allowed groups = true) :
    ∃ slotOf, judge.Matching expected allowed groups given.entries slotOf := by
  obtain ⟨slotOf, hmatching, -⟩ := exists_matching_of_acceptsFrom given.pairwise_ne haccepts
  exact ⟨slotOf, hmatching⟩

theorem accepts_of_matching (hdisjoint : groups.Pairwise List.Disjoint)
    (hblocks : judge.InBlocks expected allowed groups given.entries) {slotOf : String → String}
    (hmatching : judge.Matching expected allowed groups given.entries slotOf) :
    judge.accepts given expected allowed groups = true :=
  acceptsFrom_of_matching hdisjoint hblocks given.pairwise_ne hmatching
    fun _ _ => List.not_mem_nil

end accepts

/-- Answers that are accepted are let through, those outside the groups match their own slots, and
the others can be matched, without using a slot twice, to slots of the first group with their name.
Without tolerance and with disjoint groups, such answers are accepted. -/
theorem accepts_matching (judge : Judge) (given : Slots GivenAnswer) (expected : Slots Answer)
    (allowed : List SpecialAnswer) (groups : List (List String)) :
    (judge.accepts given expected allowed groups = true →
      ∃ slotOf, judge.Matching expected allowed groups given.entries slotOf) ∧
    (judge.tolerance = 0 → groups.Pairwise List.Disjoint →
      (∃ slotOf, judge.Matching expected allowed groups given.entries slotOf) →
      judge.accepts given expected allowed groups = true) := by
  refine ⟨exists_matching_of_accepts, ?_⟩
  intro hexact hdisjoint hexists
  obtain ⟨slotOf, hmatching⟩ := hexists
  exact accepts_of_matching hdisjoint (inBlocks_of_exact hexact _) hmatching

theorem accepts_matching_crosswise :
    let judge := Exercise.standardJudge.withTolerance 0
    let expected : Slots Answer := ⟨[("x1", .value (.number 1)), ("x2", .value (.number 2)),
      ("y", .value (.number 3))], by decide +kernel⟩
    let given : Slots GivenAnswer := ⟨[("x1", .typed "2"), ("x2", .typed "1"), ("y", .typed "3")],
      by decide +kernel⟩
    judge.tolerance = 0 ∧ [["x1", "x2"]].Pairwise List.Disjoint ∧
      judge.Matching expected [] [["x1", "x2"]] given.entries (Equiv.swap "x1" "x2") ∧
      judge.accepts given expected [] [["x1", "x2"]] = true := by
  intro judge expected given
  have hdisjoint : [["x1", "x2"]].Pairwise List.Disjoint := List.pairwise_singleton _ _
  have hmatches : judge.Matches expected [] (.typed "2") "x2" ∧
      judge.Matches expected [] (.typed "1") "x1" ∧ judge.Matches expected [] (.typed "3") "y" := by
    decide +kernel
  obtain ⟨hx1, hx2, hy⟩ := hmatches
  have hmatching : judge.Matching expected [] [["x1", "x2"]] given.entries
      (Equiv.swap "x1" "x2") := by
    refine ⟨?_, ?_, ?_, (Equiv.injective _).injOn⟩
    · simpa [given] using ⟨hx1.admitted, hx2.admitted, hy.admitted⟩
    · simpa [given] using hy
    · simpa [given, List.find?_cons] using ⟨hx1, hx2⟩
  exact ⟨rfl, hdisjoint, hmatching,
    (accepts_matching judge given expected [] _).2 rfl hdisjoint ⟨_, hmatching⟩⟩

end Judge

end EquationPractice
