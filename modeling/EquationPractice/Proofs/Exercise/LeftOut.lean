import EquationPractice.Proofs.Exercise.Matching

/-!
# Answers that are left out

Whoever leaves out some answers is judged by the others alone.  A slot that a missing answer would
have taken is then free, so a later answer of the group may take it in place of the slot that it took
before, and the two courses of judging part.

## Strategy

Both courses are followed side by side, and the slots taken without the missing answers are always
among those taken with them.  Where an answer finds less taken, it takes the slot that it took
before, or an earlier one that was taken before already (`slotFor?_of_subset`); in both cases what is
taken stays within what was taken before.  Nothing is asked of the answers that match a common slot
and nothing of the groups, so it does not matter what is tolerated or whether groups overlap.
-/

namespace EquationPractice

/-- Slots among others stand in the same order. -/
theorem Slots.sublist_of_subset {α : Type} {kept slots : Slots α}
    (hkept : kept.entries ⊆ slots.entries) : kept.entries.Sublist slots.entries := by
  have hdistinct : kept.entries.Nodup :=
    kept.pairwise_ne.imp fun hne heq => hne (congrArg Prod.fst heq)
  refine List.sublist_of_subperm_of_pairwise (r := fun first second => first.1 < second.1) ?_
    kept.increasing slots.increasing
  exact List.subperm_of_subset hdistinct hkept

namespace Judge

variable {judge : Judge} {expected : Slots Answer} {allowed : List SpecialAnswer}
  {groups : List (List String)} {fewer taken : List String}

/-- With fewer slots taken, an answer takes the same slot or one that is taken otherwise. -/
theorem slotFor?_of_subset {answer : Answer} {name slot : String} {group : List String}
    (hfewer : fewer ⊆ taken)
    (hslot : judge.slotFor? expected answer name group taken = some slot) :
    ∃ found ∈ slot :: taken, judge.slotFor? expected answer name group fewer = some found := by
  rw [slotFor?, List.find?_eq_some_iff_append] at hslot
  obtain ⟨hpasses, before, after, hsplit, hskipped⟩ := hslot
  simp only [Bool.and_eq_true, decide_eq_true_eq] at hpasses
  obtain ⟨hfree, hfits⟩ := hpasses
  have hfreeStill : slot ∉ fewer := fun hmem => hfree (hfewer hmem)
  rw [slotFor?, hsplit, List.find?_append]
  cases hearlier : before.find? (fun slot => slot ∉ fewer && judge.fits expected answer slot) with
  | none =>
      refine ⟨slot, List.mem_cons_self, ?_⟩
      rw [Option.none_or, List.find?_cons_of_pos]
      simp [hfreeStill, hfits]
  | some found =>
      -- it fits, so it was passed over because it was taken
      have hfitsEarlier := List.find?_some hearlier
      have hpassed := hskipped found (List.mem_of_find?_eq_some hearlier)
      simp only [Bool.and_eq_true, decide_eq_true_eq] at hfitsEarlier
      simp only [hfitsEarlier.2, Bool.and_true, Bool.not_eq_eq_eq_not, Bool.not_true,
        decide_eq_false_iff_not, not_not] at hpassed
      exact ⟨found, List.mem_cons_of_mem _ hpassed, rfl⟩

/-- Answers that are accepted are accepted without some of them, and with fewer slots taken. -/
theorem acceptsFrom_of_sublist {kept entries : List (String × GivenAnswer)}
    (hkept : kept.Sublist entries) (hfewer : fewer ⊆ taken)
    (haccepts : judge.acceptsFrom expected allowed groups entries taken = true) :
    judge.acceptsFrom expected allowed groups kept fewer = true := by
  induction hkept generalizing fewer taken with
  | slnil => rfl
  | cons entry hkept ih =>
      rcases of_acceptsFrom_cons haccepts with ⟨-, -, hrest⟩ | ⟨-, slot, -, -, -, -, hrest⟩
      · exact ih hfewer hrest
      · exact ih (List.subset_cons_of_subset slot hfewer) hrest
  | cons_cons entry hkept ih =>
      rw [acceptsFrom_cons_iff] at haccepts ⊢
      obtain ⟨answer, hadmitted, hplace⟩ := haccepts
      refine ⟨answer, hadmitted, ?_⟩
      rcases hplace with ⟨hnone, hfits, hrest⟩ | ⟨group, slot, hfirst, hslot, hrest⟩
      · exact Or.inl ⟨hnone, hfits, ih hfewer hrest⟩
      · obtain ⟨found, hfound, hslotFewer⟩ := slotFor?_of_subset hfewer hslot
        have hstill : found :: fewer ⊆ slot :: taken :=
          List.cons_subset.mpr ⟨hfound, List.subset_cons_of_subset slot hfewer⟩
        exact Or.inr ⟨group, found, hfirst, hslotFewer, ih hstill hrest⟩

/-- Answers that are accepted together are accepted when some of them are left out, whatever is
tolerated and also in groups that overlap. -/
theorem accepts_of_subset (judge : Judge) (given kept : Slots GivenAnswer) (expected : Slots Answer)
    (allowed : List SpecialAnswer) (groups : List (List String))
    (hkept : kept.entries ⊆ given.entries)
    (haccepts : judge.accepts given expected allowed groups = true) :
    judge.accepts kept expected allowed groups = true :=
  acceptsFrom_of_sublist (Slots.sublist_of_subset hkept) (List.Subset.refl []) haccepts

/-- With all three answers, the one for `a` takes the slot `b` and the one for `b` the slot `c`.
Without the first, the one for `b` takes its own slot. -/
theorem accepts_of_subset_shifted :
    let expected : Slots Answer := ⟨[("a", .value (.number 1)), ("b", .value (.number 2)),
      ("c", .value (.number 2))], by decide +kernel⟩
    let given : Slots GivenAnswer := ⟨[("a", .typed "2"), ("b", .typed "1.999"), ("c", .typed "1")],
      by decide +kernel⟩
    let kept : Slots GivenAnswer := ⟨[("b", .typed "1.999"), ("c", .typed "1")],
      by decide +kernel⟩
    let groups := [["a", "b", "c"], ["b", "c"]]
    kept.entries ⊆ given.entries ∧
      Exercise.standardJudge.accepts given expected [] groups = true ∧
      Exercise.standardJudge.accepts kept expected [] groups = true := by
  intro expected given kept groups
  have hkept : kept.entries ⊆ given.entries := List.subset_cons_self _ _
  have haccepts : Exercise.standardJudge.accepts given expected [] groups = true := by
    decide +kernel
  exact ⟨hkept, haccepts, accepts_of_subset _ given kept expected [] groups hkept haccepts⟩

end Judge

end EquationPractice
