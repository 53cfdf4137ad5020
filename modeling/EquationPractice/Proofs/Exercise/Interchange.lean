import EquationPractice.Proofs.Exercise.Matching

/-!
# Answers that change places

The answers of a group may be given in any order, so it should not matter which of them is given
under which name.  It does not as long as the answers fall into blocks, `Judge.InBlocks`: then
answers are accepted exactly if they can be matched to slots, and a matching does not depend on the
names within a group.

With a tolerance the answers need not fall into blocks.  An answer may match two slots of its group,
where another one matches only the first of them; if the former takes that slot, because it is its
own, the latter is left without one.
-/

namespace EquationPractice

theorem swap_mem_iff {x y name : String} {names : List String} (hsame : x ∈ names ↔ y ∈ names) :
    Equiv.swap x y name ∈ names ↔ name ∈ names := by
  by_cases hx : name = x
  · rw [hx, Equiv.swap_apply_left]
    exact hsame.symm
  · by_cases hy : name = y
    · rw [hy, Equiv.swap_apply_right]
      exact hsame
    · rw [Equiv.swap_apply_of_ne_of_ne hx hy]

/-! ## Swapping two slots -/

namespace Slots

variable {α : Type} {slots : Slots α} {x y name : String} {value : α}

/-- The slots with the values of two of them swapped. -/
def swap (slots : Slots α) (x y : String) : Slots α :=
  slots.map fun name value => (slots.get? (Equiv.swap x y name)).getD value

theorem mem_names_iff : name ∈ slots.names ↔ ∃ value, (name, value) ∈ slots.entries := by
  simp [names]

theorem get?_eq_some_iff : slots.get? name = some value ↔ (name, value) ∈ slots.entries := by
  rw [get?, List.lookup_eq_some_iff]
  constructor
  · intro hsplit
    obtain ⟨before, after, heq, -⟩ := hsplit
    rw [heq]
    exact List.mem_append_right before List.mem_cons_self
  · intro hmem
    obtain ⟨before, after, heq⟩ := List.append_of_mem hmem
    refine ⟨before, after, heq, ?_⟩
    intro entry hentry
    have hne := slots.pairwise_ne
    rw [heq, List.pairwise_append] at hne
    exact bne_iff_ne.mpr (hne.2.2 entry hentry (name, value) List.mem_cons_self).symm

theorem mem_entries_swap (hx : x ∈ slots.names) (hy : y ∈ slots.names) :
    (name, value) ∈ (slots.swap x y).entries ↔ (Equiv.swap x y name, value) ∈ slots.entries := by
  have hnames : Equiv.swap x y name ∈ slots.names ↔ name ∈ slots.names :=
    swap_mem_iff (iff_of_true hx hy)
  simp only [mem_names_iff] at hnames
  rw [swap, map, List.mem_map]
  constructor
  · intro hmem
    obtain ⟨entry, hentry, heq⟩ := hmem
    obtain ⟨rfl, rfl⟩ := Prod.mk.inj heq
    obtain ⟨other, hother⟩ := hnames.mpr ⟨entry.2, hentry⟩
    rw [get?_eq_some_iff.mpr hother]
    exact hother
  · intro hmem
    obtain ⟨old, hold⟩ := hnames.mp ⟨value, hmem⟩
    refine ⟨(name, old), hold, ?_⟩
    rw [get?_eq_some_iff.mpr hmem, Option.getD_some]

end Slots

namespace Judge

/-! ## Renaming within groups -/

/-- The renaming takes no name out of its group, and changes only names in groups. -/
structure KeepsGroups (groups : List (List String)) (σ : Equiv.Perm String) : Prop where
  mem_iff : ∀ group ∈ groups, ∀ name, σ name ∈ group ↔ name ∈ group
  fixed : ∀ name, (∀ group ∈ groups, name ∉ group) → σ name = name

section rename

variable {judge : Judge} {expected : Slots Answer} {allowed : List SpecialAnswer}
  {groups : List (List String)} {σ : Equiv.Perm String}
  {entries renamed : List (String × GivenAnswer)} {slotOf : String → String}

theorem keepsGroups_swap (hdisjoint : groups.Pairwise List.Disjoint) {group : List String}
    (hgroup : group ∈ groups) {x y : String} (hx : x ∈ group) (hy : y ∈ group) :
    KeepsGroups groups (Equiv.swap x y) where
  mem_iff := by
    intro other hother name
    refine swap_mem_iff ⟨?_, ?_⟩
    · intro hxother
      exact eq_of_mem_groups hdisjoint hgroup hother hx hxother ▸ hy
    · intro hyother
      exact eq_of_mem_groups hdisjoint hgroup hother hy hyother ▸ hx
  fixed := by
    intro name hnot
    apply Equiv.swap_apply_of_ne_of_ne
    · rintro rfl
      exact hnot group hgroup hx
    · rintro rfl
      exact hnot group hgroup hy

theorem KeepsGroups.first_eq (hkeeps : KeepsGroups groups σ) (name : String) :
    groups.find? (σ name ∈ ·) = groups.find? (name ∈ ·) := by
  apply List.find?_congr
  intro group hgroup
  exact decide_eq_decide.mpr (hkeeps.mem_iff group hgroup name)

/-- A matching goes with the renaming. -/
theorem Matching.rename (hkeeps : KeepsGroups groups σ)
    (hrenamed : ∀ name given, (name, given) ∈ renamed ↔ (σ name, given) ∈ entries)
    (hmatching : judge.Matching expected allowed groups entries slotOf) :
    judge.Matching expected allowed groups renamed (slotOf ∘ σ) where
  admitted := fun entry hentry =>
    hmatching.admitted (σ entry.1, entry.2) ((hrenamed _ _).mp hentry)
  alone := by
    intro entry hentry hnot
    have halone := hmatching.alone _ ((hrenamed _ _).mp hentry)
    rw [hkeeps.fixed entry.1 hnot] at halone
    exact halone hnot
  placed := by
    intro entry hentry group hfirst
    refine hmatching.placed _ ((hrenamed _ _).mp hentry) group ?_
    rw [hkeeps.first_eq, hfirst]
  injective := by
    refine hmatching.injective.comp σ.injective.injOn ?_
    intro name hname
    obtain ⟨⟨given, hgiven⟩, group, hgroup, hmem⟩ := hname
    exact ⟨⟨given, (hrenamed name given).mp hgiven⟩, group, hgroup,
      (hkeeps.mem_iff group hgroup name).mpr hmem⟩

theorem InBlocks.rename (hkeeps : KeepsGroups groups σ)
    (hrenamed : ∀ name given, (name, given) ∈ renamed ↔ (σ name, given) ∈ entries)
    (hblocks : judge.InBlocks expected allowed groups entries) :
    judge.InBlocks expected allowed groups renamed := by
  intro group hgroup slot hslot other hother first hfirst hname second hsecond hname'
  have hmem := hkeeps.mem_iff group hgroup
  exact hblocks group hgroup slot hslot other hother
    (σ first.1, first.2) ((hrenamed _ _).mp hfirst) ((hmem first.1).mpr hname)
    (σ second.1, second.2) ((hrenamed _ _).mp hsecond) ((hmem second.1).mpr hname')

end rename

/-- Two names of a group may swap their answers, if the answers fall into blocks. -/
theorem accepts_swap (judge : Judge) (given : Slots GivenAnswer) (expected : Slots Answer)
    (allowed : List SpecialAnswer) (groups : List (List String))
    (hdisjoint : groups.Pairwise List.Disjoint)
    (hblocks : judge.InBlocks expected allowed groups given.entries) {group : List String}
    (hgroup : group ∈ groups) {x y : String} (hx : x ∈ group) (hy : y ∈ group)
    (hgivenx : x ∈ given.names) (hgiveny : y ∈ given.names) :
    judge.accepts (given.swap x y) expected allowed groups =
      judge.accepts given expected allowed groups := by
  have hkeeps := keepsGroups_swap hdisjoint hgroup hx hy
  have hswapped : ∀ name answer, (name, answer) ∈ (given.swap x y).entries ↔
      (Equiv.swap x y name, answer) ∈ given.entries :=
    fun _ _ => Slots.mem_entries_swap hgivenx hgiveny
  have hback : ∀ name answer, (name, answer) ∈ given.entries ↔
      (Equiv.swap x y name, answer) ∈ (given.swap x y).entries := by
    intro name answer
    rw [hswapped, Equiv.swap_apply_self]
  rw [Bool.eq_iff_iff]
  constructor
  · intro haccepts
    obtain ⟨slotOf, hmatching⟩ := exists_matching_of_accepts haccepts
    exact accepts_of_matching hdisjoint hblocks (hmatching.rename hkeeps hback)
  · intro haccepts
    obtain ⟨slotOf, hmatching⟩ := exists_matching_of_accepts haccepts
    exact accepts_of_matching hdisjoint (hblocks.rename hkeeps hswapped)
      (hmatching.rename hkeeps hswapped)

theorem accepts_swap_opposite_roots :
    let expected : Slots Answer :=
      ⟨[("x1", .value (.number 2)), ("x2", .value (.number (-2)))], by decide +kernel⟩
    let given : Slots GivenAnswer := ⟨[("x1", .typed "1.999"), ("x2", .typed "-2")],
      by decide +kernel⟩
    [["x1", "x2"]].Pairwise List.Disjoint ∧
      Exercise.standardJudge.InBlocks expected [] [["x1", "x2"]] given.entries ∧
      Exercise.standardJudge.accepts (given.swap "x1" "x2") expected [] [["x1", "x2"]] = true := by
  intro expected given
  have hdisjoint : [["x1", "x2"]].Pairwise List.Disjoint := List.pairwise_singleton _ _
  have hblocks : Exercise.standardJudge.InBlocks expected [] [["x1", "x2"]] given.entries := by
    decide +kernel
  have haccepts : Exercise.standardJudge.accepts given expected [] [["x1", "x2"]] = true := by
    decide +kernel
  refine ⟨hdisjoint, hblocks, ?_⟩
  rw [accepts_swap _ given expected [] _ hdisjoint hblocks List.mem_cons_self (x := "x1")
    (y := "x2") (by decide) (by decide) (by decide) (by decide)]
  exact haccepts

/-- Accepted answers may be refused after a swap.  The answer 2002 is right for the slot of 2000 and
for that of 2003, and 2000 only for the former. -/
theorem not_accepts_swap_of_accepts :
    ¬ ∀ (judge : Judge) (given : Slots GivenAnswer) (expected : Slots Answer)
      (allowed : List SpecialAnswer) (groups : List (List String)),
      groups.Pairwise List.Disjoint → ∀ group ∈ groups, ∀ x ∈ group, ∀ y ∈ group,
      x ∈ expected.names → y ∈ expected.names → x ∈ given.names → y ∈ given.names →
      judge.accepts given expected allowed groups = true →
      judge.accepts (given.swap x y) expected allowed groups = true := by
  intro hswap
  have hrefused := hswap Exercise.standardJudge
    ⟨[("x1", .typed "2000"), ("x2", .typed "2002")], by decide +kernel⟩
    ⟨[("x1", .value (.number 2000)), ("x2", .value (.number 2003))], by decide +kernel⟩
    [] [["x1", "x2"]] (List.pairwise_singleton _ _) _ List.mem_cons_self "x1" (by decide) "x2"
    (by decide) (by decide) (by decide) (by decide) (by decide) (by decide +kernel)
  exact absurd hrefused (by decide +kernel)

end Judge

end EquationPractice
