import EquationPractice.Proofs.Exercise.Interchange
import Mathlib.Data.Set.Finite.Lemmas

/-!
# The same special answer everywhere

Pressing a button gives one special answer for all slots at once.  That is right exactly when this
special answer is allowed and expected in every slot, also where slots are interchangeable.

## Strategy

In a group, a wrong slot could hide behind a right one: its answer may take another slot of the
group.  But no slot is taken twice, and whatever is taken is itself a slot of some group that an
answer was given for.  So the grouped names are mapped into themselves, without repetition, and as
there are finitely many of them every one of them is taken.  What is taken expects the special
answer.
-/

namespace EquationPractice

namespace Judge

variable {judge : Judge} {expected : Slots Answer} {allowed : List SpecialAnswer}
  {groups : List (List String)} {kind : SpecialAnswer} {name slot : String}

/-! ## One pressed answer -/

theorem letThrough?_pressed : judge.letThrough? allowed (.pressed kind) =
    if kind ∈ allowed then some (.special kind) else none := rfl

/-- Only the same special answer is right for a special answer. -/
theorem isRight_special {wanted : Answer} :
    judge.isRight (.special kind) wanted = true ↔ wanted = .special kind := by
  cases wanted with
  | value e => simp [isRight]
  | special other =>
      rw [isRight, beq_iff_eq, Answer.special.injEq]
      exact eq_comm

theorem matches_pressed : judge.Matches expected allowed (.pressed kind) slot ↔
    kind ∈ allowed ∧ expected.get? slot = some (.special kind) := by
  by_cases hallowed : kind ∈ allowed
  · simp only [Matches, letThrough?_pressed, hallowed, if_true, Option.some.injEq, true_and,
      exists_and_left, exists_eq_left', isRight_special, exists_eq_right]
  · simp [Matches, letThrough?_pressed, hallowed]

/-! ## Answers to their own slots -/

/-- An answer that matches its own slot takes it, if it is free. -/
theorem slotFor?_own {answer : Answer} {group taken : List String} (hfree : name ∉ taken)
    (hfits : judge.fits expected answer name = true) :
    judge.slotFor? expected answer name group taken = some name := by
  rw [slotFor?, List.find?_cons_of_pos]
  simp [hfree, hfits]

/-- Answers that all match their own slots are accepted, whatever the groups are. -/
theorem acceptsFrom_of_own {entries : List (String × GivenAnswer)} {taken : List String}
    (hnames : entries.Pairwise fun first second => first.1 ≠ second.1)
    (hfree : ∀ entry ∈ entries, entry.1 ∉ taken)
    (hown : ∀ entry ∈ entries, judge.Matches expected allowed entry.2 entry.1) :
    judge.acceptsFrom expected allowed groups entries taken = true := by
  induction entries generalizing taken with
  | nil => rfl
  | cons entry rest ih =>
      obtain ⟨hfresh, hrest⟩ := List.pairwise_cons.mp hnames
      have hfreeRest : ∀ later ∈ rest, later.1 ∉ taken :=
        fun later hlater => hfree later (List.mem_cons_of_mem _ hlater)
      have hownRest : ∀ later ∈ rest, judge.Matches expected allowed later.2 later.1 :=
        fun later hlater => hown later (List.mem_cons_of_mem _ hlater)
      obtain ⟨answer, wanted, hadmitted, hwanted⟩ := hown entry List.mem_cons_self
      have hfits : judge.fits expected answer entry.1 = true := fits_iff.mpr ⟨wanted, hwanted⟩
      refine acceptsFrom_cons_iff.mpr ⟨answer, hadmitted, ?_⟩
      cases hfirst : groups.find? (entry.1 ∈ ·) with
      | none => exact Or.inl ⟨rfl, hfits, ih hrest hfreeRest hownRest⟩
      | some group =>
          have hslot : judge.slotFor? expected answer entry.1 group taken = some entry.1 :=
            slotFor?_own (hfree entry List.mem_cons_self) hfits
          refine Or.inr ⟨group, entry.1, rfl, hslot, ih hrest ?_ hownRest⟩
          -- the slot just taken is none of those that come later
          intro later hlater
          exact List.not_mem_cons_of_ne_of_not_mem (hfresh later hlater).symm
            (hfreeRest later hlater)

/-! ## The same answer for all slots -/

theorem mem_pressed {given : GivenAnswer} : (name, given) ∈ (pressed expected kind).entries ↔
    given = .pressed kind ∧ name ∈ expected.names := by
  simp only [pressed, Slots.map, Slots.names, List.mem_map, Prod.mk.injEq]
  constructor
  · intro hmem
    obtain ⟨entry, hentry, rfl, rfl⟩ := hmem
    exact ⟨rfl, entry, hentry, rfl⟩
  · intro hmem
    obtain ⟨rfl, entry, hentry, rfl⟩ := hmem
    exact ⟨entry, hentry, rfl, rfl⟩

theorem finite_groupedNames (entries : List (String × GivenAnswer)) :
    (groupedNames groups entries).Finite := by
  refine (entries.map Prod.fst).finite_toSet.subset ?_
  intro name hname
  obtain ⟨⟨given, hmem⟩, -⟩ := hname
  exact List.mem_map_of_mem (f := Prod.fst) hmem

/-- If the same special answer is accepted everywhere, every slot expects it. -/
theorem expects_of_matching {slotOf : String → String}
    (hmatching : judge.Matching expected allowed groups (pressed expected kind).entries slotOf)
    (hname : name ∈ expected.names) :
    kind ∈ allowed ∧ expected.get? name = some (.special kind) := by
  have hentry : (name, .pressed kind) ∈ (pressed expected kind).entries :=
    mem_pressed.mpr ⟨rfl, hname⟩
  by_cases hgrouped : ∃ group ∈ groups, name ∈ group
  · -- what a grouped answer takes is expected, so an answer was given for it
    have hplaced : ∀ other ∈ groupedNames groups (pressed expected kind).entries,
        (∃ group ∈ groups, slotOf other ∈ group) ∧ kind ∈ allowed ∧
          expected.get? (slotOf other) = some (.special kind) := by
      intro other hother
      obtain ⟨⟨given, hmem⟩, group, hgroup, hmemGroup⟩ := hother
      obtain ⟨rfl, -⟩ := mem_pressed.mp hmem
      obtain ⟨first, hfirst⟩ : ∃ first, groups.find? (other ∈ ·) = some first := by
        rw [← Option.isSome_iff_exists, List.find?_isSome]
        exact ⟨group, hgroup, by simpa using hmemGroup⟩
      obtain ⟨hslot, hmatches⟩ := hmatching.placed _ hmem first hfirst
      exact ⟨⟨first, (mem_of_first hfirst).1, hslot⟩, matches_pressed.mp hmatches⟩
    have hmaps : Set.MapsTo slotOf (groupedNames groups (pressed expected kind).entries)
        (groupedNames groups (pressed expected kind).entries) := by
      intro other hother
      obtain ⟨hgroup, -, hwanted⟩ := hplaced other hother
      have hexpected : slotOf other ∈ expected.names :=
        Slots.mem_names_iff.mpr ⟨_, Slots.get?_eq_some_iff.mp hwanted⟩
      exact ⟨⟨_, mem_pressed.mpr ⟨rfl, hexpected⟩⟩, hgroup⟩
    -- a finite set that is mapped into itself without repetition is covered
    have hcovers : Set.SurjOn slotOf (groupedNames groups (pressed expected kind).entries)
        (groupedNames groups (pressed expected kind).entries) :=
      (((finite_groupedNames _).injOn_iff_bijOn_of_mapsTo hmaps).mp hmatching.injective).surjOn
    obtain ⟨other, hother, rfl⟩ := hcovers ⟨⟨_, hentry⟩, hgrouped⟩
    exact (hplaced other hother).2
  · have hnone : ∀ group ∈ groups, name ∉ group :=
      fun group hgroup hmem => hgrouped ⟨group, hgroup, hmem⟩
    exact matches_pressed.mp (hmatching.alone _ hentry hnone)

/-- A special answer pressed for all slots is right exactly when there is no slot at all, or when it
is allowed and every slot expects it.  The groups do not matter: they may overlap, repeat names and
hold names without a slot. -/
theorem accepts_pressed_iff (judge : Judge) (expected : Slots Answer)
    (allowed : List SpecialAnswer) (groups : List (List String)) (kind : SpecialAnswer) :
    judge.accepts (pressed expected kind) expected allowed groups = true ↔
      expected.entries = [] ∨
        kind ∈ allowed ∧ ∀ entry ∈ expected.entries, entry.2 = .special kind := by
  constructor
  · intro haccepts
    obtain ⟨slotOf, hmatching⟩ := exists_matching_of_accepts haccepts
    have hexpects : ∀ entry ∈ expected.entries, kind ∈ allowed ∧ entry.2 = .special kind := by
      intro entry hentry
      obtain ⟨hallowed, hwanted⟩ :=
        expects_of_matching hmatching (Slots.mem_names_iff.mpr ⟨entry.2, hentry⟩)
      rw [Slots.get?_eq_some_iff.mpr hentry] at hwanted
      exact ⟨hallowed, Option.some.inj hwanted⟩
    cases hentries : expected.entries with
    | nil => exact Or.inl rfl
    | cons first rest =>
        rw [hentries] at hexpects
        exact Or.inr ⟨(hexpects first List.mem_cons_self).1, fun entry hentry =>
          (hexpects entry hentry).2⟩
  · intro hright
    refine acceptsFrom_of_own (pressed expected kind).pairwise_ne (fun _ _ => List.not_mem_nil) ?_
    intro entry hentry
    obtain ⟨hgiven, hname⟩ := mem_pressed.mp hentry
    obtain ⟨wanted, hwanted⟩ := Slots.mem_names_iff.mp hname
    rcases hright with hempty | ⟨hallowed, hall⟩
    · rw [hempty] at hwanted
      exact absurd hwanted List.not_mem_nil
    · obtain rfl := hall _ hwanted
      rw [hgiven]
      exact matches_pressed.mpr ⟨hallowed, Slots.get?_eq_some_iff.mpr hwanted⟩

end Judge

end EquationPractice
