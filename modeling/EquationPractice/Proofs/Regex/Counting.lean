import EquationPractice.Proofs.Regex.Replacing

/-!
# Counting matches

The matches of a text are counted from left to right, part by part, in the same steps in which they
are replaced.  Which match is preferred at a place matters only for where the count goes on.

## Main definitions

* `Regex.Counts`: how many matches the search finds from a place on.
-/

namespace EquationPractice

namespace Regex

variable {r : Regex} {shape : Shape} {before rest taken after text : List Char} {n : Nat} {c : Char}

/-- With `before` gone through, the search finds `n` matches in `rest`. -/
def Counts (r : Regex) (before rest : List Char) (n : Nat) : Prop :=
  ∀ fuel last, rest.length < fuel →
    (r.spansFrom (before ++ rest) fuel before.length last).length = n

theorem Counts.count (hcount : r.Counts [] text n) : r.count text = n :=
  hcount (text.length + 2) none (by omega)

theorem Counts.nil (hspan : r.spanAt? before before.length = none) : r.Counts before [] 0 := by
  intro fuel last _
  rw [List.append_nil, spansFrom_at_end hspan]
  rfl

/-- Where no match begins, the search goes on behind the next character. -/
theorem Counts.skip (hspan : r.spanAt? (before ++ c :: rest) before.length = none)
    (hcount : r.Counts (before ++ [c]) rest n) : r.Counts before (c :: rest) n := by
  intro fuel last hfuel
  have hnext := hcount fuel last (by rw [List.length_cons] at hfuel; omega)
  rw [List.append_assoc, List.singleton_append, List.length_append, List.length_singleton] at hnext
  rwa [spansFrom_of_none (by simp) hspan]

/-- Where a match begins, the search goes on behind it. -/
theorem Counts.take (hne : taken ≠ []) (hspan : r.spanAt? (before ++ (taken ++ rest))
      before.length = some ⟨before.length, before.length + taken.length, []⟩)
    (hcount : r.Counts (before ++ taken) rest n) : r.Counts before (taken ++ rest) (n + 1) := by
  intro fuel last hfuel
  have hpos := List.length_pos_iff.mpr hne
  rw [List.length_append] at hfuel
  obtain ⟨less, rfl⟩ := Nat.exists_eq_succ_of_ne_zero (show fuel ≠ 0 by omega)
  have hnext := hcount less (some (before.length + taken.length)) (by omega)
  rw [List.append_assoc, List.length_append] at hnext
  rw [spansFrom_of_some (by simp) hspan (by simp [hne]), List.length_cons, hnext]

/-- Where nothing can be taken for a while, the search goes on behind all of that. -/
theorem Counts.skipAll (hr : r.HasShape shape) (hnone : shape.IsAbsent before taken rest)
    (hcount : r.Counts (before ++ taken) rest n) : r.Counts before (taken ++ rest) n := by
  induction taken generalizing before with
  | nil => simpa using hcount
  | cons c more ih =>
      exact Counts.skip (hr.spanAt?_eq_none hnone.head) (ih hnone.tail (by simpa using hcount))

end Regex

end EquationPractice
