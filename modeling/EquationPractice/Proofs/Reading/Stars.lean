import EquationPractice.Exercise.Basic
import EquationPractice.Proofs.Reading.Layers

/-!
# Texts without stars

A star may be left out between two factors as long as no factor starts with a sign and no two of them
are literals, which would become one.

## Main definitions

* `starsRedundant`: whether no star is needed before a sign or between two literals.
* `Parted`: a text in which no star is needed, and there are no gaps.
-/

namespace EquationPractice

open Text

/-! ## Leaving out the stars -/

section Starless

variable {cs ds : List Char} {c : Char}

@[simp] theorem starless_nil : starless [] = [] := rfl

@[simp] theorem starless_star : starless ('*' :: cs) = starless cs := rfl

theorem starless_cons (hc : c ≠ '*') : starless (c :: cs) = c :: starless cs :=
  List.filter_cons_of_pos (by simpa using hc)

@[simp] theorem starless_append : starless (cs ++ ds) = starless cs ++ starless ds :=
  List.filter_append ..

theorem starless_flatMap {α : Type} (f : α → List Char) (items : List α) :
    starless (items.flatMap f) = items.flatMap fun item => starless (f item) :=
  List.filter_flatMap

theorem starless_sublist (cs : List Char) : (starless cs).Sublist cs :=
  List.filter_sublist

theorem star_notMem_starless (cs : List Char) : '*' ∉ starless cs := by
  simp [starless]

theorem starless_eq_self (hnone : '*' ∉ cs) : starless cs = cs := by
  refine List.filter_eq_self.mpr fun c hc => ?_
  rw [bne_iff_ne]
  rintro rfl
  exact hnone hc

/-- What stands in front stays there, unless it is a star. -/
theorem headFree_starless {p : Char → Bool} (hstar : HeadFree (· == '*') cs) :
    HeadFree p (starless cs) ↔ HeadFree p cs := by
  cases cs with
  | nil => rfl
  | cons c rest =>
      have hc : c ≠ '*' := by simpa using hstar
      rw [starless_cons hc, headFree_cons, headFree_cons]

/-- Either the first character stays when the stars are gone, or it is a star. -/
theorem headFree_or_star (cs : List Char) :
    HeadFree (· == '*') cs ∨ ∃ tail, cs = '*' :: tail := by
  cases cs with
  | nil => exact Or.inl headFree_nil
  | cons c tail =>
      by_cases hc : c = '*'
      · exact Or.inr ⟨tail, by rw [hc]⟩
      · exact Or.inl (headFree_cons.mpr (by simpa using hc))

end Starless

/-! ## Stars that are not needed -/

/-- A digit or a point: a character of which literals are made. -/
def isLiteralChar (c : Char) : Bool :=
  c.isDigit || c == '.'

/-- Whether a star right behind the first character, or that character if it is a star, may be left
out for all that the next character says. -/
def redundantAfter (first : Char) : List Char → Bool
  | '*' :: next :: _ => !(isLiteralChar first && isLiteralChar next)
  | next :: _ => !(first == '*' && (next == '+' || next == '-'))
  | [] => true

/-- Whether no star stands before a sign or between two characters of literals. -/
def starsRedundant : List Char → Bool
  | [] => true
  | c :: rest => redundantAfter c rest && starsRedundant rest

/-- A text without gaps in which no star stands before a sign or between two characters of
literals. -/
structure Parted (cs : List Char) : Prop where
  gapless : ∀ c ∈ cs, isGap c = false
  redundant : starsRedundant cs = true

namespace Parted

variable {cs rest : List Char} {c d : Char}

theorem of_plain (hplain : ∀ c ∈ cs, isBlank c = false) (hredundant : starsRedundant cs = true) :
    Parted cs := by
  refine ⟨fun c hc => ?_, hredundant⟩
  rw [Bool.eq_false_iff]
  intro hgap
  exact absurd (isBlank_of_isGap hgap) (by simp [hplain c hc])

theorem tail (hparted : Parted (c :: cs)) : Parted cs :=
  ⟨fun d hd => hparted.gapless d (List.mem_cons_of_mem _ hd),
    (Bool.and_eq_true_iff.mp hparted.redundant).2⟩

theorem suffix (hparted : Parted (cs ++ rest)) : Parted rest := by
  induction cs with
  | nil => exact hparted
  | cons c tail ih => exact ih hparted.tail

theorem skipGaps (hparted : Parted cs) : skipGaps cs = cs :=
  skipGaps_of_headFree fun c hc => hparted.gapless c (List.mem_of_mem_head? hc)

theorem skipGaps_starless (hparted : Parted cs) : Text.skipGaps (starless cs) = starless cs :=
  skipGaps_of_headFree fun c hc =>
    hparted.gapless c ((starless_sublist cs).subset (List.mem_of_mem_head? hc))

/-- No sign stands behind a star. -/
theorem unsigned (hparted : Parted ('*' :: rest)) : Unsigned rest := by
  unfold Unsigned
  rw [hparted.tail.skipGaps]
  cases rest with
  | nil => exact headFree_nil
  | cons d tail =>
      have hafter := (Bool.and_eq_true_iff.mp hparted.redundant).1
      rw [headFree_cons]
      by_cases hstar : d = '*'
      · subst hstar
        decide
      · rw [redundantAfter] at hafter
        · simpa [and_comm] using hafter
        · exact fun _ _ heq => absurd heq hstar

/-- No literal stands behind a star that stands behind a literal. -/
theorem literal (hparted : Parted (cs ++ '*' :: d :: rest)) (hne : cs ≠ [])
    (hliteral : ∀ c ∈ cs, isLiteralChar c = true) : isLiteralChar d = false := by
  obtain ⟨init, c, rfl⟩ := (List.eq_nil_or_concat' cs).resolve_left hne
  rw [List.append_assoc] at hparted
  have hafter := (Bool.and_eq_true_iff.mp hparted.suffix.redundant).1
  have hc := hliteral c (by simp)
  simpa [redundantAfter, hc] using hafter

end Parted

end EquationPractice
