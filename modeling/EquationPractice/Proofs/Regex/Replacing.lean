import EquationPractice.Proofs.Regex.Shapes
import EquationPractice.Regex.Replace

/-!
# Replacing from left to right

A replacement goes through the text once.  Where a match begins, the template is written and the
match is passed over; where none begins, one character is written.  The search behind it is stated by
positions and with a bound on the number of its steps; here it is said by the text before and behind
the place that it has come to, so that a text can be gone through part by part.

## Strategy

An empty match would have to be treated apart, so the lemmas are about matches that take something.
Then every step takes at least one character, and any bound above the length of the rest will do.

## Main definitions

* `Shape.IsAbsent`: no match begins in a part of a text.
* `Regex.Rewrites`: what a replacement makes of the rest of a text, from a place on.
-/

namespace EquationPractice

/-- Nothing that begins in `skipped` has the shape. -/
def Shape.IsAbsent (shape : Shape) (before skipped rest : List Char) : Prop :=
  ∀ first second, skipped = first ++ second → second ≠ [] → ∀ taken after,
    second ++ rest = taken ++ after → ¬shape (before ++ first) taken after

section Absent

variable {shape : Shape} {before more rest : List Char} {c : Char}

theorem Shape.IsAbsent.head (hnone : shape.IsAbsent before (c :: more) rest) (taken after : List Char)
    (htext : c :: (more ++ rest) = taken ++ after) : ¬shape before taken after := by
  simpa using hnone [] (c :: more) rfl (by simp) taken after htext

theorem Shape.IsAbsent.tail (hnone : shape.IsAbsent before (c :: more) rest) :
    shape.IsAbsent (before ++ [c]) more rest := by
  intro first second hmore hne taken after htext
  have hlater := hnone (c :: first) second (by rw [hmore]; rfl) hne taken after htext
  simpa using hlater

end Absent

namespace Regex

variable {r : Regex} {shape : Shape} {template : List TemplatePart}
  {text before rest taken after out : List Char} {fuel pos : Nat} {last : Option Nat}
  {span : Span} {c : Char}

/-! ## Matches at a place -/

theorem HasShape.spanAt?_eq_none (hr : r.HasShape shape)
    (hnone : ∀ taken after, rest = taken ++ after → ¬shape before taken after) :
    r.spanAt? (before ++ rest) before.length = none := by
  have hruns : r.runs (before ++ rest) (.at before.length) = [] := by
    rw [List.eq_nil_iff_forall_not_mem]
    intro next hnext
    obtain ⟨taken, after, hrest, -, hshape⟩ := (hr before rest [] next).mp hnext
    exact hnone taken after hrest hshape
  simp [spanAt?, hruns]

/-- Where something can be taken, the match takes something that can be taken. -/
theorem HasShape.exists_spanAt?_eq_some (hr : r.HasShape shape)
    (hshape : shape before taken after) :
    ∃ other tail, taken ++ after = other ++ tail ∧ shape before other tail ∧
      r.spanAt? (before ++ (taken ++ after)) before.length =
        some ⟨before.length, before.length + other.length, []⟩ := by
  have hruns := hr before (taken ++ after) []
  obtain ⟨first, more, hlist⟩ : ∃ first more,
      r.runs (before ++ (taken ++ after)) (.at before.length) = first :: more :=
    List.exists_cons_of_ne_nil
      (List.ne_nil_of_mem ((hruns _).mpr ⟨taken, after, rfl, rfl, hshape⟩))
  have hfirst : first ∈ r.runs (before ++ (taken ++ after)) ⟨before.length, []⟩ := by
    rw [show Place.mk before.length [] = Place.at before.length from rfl, hlist]
    exact List.mem_cons_self
  obtain ⟨other, tail, hrest, rfl, hother⟩ := (hruns first).mp hfirst
  exact ⟨other, tail, hrest, hother, by simp [spanAt?, hlist]⟩

/-- Where only one text can be taken, that text is the match. -/
theorem HasShape.spanAt?_eq_some (hr : r.HasShape shape) (hshape : shape before taken after)
    (hunique : ∀ other tail, taken ++ after = other ++ tail → shape before other tail →
      other = taken) :
    r.spanAt? (before ++ (taken ++ after)) before.length =
      some ⟨before.length, before.length + taken.length, []⟩ := by
  obtain ⟨other, tail, hrest, hother, hspan⟩ := hr.exists_spanAt?_eq_some hshape
  rwa [hunique other tail hrest hother] at hspan

/-! ## The search step by step -/

theorem find?_of_spanAt?_eq_some (hpos : pos ≤ text.length)
    (hspan : r.spanAt? text pos = some span) : r.find? text pos = some span := by
  have hplaces : text.length + 1 - pos = (text.length - pos) + 1 := by omega
  rw [find?, hplaces, List.range'_succ, List.findSome?_cons, hspan]

theorem find?_of_spanAt?_eq_none (hpos : pos < text.length)
    (hspan : r.spanAt? text pos = none) : r.find? text pos = r.find? text (pos + 1) := by
  have hplaces : text.length + 1 - pos = (text.length + 1 - (pos + 1)) + 1 := by omega
  rw [find?, hplaces, List.range'_succ, List.findSome?_cons, hspan]
  rfl

theorem find?_at_end (hspan : r.spanAt? text text.length = none) :
    r.find? text text.length = none := by
  simp [find?, hspan]

theorem spansFrom_of_none (hpos : pos < text.length) (hspan : r.spanAt? text pos = none) :
    r.spansFrom text fuel pos last = r.spansFrom text fuel (pos + 1) last := by
  cases fuel with
  | zero => rfl
  | succ fuel => rw [spansFrom, spansFrom, find?_of_spanAt?_eq_none hpos hspan]

theorem spansFrom_of_some (hpos : pos ≤ text.length) (hspan : r.spanAt? text pos = some span)
    (hmoves : span.start ≠ span.stop) : r.spansFrom text (fuel + 1) pos last =
      span :: r.spansFrom text fuel span.stop (some span.stop) := by
  rw [spansFrom, find?_of_spanAt?_eq_some hpos hspan]
  simp only [hmoves, ne_eq, not_false_eq_true, if_true]

theorem spansFrom_at_end (hspan : r.spanAt? text text.length = none) :
    r.spansFrom text fuel text.length last = [] := by
  cases fuel with
  | zero => rfl
  | succ fuel => rw [spansFrom, find?_at_end hspan]

/-! ## What is written -/

theorem slice_to_length {written : Nat} (hwritten : written ≤ before.length) :
    slice (before ++ rest) written before.length = before.drop written := by
  rw [slice, List.drop_append_of_le_length hwritten]
  have hlength : before.length - written = (before.drop written).length := by
    rw [List.length_drop]
  rw [hlength, List.take_left]

/-- With `before` gone through, the replacement makes `out` of `rest`, whatever part of the text
gone through is still to be written. -/
def Rewrites (r : Regex) (template : List TemplatePart) (before rest out : List Char) : Prop :=
  ∀ fuel last written, rest.length < fuel → written ≤ before.length →
    replaceSpans template (before ++ rest) written
        (r.spansFrom (before ++ rest) fuel before.length last) =
      before.drop written ++ out

theorem Rewrites.replaceAll {template : List Char}
    (hout : Rewrites r (templateParts template) [] text out) :
    r.replaceAll template text = out := by
  have hspans := hout (text.length + 2) none 0 (by omega) (by simp)
  simpa [Regex.replaceAll, spans] using hspans

/-- At the end of the text nothing is left to write. -/
theorem Rewrites.nil (hspan : r.spanAt? before before.length = none) :
    Rewrites r template before [] [] := by
  intro fuel last written _ _
  rw [List.append_nil, List.append_nil, spansFrom_at_end hspan]
  rfl

/-- Where no match begins, a character is written as it is. -/
theorem Rewrites.skip (hspan : r.spanAt? (before ++ c :: rest) before.length = none)
    (hout : Rewrites r template (before ++ [c]) rest out) :
    Rewrites r template before (c :: rest) (c :: out) := by
  intro fuel last written hfuel hwritten
  have hnext := hout fuel last written (by rw [List.length_cons] at hfuel; omega)
    (by rw [List.length_append]; omega)
  rw [List.append_assoc, List.singleton_append, List.length_append, List.length_singleton,
    List.drop_append_of_le_length hwritten, List.append_assoc] at hnext
  rw [spansFrom_of_none (by simp) hspan]
  exact hnext

/-- Where nothing can be taken for a while, all of that is written as it is. -/
theorem Rewrites.skipAll (hr : r.HasShape shape) (hnone : shape.IsAbsent before taken rest)
    (hout : Rewrites r template (before ++ taken) rest out) :
    Rewrites r template before (taken ++ rest) (taken ++ out) := by
  induction taken generalizing before with
  | nil => simpa using hout
  | cons c more ih =>
      exact Rewrites.skip (hr.spanAt?_eq_none hnone.head) (ih hnone.tail (by simpa using hout))

/-- Where a match begins, the template is written in its place. -/
theorem Rewrites.take (hne : taken ≠ []) (hspan : r.spanAt? (before ++ (taken ++ rest))
      before.length = some ⟨before.length, before.length + taken.length, []⟩)
    (hout : Rewrites r template (before ++ taken) rest out) :
    Rewrites r template before (taken ++ rest)
      (template.flatMap (·.expand (before ++ (taken ++ rest))
        ⟨before.length, before.length + taken.length, []⟩) ++ out) := by
  intro fuel last written hfuel hwritten
  have hpos := List.length_pos_iff.mpr hne
  rw [List.length_append] at hfuel
  obtain ⟨less, rfl⟩ := Nat.exists_eq_succ_of_ne_zero (show fuel ≠ 0 by omega)
  have hnext := hout less (some (before.length + taken.length)) (before ++ taken).length (by omega)
    le_rfl
  rw [List.append_assoc, List.length_append, List.drop_of_length_le (by simp),
    List.nil_append] at hnext
  rw [spansFrom_of_some (by simp) hspan (by simp [hne]), replaceSpans, slice_to_length hwritten,
    hnext, List.append_assoc]

/-! ## Templates -/

/-- A template without a dollar sign stands for itself. -/
theorem flatMap_expand_templateParts {template : List Char} (hplain : '$' ∉ template) :
    (templateParts template).flatMap (·.expand text span) = template := by
  induction template with
  | nil => simp [templateParts]
  | cons c rest ih =>
      have hc : c ≠ '$' := fun heq => hplain (heq ▸ List.mem_cons_self)
      have hrest := ih fun hmem => hplain (List.mem_cons_of_mem _ hmem)
      have hparts : templateParts (c :: rest) = .char c :: templateParts rest := by
        rw [templateParts]
        · exact fun _ heq => absurd heq hc
        · exact fun heq => absurd heq hc
      rw [hparts, List.flatMap_cons, hrest]
      rfl

end Regex

end EquationPractice
