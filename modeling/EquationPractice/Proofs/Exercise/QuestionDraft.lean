import EquationPractice.Proofs.Exercise.QuestionText

/-!
# Questions from drafts

A question can be assembled without a look at the signs of its terms: the terms of a side, with the
placeholder `x` for the unknown, are joined by plus signs; then every plus sign right before a minus
sign is dropped; and last the name of the unknown is put for every `x`.  The result is the text of
the question, also when the name itself contains an `x`, since names are put in a single pass.

## Main definitions

* `Question.draft`: the text before both replacements.
* `dropPlus`, `putName`: the two replacements.
-/

namespace EquationPractice

open Text

/-- The name that stands for the unknown in a draft. -/
def placeholder : Char := 'x'

/-- The terms of a side, joined by plus signs. -/
def sideDraft : List Term → List Char
  | [] => ['0']
  | terms => ['+'].intercalate (terms.map (Term.chars [placeholder]))

/-- The two sides before the replacements. -/
def Question.draft (question : Question) : List Char :=
  sideDraft question.left ++ '=' :: sideDraft question.right

/-- Replaces a plus sign and a minus sign in a row by the minus sign, from left to right. -/
def dropPlus : List Char → List Char
  | '+' :: '-' :: rest => '-' :: dropPlus rest
  | c :: rest => c :: dropPlus rest
  | [] => []

/-- Puts a name for every placeholder. -/
def putName (name cs : List Char) : List Char :=
  cs.flatMap fun c => if c = placeholder then name else [c]

/-! ## Plus signs -/

section DropPlus

variable {cs rest : List Char}

theorem dropPlus_append (hnone : ∀ c ∈ cs, c ≠ '+') :
    dropPlus (cs ++ rest) = cs ++ dropPlus rest := by
  induction cs with
  | nil => rfl
  | cons c tail ih =>
      have hc := hnone c List.mem_cons_self
      have htail := ih fun d hd => hnone d (List.mem_cons_of_mem _ hd)
      rw [List.cons_append, dropPlus, htail, List.cons_append]
      intro _ hplus
      exact absurd hplus hc

theorem dropPlus_plus (hfree : HeadFree (· == '-') cs) :
    dropPlus ('+' :: cs) = '+' :: dropPlus cs := by
  rw [dropPlus]
  rintro tail - rfl
  exact absurd (headFree_cons.mp hfree) (by decide)

theorem Term.ne_plus_of_mem_chars {t : Term} : ∀ c ∈ t.chars [placeholder], c ≠ '+' := by
  rintro c hc rfl
  rcases Term.mem_chars (by decide) hc with hminus | hstar | hword
  · exact absurd hminus (by decide)
  · exact absurd hstar (by decide)
  · exact absurd hword (by decide)

/-- A term without its sign starts with a digit. -/
theorem Term.headFree_magnitude (t : Term) (name : List Char) :
    HeadFree (· == '-') (t.magnitude.chars name ++ rest) := by
  obtain ⟨tail, htail⟩ : ∃ tail,
      t.magnitude.chars name = natChars t.coefficient.natAbs ++ tail := by
    simp only [Term.chars, Term.magnitude, intChars_natCast]
    split
    · exact ⟨_, rfl⟩
    · exact ⟨[], by simp⟩
  obtain ⟨c, digits, hdigits⟩ := List.exists_cons_of_ne_nil (natChars_ne_nil t.coefficient.natAbs)
  have hdigit : c.isDigit = true := isDigit_of_mem_natChars c (by rw [hdigits]; simp)
  rw [htail, hdigits, List.append_assoc, List.cons_append, headFree_cons, beq_eq_false_iff_ne]
  rintro rfl
  exact absurd hdigit (by decide)

/-- Behind a plus sign, a term comes out as it is written after another one. -/
theorem Term.dropPlus_joined (t : Term) :
    dropPlus ('+' :: (t.chars [placeholder] ++ rest)) =
      t.laterChars [placeholder] ++ dropPlus rest := by
  unfold Term.laterChars
  split
  · next hneg =>
      have hmagnitude : ∀ c ∈ t.magnitude.chars [placeholder], c ≠ '+' :=
        fun c hc => ne_plus_of_mem_chars c hc
      rw [Term.chars_of_neg hneg, List.cons_append, dropPlus, dropPlus_append hmagnitude,
        List.cons_append]
  · next hnonneg =>
      have hfree : HeadFree (· == '-') (t.chars [placeholder] ++ rest) := by
        rw [Term.chars_of_nonneg hnonneg]
        exact t.headFree_magnitude [placeholder]
      rw [dropPlus_plus hfree, dropPlus_append Term.ne_plus_of_mem_chars, List.cons_append]

/-- A drafted side comes out as it is written, but for the placeholder. -/
theorem dropPlus_side (terms : List Term) :
    dropPlus (sideDraft terms ++ rest) = sideChars [placeholder] terms ++ dropPlus rest := by
  cases terms with
  | nil =>
      have hzero : ∀ c ∈ ['0'], c ≠ '+' := by simp
      exact dropPlus_append hzero
  | cons first more =>
      -- joined terms are the first one and the others behind plus signs
      have hjoined : sideDraft (first :: more) =
          first.chars [placeholder] ++ more.flatMap fun t => '+' :: t.chars [placeholder] := by
        simp only [sideDraft]
        induction more generalizing first with
        | nil => simp
        | cons next more ih =>
            rw [List.map_cons, List.map_cons, List.intercalate_cons_cons, ← List.map_cons, ih]
            simp
      have hmore : dropPlus ((more.flatMap fun t => '+' :: t.chars [placeholder]) ++ rest) =
          more.flatMap (Term.laterChars [placeholder]) ++ dropPlus rest := by
        clear hjoined
        induction more with
        | nil => rfl
        | cons next more ih =>
            rw [List.flatMap_cons, List.flatMap_cons, List.append_assoc, List.cons_append,
              Term.dropPlus_joined, ih, List.append_assoc]
      rw [hjoined, List.append_assoc, dropPlus_append Term.ne_plus_of_mem_chars, hmore, sideChars,
        List.append_assoc]

end DropPlus

/-! ## Names -/

section PutName

variable {name cs ds : List Char}

@[simp] theorem putName_append : putName name (cs ++ ds) = putName name cs ++ putName name ds :=
  List.flatMap_append

theorem putName_cons {c : Char} (hc : c ≠ placeholder) :
    putName name (c :: cs) = c :: putName name cs := by
  simp [putName, hc]

theorem putName_eq_self (hkept : ∀ c ∈ cs, c ≠ placeholder) : putName name cs = cs := by
  induction cs with
  | nil => rfl
  | cons c tail ih =>
      rw [putName_cons (hkept c List.mem_cons_self),
        ih fun d hd => hkept d (List.mem_cons_of_mem _ hd)]

theorem putName_intChars (n : Int) : putName name (intChars n) = intChars n := by
  refine putName_eq_self ?_
  rintro c hc rfl
  rcases mem_intChars hc with hminus | hdigit
  · exact absurd hminus (by decide)
  · exact absurd hdigit (by decide)

@[simp] theorem putName_chars (t : Term) : putName name (t.chars [placeholder]) = t.chars name := by
  unfold Term.chars
  split
  · rw [putName_append, putName_intChars, putName_cons (by decide)]
    simp [putName]
  · exact putName_intChars _

theorem putName_laterChars (t : Term) :
    putName name (t.laterChars [placeholder]) = t.laterChars name := by
  unfold Term.laterChars
  split
  · exact putName_chars t
  · rw [putName_cons (by decide), putName_chars]

theorem putName_side (terms : List Term) :
    putName name (sideChars [placeholder] terms) = sideChars name terms := by
  cases terms with
  | nil => rfl
  | cons first rest =>
      rw [sideChars, sideChars, putName_append, putName_chars]
      congr 1
      induction rest with
      | nil => rfl
      | cons next rest ih =>
          rw [List.flatMap_cons, List.flatMap_cons, putName_append, putName_laterChars, ih]

end PutName

/-- The text of a question is what both replacements make of its draft. -/
theorem Question.chars_eq_draft (question : Question) (name : List Char) :
    question.chars name = putName name (dropPlus question.draft) := by
  have hright : dropPlus (sideDraft question.right) = sideChars [placeholder] question.right := by
    rw [← List.append_nil (sideDraft question.right), dropPlus_side]
    simp [dropPlus]
  have hequal : dropPlus ('=' :: sideDraft question.right) =
      '=' :: sideChars [placeholder] question.right := by
    rw [dropPlus, hright]
    simp
  rw [Question.draft, dropPlus_side, hequal, putName_append, putName_cons (by decide), putName_side,
    putName_side]
  rfl

end EquationPractice
