import EquationPractice.Proofs.Exercise.Acceptance
import EquationPractice.Proofs.Exercise.Generation

/-!
# Conserved terms

The terms of a question can be read off its text again: split at the signs, its two sides give back
the terms that they were written from, each with its sign.  A question of the highest difficulty
therefore shows exactly the terms that were drawn for it.

## Strategy

A term has no sign behind its first character.  Whatever stands before it, its own sign or the plus
sign that is put before it closes the term before and opens the next one, so splitting follows
writing term by term.  That the shuffle and the cut lose nothing is a permutation of terms, which
writing carries over to texts.

## Main definitions

* `signedTerms`: a side of an equation, split at its signs.
* `HoldTerms`: what the sides of a text are that show some terms and nothing else.
-/

namespace EquationPractice

open Text StandardForm

/-! ## Splitting at signs -/

/-- The signed terms of a text that goes on behind the characters of a term.  A plus sign stands
between two terms and belongs to neither, a minus sign belongs to the term that it opens. -/
def signedTermsFrom (current : List Char) : List Char → List (List Char)
  | [] => [current]
  | c :: rest =>
      if c = '+' then current :: signedTermsFrom [] rest
      else if c = '-' ∧ current ≠ [] then current :: signedTermsFrom ['-'] rest
      else signedTermsFrom (current ++ [c]) rest

/-- The signed terms of a side of an equation. -/
def signedTerms (side : List Char) : List (List Char) :=
  signedTermsFrom [] side

section Splitting

variable {current cs rest name : List Char}

theorem signedTermsFrom_plus :
    signedTermsFrom current ('+' :: rest) = current :: signedTermsFrom [] rest := by
  simp [signedTermsFrom]

theorem signedTermsFrom_minus (hopen : current ≠ []) :
    signedTermsFrom current ('-' :: rest) = current :: signedTermsFrom ['-'] rest := by
  simp [signedTermsFrom, hopen]

theorem signedTermsFrom_nil_minus :
    signedTermsFrom [] ('-' :: rest) = signedTermsFrom ['-'] rest := by
  simp [signedTermsFrom]

/-- Characters without a sign go to the term that they stand in. -/
theorem signedTermsFrom_append (hunsigned : ∀ c ∈ cs, c ≠ '+' ∧ c ≠ '-') :
    signedTermsFrom current (cs ++ rest) = signedTermsFrom (current ++ cs) rest := by
  induction cs generalizing current with
  | nil => simp
  | cons c tail ih =>
      obtain ⟨hplus, hminus⟩ := hunsigned c List.mem_cons_self
      have htail : signedTermsFrom (current ++ [c]) (tail ++ rest) =
          signedTermsFrom (current ++ [c] ++ tail) rest :=
        ih fun d hd => hunsigned d (List.mem_cons_of_mem _ hd)
      rw [List.append_assoc, List.singleton_append] at htail
      simp only [List.cons_append, signedTermsFrom, hplus, hminus, if_false, false_and, htail]

end Splitting

/-! ## Terms -/

namespace Term

variable {current rest name : List Char} {t : Term}

theorem unsigned_of_mem_magnitude (hname : IsName name) :
    ∀ c ∈ t.magnitude.chars name, c ≠ '+' ∧ c ≠ '-' := by
  intro c hc
  have hword := mem_magnitude hname hc
  constructor
  · rintro rfl
    exact absurd hword (by decide)
  · rintro rfl
    exact absurd hword (by decide)

/-- A term at the start, or behind a plus sign, is taken with its own sign. -/
theorem signedTermsFrom_chars (hname : IsName name) :
    signedTermsFrom [] (t.chars name ++ rest) = signedTermsFrom (t.chars name) rest := by
  have hmagnitude := unsigned_of_mem_magnitude hname (t := t)
  by_cases hneg : t.coefficient < 0
  · rw [chars_of_neg hneg, List.cons_append, signedTermsFrom_nil_minus,
      signedTermsFrom_append hmagnitude, List.singleton_append]
  · rw [chars_of_nonneg hneg, signedTermsFrom_append hmagnitude, List.nil_append]

/-- A term behind another one closes that one. -/
theorem signedTermsFrom_laterChars (hname : IsName name) (hopen : current ≠ []) :
    signedTermsFrom current (t.laterChars name ++ rest) =
      current :: signedTermsFrom (t.chars name) rest := by
  unfold laterChars
  split
  · next hneg =>
      rw [chars_of_neg hneg, List.cons_append, signedTermsFrom_minus hopen,
        signedTermsFrom_append (unsigned_of_mem_magnitude hname), List.singleton_append]
  · rw [List.cons_append, signedTermsFrom_plus, signedTermsFrom_chars hname]

theorem chars_ne_nil (t : Term) (name : List Char) : t.chars name ≠ [] := by
  obtain ⟨c, hc, -⟩ := exists_mem_intChars t.coefficient
  unfold Term.chars
  split
  · simp
  · exact List.ne_nil_of_mem hc

/-- Only a constant zero is written as a zero. -/
theorem chars_ne_zero (hnonzero : t.coefficient ≠ 0) : t.chars name ≠ ['0'] := by
  unfold Term.chars
  split
  · intro hzero
    have hstar : '*' ∈ ['0'] := by
      rw [← hzero]
      simp
    exact absurd hstar (by decide)
  · unfold intChars
    split
    · simp
    · intro hzero
      have habs : t.coefficient.natAbs = 0 := natChars_injective hzero
      exact hnonzero (Int.natAbs_eq_zero.mp habs)

/-! ### Operators -/

theorem operand_magnitude (hname : IsName name) (hrest : NoneInRow rest) :
    Operand (t.magnitude.chars name ++ rest) := by
  have hdigits : ∀ {more : List Char}, NoneInRow more →
      Operand (natChars t.coefficient.natAbs ++ more) :=
    operand_digits ⟨natChars_ne_nil _, isDigit_of_mem_natChars⟩
  simp only [Term.chars, Term.magnitude, intChars_natCast]
  split
  · have hnamed : Operand (name ++ rest) :=
      operand_word ⟨hname.ne_nil, hname.continuesName⟩ hrest
    rw [List.append_assoc, List.cons_append]
    exact hdigits (hnamed.after '*')
  · exact hdigits hrest

theorem noneInRow_chars (hname : IsName name) (hrest : NoneInRow rest) :
    NoneInRow (t.chars name ++ rest) := by
  have hmagnitude := operand_magnitude hname hrest (t := t)
  by_cases hneg : t.coefficient < 0
  · rw [chars_of_neg hneg]
    exact hmagnitude.after '-'
  · rw [chars_of_nonneg hneg]
    exact hmagnitude.none

theorem noneInRow_laterChars (hname : IsName name) (hrest : NoneInRow rest) :
    NoneInRow (t.laterChars name ++ rest) := by
  have hmagnitude := operand_magnitude hname hrest (t := t)
  unfold laterChars
  split
  · exact noneInRow_chars hname hrest
  · next hneg =>
      rw [chars_of_nonneg hneg]
      exact hmagnitude.after '+'

end Term

/-! ## Sides -/

/-- What a side shows that received some terms: a zero alone stands for none. -/
def orZero (received : List (List Char)) : List (List Char) :=
  if received = [] then [['0']] else received

section Sides

variable {name rest : List Char} {terms : List Term}

/-- Split at the signs, a side gives back the terms that it was written from. -/
theorem signedTerms_sideChars (hname : IsName name) :
    signedTerms (sideChars name terms) = orZero (terms.map (Term.chars name)) := by
  cases terms with
  | nil => rfl
  | cons first more =>
      have hmore : signedTermsFrom (first.chars name) (more.flatMap (Term.laterChars name)) =
          (first :: more).map (Term.chars name) := by
        induction more generalizing first with
        | nil => rfl
        | cons next more ih =>
            rw [List.flatMap_cons, Term.signedTermsFrom_laterChars hname (first.chars_ne_nil name),
              ih next]
            rfl
      rw [signedTerms, sideChars, Term.signedTermsFrom_chars hname, hmore]
      rfl

example : signedTerms "-5*ex+3-2".toList = ["-5*ex".toList, "3".toList, "-2".toList] := by decide

theorem sideChars_ne_nil (name : List Char) (terms : List Term) : sideChars name terms ≠ [] := by
  cases terms with
  | nil => simp [sideChars]
  | cons first more => simp [sideChars, first.chars_ne_nil name]

theorem equals_notMem_sideChars (hname : IsName name) : '=' ∉ sideChars name terms := by
  intro hequals
  exact absurd (mem_sideChars hname hequals) (by decide)

theorem noneInRow_sideChars (hname : IsName name) (hrest : NoneInRow rest) :
    NoneInRow (sideChars name terms ++ rest) := by
  cases terms with
  | nil => exact (operand_cons (by decide) hrest).none
  | cons first more =>
      have hmore : NoneInRow (more.flatMap (Term.laterChars name) ++ rest) := by
        induction more with
        | nil => exact hrest
        | cons next more ih =>
            rw [List.flatMap_cons, List.append_assoc]
            exact Term.noneInRow_laterChars hname ih
      rw [sideChars, List.append_assoc]
      exact Term.noneInRow_chars hname hmore

end Sides

/-! ## Questions -/

/-- Two sides show some terms and nothing else: neither side is empty, one equals sign stands between
them and none within, no two operators stand in a row, and split at the signs the sides give the
terms that they received, which are the given ones in some order.  A side that received none is a
zero alone, and no given term looks like it. -/
structure HoldTerms (terms : List (List Char)) (left right : List Char) : Prop where
  equals : (left ++ '=' :: right).count '=' = 1
  left_ne_nil : left ≠ []
  right_ne_nil : right ≠ []
  noneInRow : NoneInRow (left ++ '=' :: right)
  received : ∃ first second, signedTerms left = orZero first ∧ signedTerms right = orZero second ∧
    (first ++ second).Perm terms
  zero_notMem : ['0'] ∉ terms

namespace Question

/-- The sides of a question show its terms, in whatever order they are given. -/
theorem holdTerms_sides {name : List Char} (hname : IsName name) {question : Question}
    {terms : List Term} (hperm : (question.left ++ question.right).Perm terms)
    (hnonzero : ∀ t ∈ terms, t.coefficient ≠ 0) :
    HoldTerms (terms.map (Term.chars name)) (sideChars name question.left)
      (sideChars name question.right) := by
  refine ⟨?_, sideChars_ne_nil _ _, sideChars_ne_nil _ _, ?_, ?_, ?_⟩
  · rw [List.count_append, List.count_cons_self,
      List.count_eq_zero_of_not_mem (equals_notMem_sideChars hname),
      List.count_eq_zero_of_not_mem (equals_notMem_sideChars hname)]
  · have hright : NoneInRow (sideChars name question.right ++ []) :=
      noneInRow_sideChars hname List.isChain_nil
    rw [List.append_nil] at hright
    exact noneInRow_sideChars hname (operand_cons (by decide) hright).none
  · refine ⟨question.left.map (Term.chars name), question.right.map (Term.chars name),
      signedTerms_sideChars hname, signedTerms_sideChars hname, ?_⟩
    rw [← List.map_append]
    exact hperm.map _
  · intro hzero
    obtain ⟨t, ht, hchars⟩ := List.mem_map.mp hzero
    exact Term.chars_ne_zero (hnonzero t ht) hchars

section Spread

variable {σ : Type} [WordSource σ] {attempts : Nat} {settings : Settings} {source last : σ}
  {question : Question}

/-- How a question with terms on both sides is drawn: its terms come first, those of the unknown
before the constants, and it consists of them in some order. -/
theorem exists_drawTerms_of_spread {unknownTerms constantTerms : Nat}
    (hspread : (spread attempts unknownTerms constantTerms).outcome source =
      some (.ok question, last)) :
    ∃ unknowns constants mid next,
      (drawTerms attempts true unknownTerms).outcome source = some (.ok unknowns, mid) ∧
      (drawTerms attempts false constantTerms).outcome mid = some (.ok constants, next) ∧
      (question.left ++ question.right).Perm (unknowns ++ constants) := by
  simp only [spread, Draw.outcome_bind_eq_some, reduceCtorEq, and_false, exists_false,
    or_false] at hspread
  obtain ⟨unknowns, mid, hunknowns, constants, next, hconstants, terms, _, hshuffle, cut, _, -,
    hquestion⟩ := hspread
  simp only [Draw.outcome_pure, Option.some.injEq, Prod.mk.injEq, Except.ok.injEq] at hquestion
  obtain ⟨rfl, -⟩ := hquestion
  obtain ⟨_, hterms, hperm⟩ := Draw.yields_shuffle attempts _ _ _ _ hshuffle
  obtain rfl := Except.ok.inj hterms
  exact ⟨unknowns, constants, mid, next, hunknowns, hconstants, by simpa using hperm⟩

/-- **Questions of the highest difficulty conserve their terms.**  Whatever the source and the name
of the unknown, once the draws end there is a question.  The terms of the unknown and then the
constants are drawn first, as many as were asked for, none of them zero and none beyond ten.  The
text that is made from the draft of the question shows exactly these terms.  With valid settings, it
is the text of the exercise that is generated. -/
theorem draw_conserves_terms (hhard : settings.difficulty = .hard)
    (hname : Settings.isName settings.unknownName.toList = true)
    (hends : ((draw attempts settings : Draw σ SamplingError Question).outcome
      source).isSome = true) :
    ∃ question last unknowns constants mid next left right,
      (draw attempts settings).outcome source = some (.ok question, last) ∧
      (drawTerms attempts true settings.unknownTerms).outcome source = some (.ok unknowns, mid) ∧
      (drawTerms attempts false settings.constantTerms).outcome mid = some (.ok constants, next) ∧
      AreDrawn true settings.unknownTerms unknowns ∧
      AreDrawn false settings.constantTerms constants ∧
      putName settings.unknownName.toList (dropPlus question.draft) = left ++ '=' :: right ∧
      HoldTerms ((unknowns ++ constants).map (Term.chars settings.unknownName.toList)) left right ∧
      (settings.validate = .ok () → ∃ exercise final,
        (Exercise.generate attempts settings (.ofForms StandardForm.all)).outcome source =
          some (.ok exercise, final) ∧
        exercise.question.toList = left ++ '=' :: right) := by
  obtain ⟨question, last, hdraw, hfits⟩ := (yields_draw attempts settings).of_isSome hends
  have hspread : (spread attempts settings.unknownTerms settings.constantTerms).outcome source =
      some (.ok question, last) := by
    rw [← hdraw, draw, hhard]
  obtain ⟨unknowns, constants, mid, next, hunknowns, hconstants, hperm⟩ :=
    exists_drawTerms_of_spread hspread
  obtain ⟨_, hvalue, hareUnknowns⟩ := yields_drawTerms attempts _ _ _ _ _ hunknowns
  obtain rfl := Except.ok.inj hvalue
  obtain ⟨_, hvalue, hareConstants⟩ := yields_drawTerms attempts _ _ _ _ _ hconstants
  obtain rfl := Except.ok.inj hvalue
  have hnonzero : ∀ t ∈ unknowns ++ constants, t.coefficient ≠ 0 := by
    intro t ht
    rcases List.mem_append.mp ht with hmem | hmem
    · exact (hareUnknowns.coefficient t hmem).1
    · exact (hareConstants.coefficient t hmem).1
  refine ⟨question, last, unknowns, constants, mid, next, _, _, hdraw, hunknowns, hconstants,
    hareUnknowns, hareConstants, (question.chars_eq_draft _).symm,
    holdTerms_sides (Settings.reads_of_isName hname) hperm hnonzero, fun hvalid => ?_⟩
  obtain ⟨_, _, final, -, -, hgenerate⟩ := Exercise.generate_of_drop hvalid hdraw hfits
  exact ⟨_, final, hgenerate, String.toList_ofList⟩

theorem draw_conserves_terms_two_terms :
    (Settings.mk .hard "ex" 1 1).validate = .ok () ∧
    ∃ (question : Question) (last : WordFeed) (unknowns constants : List Term)
      (left right : List Char),
      (draw 8 ⟨.hard, "ex", 1, 1⟩).outcome (WordFeed.ofWords [] 7) = some (.ok question, last) ∧
      AreDrawn true 1 unknowns ∧ AreDrawn false 1 constants ∧
      putName "ex".toList (dropPlus question.draft) = left ++ '=' :: right ∧
      HoldTerms ((unknowns ++ constants).map (Term.chars "ex".toList)) left right := by
  have hvalid : (Settings.mk .hard "ex" 1 1).validate = .ok () := by decide +kernel
  have hends : ((draw 8 ⟨.hard, "ex", 1, 1⟩ : Draw WordFeed SamplingError Question).outcome
      (WordFeed.ofWords [] 7)).isSome = true := by decide +kernel
  obtain ⟨question, last, unknowns, constants, -, -, left, right, hdraw, -, -, hunknowns,
    hconstants, htext, hhold, -⟩ := draw_conserves_terms rfl (by decide +kernel) hends
  exact ⟨hvalid, question, last, unknowns, constants, left, right, hdraw, hunknowns, hconstants,
    htext, hhold⟩

end Spread

end Question

end EquationPractice
