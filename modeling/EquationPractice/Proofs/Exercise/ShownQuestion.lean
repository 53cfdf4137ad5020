import EquationPractice.Proofs.Exercise.QuestionText
import EquationPractice.Proofs.Exercise.UnitRewriting
import EquationPractice.Proofs.Reading.Recognition
import EquationPractice.Proofs.Reading.Stars

/-!
# Questions as they are shown

A drawn question is shown without its stars, and half of the time without its unit coefficients.
Either way it asks the same: a number right before the name is read as an implicit product, and a
bare name stands for one times the unknown.

## Strategy

Both ways of showing a question are wordings of its terms, so that they are read and solved as their
terms say follows from the one statement about wordings.  What is left is that the two texts are what
becomes of the text of the question: the stars are filtered out character by character, and the
replacement of unit coefficients goes through the result term by term.

## Main definitions

* `Term.shownChars`: a term as it is shown.
* `Wording.shown`: the wording in which a question is shown.
-/

namespace EquationPractice

open Text

/-! ## Terms -/

/-- Whether the term is shown as the bare name of the unknown, but for a sign. -/
def Term.isBare (dropsUnits : Bool) (t : Term) : Bool :=
  dropsUnits && t.ofUnknown && t.coefficient.natAbs == 1

@[simp] theorem Term.isBare_false (t : Term) : t.isBare false = false := rfl

/-- A term as it is shown. -/
def Term.shownChars (name : List Char) (dropsUnits : Bool) (t : Term) : List Char :=
  if t.isBare dropsUnits then (if t.coefficient < 0 then '-' :: name else name)
  else if t.ofUnknown then intChars t.coefficient ++ name
  else intChars t.coefficient

/-- The expression that a shown term is read as. -/
def Term.shownExpr (name : List Char) (dropsUnits : Bool) (t : Term) : Expr :=
  if t.isBare dropsUnits then
    (if t.coefficient < 0 then .neg (.var (String.ofList name)) else .var (String.ofList name))
  else t.expr name

/-! ## Reading -/

section Reading

variable {inner : Reader Expr} {name cs next : List Char} {c : Char}

/-- A number is a maximal literal where a name follows. -/
theorem maximal_natChars (n : Nat) (hname : IsName name) :
    Maximal (fun token => ∃ value, IsLiteral token value) (natChars n) (name ++ next) := by
  have hfree : HeadFree (fun c => c.isDigit || c == '.') (name ++ next) := by
    cases name with
    | nil => exact hname.elim
    | cons first tail =>
        have hpoint : first ≠ '.' := by
          rintro rfl
          exact absurd hname.1 (by decide)
        simp [not_isDigit_of_startsName hname.1, hpoint]
  refine Maximal.of_headFree ⟨_, .whole (natChars_ne_nil n) isDigit_of_mem_natChars⟩ hfree ?_
  rintro c more ⟨value, hlong⟩
  simpa using hlong.digit_or_point c (by simp)

/-- A number right before a name is read as a signed operand. -/
theorem readAs_multiplier (n : Int) (hname : IsName name) :
    ReadAs inner .signed (intChars n) (name ++ next) (.number n) := by
  have hpower : ReadAs inner .power (natChars n.natAbs) (name ++ next) (.number n.natAbs) := by
    have hvalue : IsLiteral (natChars n.natAbs) n.natAbs := by
      rw [← decimalValue_natChars n.natAbs]
      exact .whole (natChars_ne_nil _) isDigit_of_mem_natChars
    exact (readAs_literal gaps_nil hvalue (maximal_natChars _ hname)).base
  have hunsigned : Unsigned (natChars n.natAbs ++ (name ++ next)) :=
    unsigned_digits (natChars_ne_nil _) isDigit_of_mem_natChars
  unfold intChars
  split
  · next hneg =>
      have hvalue : negate (.number n.natAbs) = .number n := by
        rw [negate, ← Int.cast_natCast, Int.ofNat_natAbs_of_nonpos (le_of_lt hneg)]
        simp
      rw [← hvalue]
      exact ReadAs.signed (.minus gaps_nil .none) hunsigned hpower
  · next hnonneg =>
      have hvalue : ((n.natAbs : ℕ) : ℚ) = n := by
        rw [← Int.cast_natCast, Int.natAbs_of_nonneg (not_lt.mp hnonneg)]
      rw [hvalue] at hpower
      exact ReadAs.signed .none hunsigned hpower

/-- A number right before a name is read as a product. -/
theorem spells_multiple (hname : IsName name) (n : Int) :
    Spells (term inner) productOperators (intChars n ++ name)
      (.mul (.number n) (.var (String.ofList name))) := by
  intro rest hrest
  have hmaximal := maximal_name hname hrest.name
  cases name with
  | nil => exact hname.elim
  | cons c tail =>
      have hleft : ReadAs inner .term (intChars n) (c :: (tail ++ rest)) (.number n) :=
        (readAs_multiplier n hname).operand.product
      have hfactor : ReadAs inner .power (c :: tail) rest (.var (String.ofList (c :: tail))) :=
        (readAs_name gaps_nil hmaximal).base
      exact (hleft.factor (.number _) (Or.inl hname.1) hfactor).term hrest.operator
        hrest.not_startsFactor

theorem Term.spells_shown (hname : IsName name) (dropsUnits : Bool) (t : Term) :
    Spells (term inner) productOperators (t.shownChars name dropsUnits)
      (t.shownExpr name dropsUnits) := by
  have hunknown : SpellsTower inner name (.var (String.ofList name)) := (SpellsAtom.name hname).tower
  unfold Term.shownChars Term.shownExpr
  split
  · split
    · exact hunknown.minus.term_of_signed
    · exact hunknown.signed.term_of_signed
  · unfold Term.expr
    split
    · exact spells_multiple hname t.coefficient
    · exact (spells_intChars t.coefficient).term_of_signed

end Reading

/-! ## Reducing -/

section Reducing

variable {name : List Char} {t : Term} {dropsUnits : Bool}

/-- A bare term is one times the unknown, or minus one times. -/
theorem Term.valueAt_of_isBare (hbare : t.isBare dropsUnits = true) (v : ℚ) :
    t.valueAt v = if t.coefficient < 0 then -v else v := by
  simp only [Term.isBare, Bool.and_eq_true, beq_iff_eq] at hbare
  obtain ⟨⟨-, hunknown⟩, hone⟩ := hbare
  rw [Term.valueAt, if_pos hunknown]
  split
  · next hneg =>
      have hcoefficient : t.coefficient = -1 := by omega
      rw [hcoefficient]
      simp
  · next hnonneg =>
      have hcoefficient : t.coefficient = 1 := by omega
      rw [hcoefficient]
      simp

theorem LinearForm.reduces_shown (dropsUnits : Bool) (t : Term) :
    Reduces (String.ofList name) (t.shownExpr name dropsUnits) fun v => t.valueAt v := by
  have hunknown : ofExpr (String.ofList name) (.var (String.ofList name)) = .ok unknown := if_pos rfl
  unfold Term.shownExpr
  split
  · next hbare =>
      simp only [Term.valueAt_of_isBare hbare]
      split
      · exact ⟨_, ofExpr_neg_eq_ok.mpr ⟨_, hunknown, rfl⟩, fun v => by
          rw [valueAt_neg, valueAt_unknown]⟩
      · exact ⟨_, hunknown, valueAt_unknown⟩
  · exact reduces_term t

theorem Term.joinSum_shownExpr (dropsUnits : Bool) (acc : Expr) (t : Term) :
    joinSum acc (t.shownExpr name dropsUnits) = .add acc (t.shownExpr name dropsUnits) := by
  unfold Term.shownExpr
  split
  · split <;> rfl
  · exact Term.joinSum_expr acc t

theorem Term.isBare_magnitude : t.magnitude.isBare dropsUnits = t.isBare dropsUnits := by
  simp only [Term.isBare, Term.magnitude, Int.natAbs_natCast]

theorem Term.shownChars_of_neg (hneg : t.coefficient < 0) :
    t.shownChars name dropsUnits = '-' :: t.magnitude.shownChars name dropsUnits := by
  have hmagnitude : ¬t.magnitude.coefficient < 0 := not_lt.mpr (Int.natCast_nonneg _)
  unfold Term.shownChars
  rw [Term.isBare_magnitude, if_pos hneg, if_neg hmagnitude, intChars_of_neg hneg]
  split
  · rfl
  · split
    · next hunknown => simp [Term.magnitude, hunknown]
    · next hconstant => simp [Term.magnitude, hconstant]

/-- The wording in which a question is shown. -/
def Wording.shown (hname : IsName name) (dropsUnits : Bool) : Wording name where
  chars := Term.shownChars name dropsUnits
  expr := Term.shownExpr name dropsUnits
  spells := fun _ => Term.spells_shown hname dropsUnits
  joinSum_expr := Term.joinSum_shownExpr dropsUnits
  chars_of_neg := fun _ => Term.shownChars_of_neg
  reduces := LinearForm.reduces_shown dropsUnits

end Reducing

/-! ## Dropping the stars -/

section Stars

variable {name : List Char}

theorem star_notMem_intChars (n : Int) : '*' ∉ intChars n := by
  intro hmem
  rcases mem_intChars hmem with hminus | hdigit
  · exact absurd hminus (by decide)
  · exact absurd hdigit (by decide)

theorem Term.starless_chars (hstar : '*' ∉ name) (t : Term) :
    starless (t.chars name) = t.shownChars name false := by
  unfold Term.chars Term.shownChars
  rw [Term.isBare_false, if_neg Bool.false_ne_true]
  split
  · rw [starless_append, starless_star, starless_eq_self (star_notMem_intChars _),
      starless_eq_self hstar]
  · exact starless_eq_self (star_notMem_intChars _)

theorem starless_sideChars (hname : IsName name) (hstar : '*' ∉ name) (terms : List Term) :
    starless (sideChars name terms) = (Wording.shown hname false).sideChars terms := by
  have hlater : ∀ t : Term, starless (t.laterChars name) =
      (Wording.shown hname false).laterChars t := by
    intro t
    unfold Term.laterChars Wording.laterChars
    split
    · exact Term.starless_chars hstar t
    · rw [starless_cons (by decide), Term.starless_chars hstar]
      rfl
  cases terms with
  | nil => rfl
  | cons first rest =>
      rw [sideChars, Wording.sideChars, starless_append, Term.starless_chars hstar,
        starless_flatMap]
      simp only [hlater]
      rfl

/-- The text of a question without its stars is the question as it is shown with all its
coefficients. -/
theorem Question.starless_chars (hname : IsName name) (hstar : '*' ∉ name) (question : Question) :
    starless (question.chars name) = (Wording.shown hname false).questionChars question := by
  rw [Question.chars, Wording.questionChars, starless_append, starless_cons (by decide),
    starless_sideChars hname hstar, starless_sideChars hname hstar]

end Stars

/-! ## Letting in -/

section LettingIn

variable {name : List Char}

/-- Dropping a unit coefficient is all that may happen to a term besides the loss of its star. -/
theorem Term.shownChars_sublist (dropsUnits : Bool) (t : Term) :
    (t.shownChars name dropsUnits).Sublist (t.shownChars name false) := by
  unfold Term.shownChars
  rw [Term.isBare_false, if_neg Bool.false_ne_true]
  split
  · next hbare =>
      simp only [Term.isBare, Bool.and_eq_true] at hbare
      rw [if_pos hbare.1.2]
      split
      · next hneg =>
          rw [intChars_of_neg hneg, List.cons_append]
          exact (List.sublist_append_right _ _).cons_cons _
      · exact List.sublist_append_right _ _
  · exact List.Sublist.refl _

theorem sideChars_shown_sublist (hname : IsName name) (dropsUnits : Bool) (terms : List Term) :
    ((Wording.shown hname dropsUnits).sideChars terms).Sublist
      ((Wording.shown hname false).sideChars terms) := by
  have hlater : ∀ t : Term, ((Wording.shown hname dropsUnits).laterChars t).Sublist
      ((Wording.shown hname false).laterChars t) := by
    intro t
    unfold Wording.laterChars
    split
    · exact Term.shownChars_sublist dropsUnits t
    · exact (Term.shownChars_sublist dropsUnits t).cons_cons _
  cases terms with
  | nil => exact List.Sublist.refl _
  | cons first rest =>
      refine (Term.shownChars_sublist dropsUnits first).append ?_
      induction rest with
      | nil => exact List.Sublist.refl _
      | cons next rest ih =>
          rw [List.flatMap_cons, List.flatMap_cons]
          exact (hlater next).append ih

/-- What is shown of a question are characters of its text, in their order and without stars. -/
theorem Question.shown_sublist (hname : IsName name) (hstar : '*' ∉ name) (dropsUnits : Bool)
    (question : Question) : ((Wording.shown hname dropsUnits).questionChars question).Sublist
      (starless (question.chars name)) := by
  rw [Question.starless_chars hname hstar]
  exact (sideChars_shown_sublist hname dropsUnits question.left).append
    ((sideChars_shown_sublist hname dropsUnits question.right).cons_cons _)

theorem Question.star_notMem_shown (hname : IsName name) (hstar : '*' ∉ name) (dropsUnits : Bool)
    (question : Question) : '*' ∉ (Wording.shown hname dropsUnits).questionChars question :=
  fun hmem => star_notMem_starless _ ((shown_sublist hname hstar dropsUnits question).subset hmem)

/-- A question whose text is not too long is let in as it is shown. -/
theorem Question.checkText_shown (hname : IsName name) (hstar : '*' ∉ name) (dropsUnits : Bool)
    {question : Question} (hlength : (question.chars name).length ≤ maxLength) :
    checkText ((Wording.shown hname dropsUnits).questionChars question) = .ok () := by
  have hsublist := (shown_sublist hname hstar dropsUnits question).trans (starless_sublist _)
  exact checkText_of_plain ⟨'=', by simp [Wording.questionChars], by decide⟩
    (hsublist.length_le.trans hlength) fun c hc => plain_of_mem hname c (hsublist.subset hc)

end LettingIn

/-! ## Dropping the unit coefficients -/

section Units

open Regex

variable {name before rest out : List Char} {t : Term}

theorem isAlphanum_of_isDigit {c : Char} (hdigit : c.isDigit = true) : c.isAlphanum = true :=
  isAlphanum_iff.mpr (Or.inr hdigit)

/-- A number comes out as it is. -/
theorem Unitless.number (hname : IsName name) (hletters : ∀ c ∈ name, c.isAlphanum = true) (n : Nat)
    (hrest : HeadFree Char.isAlphanum rest) (hout : Unitless name (before ++ natChars n) rest out) :
    Unitless name before (natChars n ++ rest) (natChars n ++ out) := by
  refine Unitless.letters hletters (fun c hc => isAlphanum_of_isDigit (isDigit_of_mem_natChars c hc))
    hrest (fun first hsplit => ?_) hout
  -- a unit coefficient ends in a name, which starts with no digit
  cases name with
  | nil => exact hname.elim
  | cons c tail =>
      have hdigit : c.isDigit = true := isDigit_of_mem_natChars c (by rw [hsplit]; simp)
      rw [not_isDigit_of_startsName hname.1] at hdigit
      exact absurd hdigit Bool.false_ne_true

/-- A multiple of the unknown comes out as it is, unless its coefficient is one. -/
theorem Unitless.multiple (hletters : ∀ c ∈ name, c.isAlphanum = true) {n : Nat} (hn : n ≠ 1)
    (hrest : HeadFree Char.isAlphanum rest)
    (hout : Unitless name (before ++ (natChars n ++ name)) rest out) :
    Unitless name before (natChars n ++ name ++ rest) (natChars n ++ name ++ out) := by
  have hword : ∀ c ∈ natChars n ++ name, c.isAlphanum = true := by
    refine List.forall_mem_append.mpr ⟨fun c hc => ?_, hletters⟩
    exact isAlphanum_of_isDigit (isDigit_of_mem_natChars c hc)
  refine Unitless.letters hletters hword hrest (fun first hsplit hfree => ?_) hout
  have hdigits : natChars n = first ++ ['1'] := by
    refine List.append_cancel_right (show natChars n ++ name = first ++ ['1'] ++ name from ?_)
    rw [hsplit, List.append_assoc]
    rfl
  rcases List.eq_nil_or_concat' first with rfl | ⟨earlier, c, rfl⟩
  · exact hn (natChars_injective hdigits)
  · -- a digit stands before the last one
    have hdigit : c.isDigit = true := isDigit_of_mem_natChars c (by rw [hdigits]; simp)
    have hlast := hfree c (by simp)
    simp [hdigit] at hlast

theorem Term.shownChars_constant (n : Nat) (dropsUnits : Bool) :
    Term.shownChars name dropsUnits ⟨n, false⟩ = natChars n := by
  simp [Term.shownChars, Term.isBare, intChars_natCast]

theorem Term.shownChars_multiple {n : Nat} {dropsUnits : Bool}
    (hkept : dropsUnits = false ∨ n ≠ 1) :
    Term.shownChars name dropsUnits ⟨n, true⟩ = natChars n ++ name := by
  have hbare : Term.isBare dropsUnits ⟨n, true⟩ = false := by
    rcases hkept with rfl | hn
    · rfl
    · simp [Term.isBare, hn]
  simp [Term.shownChars, hbare, intChars_natCast]

/-- A term without a sign comes out without its unit coefficient. -/
theorem Unitless.unsigned (hname : IsName name) (hletters : ∀ c ∈ name, c.isAlphanum = true)
    (n : Nat) (ofUnknown : Bool)
    (hbefore : HeadFree (fun c => c.isDigit || c == '.') before.reverse)
    (hrest : HeadFree Char.isAlphanum rest)
    (hout : Unitless name (before ++ Term.shownChars name false ⟨n, ofUnknown⟩) rest out) :
    Unitless name before (Term.shownChars name false ⟨n, ofUnknown⟩ ++ rest)
      (Term.shownChars name true ⟨n, ofUnknown⟩ ++ out) := by
  cases ofUnknown with
  | false =>
      rw [Term.shownChars_constant] at hout ⊢
      rw [Term.shownChars_constant]
      exact Unitless.number hname hletters n hrest hout
  | true =>
      rw [Term.shownChars_multiple (Or.inl rfl)] at hout ⊢
      by_cases hone : n = 1
      · subst hone
        exact Unitless.unit hletters hbefore hrest hout
      · rw [Term.shownChars_multiple (Or.inr hone)]
        exact Unitless.multiple hletters hone hrest hout

theorem Unitless.magnitude (hname : IsName name) (hletters : ∀ c ∈ name, c.isAlphanum = true)
    (t : Term) (hbefore : HeadFree (fun c => c.isDigit || c == '.') before.reverse)
    (hrest : HeadFree Char.isAlphanum rest)
    (hout : Unitless name (before ++ t.magnitude.shownChars name false) rest out) :
    Unitless name before (t.magnitude.shownChars name false ++ rest)
      (t.magnitude.shownChars name true ++ out) :=
  Unitless.unsigned hname hletters t.coefficient.natAbs t.ofUnknown hbefore hrest hout

/-- A term at the beginning of a side. -/
theorem Unitless.first (hname : IsName name) (hletters : ∀ c ∈ name, c.isAlphanum = true) (t : Term)
    (hbefore : HeadFree (fun c => c.isDigit || c == '.') before.reverse)
    (hrest : HeadFree Char.isAlphanum rest)
    (hout : Unitless name (before ++ t.shownChars name false) rest out) :
    Unitless name before (t.shownChars name false ++ rest) (t.shownChars name true ++ out) := by
  by_cases hneg : t.coefficient < 0
  · rw [Term.shownChars_of_neg hneg] at hout ⊢
    rw [Term.shownChars_of_neg hneg]
    refine Unitless.other (by decide) (Unitless.magnitude hname hletters t (by simp) hrest ?_)
    rwa [List.append_assoc]
  · rw [← Term.magnitude_of_nonneg hneg] at hout ⊢
    exact Unitless.magnitude hname hletters t hbefore hrest hout

theorem laterChars_shown (hname : IsName name) (dropsUnits : Bool) (t : Term) :
    (Wording.shown hname dropsUnits).laterChars t =
      (if t.coefficient < 0 then '-' else '+') :: t.magnitude.shownChars name dropsUnits := by
  unfold Wording.laterChars
  by_cases hneg : t.coefficient < 0
  · rw [if_pos hneg, if_pos hneg]
    exact Term.shownChars_of_neg hneg
  · rw [if_neg hneg, if_neg hneg, Term.magnitude_of_nonneg hneg]
    rfl

/-- Terms behind the first one of a side: each of them has a sign in front. -/
theorem Unitless.later (hname : IsName name) (hletters : ∀ c ∈ name, c.isAlphanum = true)
    (terms : List Term) (hrest : HeadFree Char.isAlphanum rest)
    (hout : Unitless name (before ++ terms.flatMap (Wording.shown hname false).laterChars) rest
      out) :
    HeadFree Char.isAlphanum (terms.flatMap (Wording.shown hname false).laterChars ++ rest) ∧
      Unitless name before (terms.flatMap (Wording.shown hname false).laterChars ++ rest)
        (terms.flatMap (Wording.shown hname true).laterChars ++ out) := by
  induction terms generalizing before with
  | nil => exact ⟨hrest, by simpa using hout⟩
  | cons t tail ih =>
      obtain ⟨sign, hsign, hlater⟩ : ∃ sign : Char, (sign = '-' ∨ sign = '+') ∧
          ∀ dropsUnits, (Wording.shown hname dropsUnits).laterChars t =
            sign :: t.magnitude.shownChars name dropsUnits := by
        refine ⟨_, ?_, fun dropsUnits => laterChars_shown hname dropsUnits t⟩
        split <;> simp
      have hsign' : sign.isAlphanum = false ∧ sign.isDigit = false ∧ sign ≠ '.' ∧ sign ≠ '1' := by
        rcases hsign with rfl | rfl <;> decide
      simp only [List.flatMap_cons, hlater, List.cons_append, List.append_assoc] at hout ⊢
      obtain ⟨htailFree, htail⟩ := ih (show Unitless name
        (before ++ sign :: t.magnitude.shownChars name false ++ _) rest out by simpa using hout)
      refine ⟨headFree_cons.mpr hsign'.1, Unitless.other hsign'.2.2.2 ?_⟩
      refine Unitless.magnitude hname hletters t ?_ htailFree ?_
      · simp [hsign'.2]
      · simpa using htail

theorem Unitless.side (hname : IsName name) (hletters : ∀ c ∈ name, c.isAlphanum = true)
    (terms : List Term) (hbefore : HeadFree (fun c => c.isDigit || c == '.') before.reverse)
    (hrest : HeadFree Char.isAlphanum rest)
    (hout : Unitless name (before ++ (Wording.shown hname false).sideChars terms) rest out) :
    Unitless name before ((Wording.shown hname false).sideChars terms ++ rest)
      ((Wording.shown hname true).sideChars terms ++ out) := by
  cases terms with
  | nil => exact Unitless.number hname hletters 0 hrest hout
  | cons first tail =>
      simp only [Wording.sideChars, List.append_assoc] at hout ⊢
      obtain ⟨htailFree, htail⟩ := Unitless.later hname hletters tail hrest
        (show Unitless name (before ++ (Wording.shown hname false).chars first ++ _) rest out by
          simpa using hout)
      exact Unitless.first hname hletters first hbefore htailFree htail

/-- Without its unit coefficients, a question is the question as it is shown without them. -/
theorem Question.replaceAll_unit (hname : IsName name)
    (hletters : ∀ c ∈ name, c.isAlphanum = true) (question : Question) :
    (unit name).replaceAll name ((Wording.shown hname false).questionChars question) =
      (Wording.shown hname true).questionChars question := by
  have hright : ∀ before, HeadFree (fun c => c.isDigit || c == '.') before.reverse →
      Unitless name before ((Wording.shown hname false).sideChars question.right)
        ((Wording.shown hname true).sideChars question.right) := by
    intro before hbefore
    have hside := Unitless.side hname hletters question.right hbefore headFree_nil Unitless.nil
    simpa using hside
  refine Rewrites.replaceAll ?_
  refine Unitless.side hname hletters question.left headFree_nil (headFree_cons.mpr (by decide)) ?_
  refine Unitless.other (by decide) (hright _ ?_)
  simp

end Units

end EquationPractice
