import EquationPractice.Program.Quiz
import EquationPractice.Proofs.Exercise.Acceptance
import EquationPractice.Proofs.Exercise.Generation
import EquationPractice.Proofs.Exercise.PressedAnswers

/-!
# The revealed answer is accepted

When an answer is wrong, the right one is revealed: a rational number in lowest terms, or the label of
a special answer in the language of the quiz.  Typed as an answer, that text is accepted.

## Strategy

A rational number in lowest terms is written like a typed number, so what remains are two things that
the way it is written does not say.  It must not be too long: its numerator and denominator divide the
constant and the coefficient of the drawn equation, which are sums of at most forty small numbers.  And
it must not be taken for a special answer: all of those are named by words, and there is no letter in
it.  A label is among the typed forms of its special answer, of which the two special answers share
none.

## Main definitions

* `TypedNumber.ofRat`: a rational number in lowest terms as a typed number.
-/

namespace EquationPractice

open Text

/-! ## Rational numbers as typed numbers -/

/-- The sign that is written before the digits of an integer. -/
def Sign.ofInt? (n : ℤ) : Option Sign :=
  if n < 0 then some .minus else none

/-- The absolute value of a rational number in lowest terms, as the body of a typed number. -/
def TypedBody.ofRat (q : ℚ) : TypedBody :=
  if q.den = 1 then .integer (natChars q.num.natAbs)
  else .quotient (.bare (natChars q.num.natAbs)) (.bare (natChars q.den))

/-- A rational number in lowest terms as a typed number. -/
def TypedNumber.ofRat (q : ℚ) : TypedNumber :=
  ⟨Sign.ofInt? q.num, .ofRat q⟩

theorem intChars_eq (n : ℤ) :
    intChars n = Sign.optionalChars (Sign.ofInt? n) ++ natChars n.natAbs := by
  unfold intChars Sign.ofInt?
  split <;> rfl

theorem digitsValue_natChars (n : Nat) : digitsValue (natChars n) = n := by
  rw [digitsValue, natChars, Nat.ofDigitChars_ten_toDigits]

theorem isRun_natChars (n : Nat) : IsRun Char.isDigit (natChars n) :=
  ⟨natChars_ne_nil n, isDigit_of_mem_natChars⟩

namespace TypedNumber

variable (q : ℚ)

theorem chars_ofRat : (ofRat q).chars = ratChars q := by
  unfold ratChars
  rw [intChars_eq, chars, ofRat, TypedBody.ofRat]
  split
  · rfl
  · rw [List.append_assoc]
    rfl

theorem writtenIn_ofRat : (ofRat q).WrittenIn Char.isDigit := by
  intro run hrun
  rw [ofRat, TypedBody.ofRat] at hrun
  split at hrun
  · obtain rfl := List.mem_singleton.mp hrun
    exact isRun_natChars _
  · simp only [TypedBody.runs, TypedSide.digits, List.mem_cons, List.not_mem_nil, or_false] at hrun
    rcases hrun with rfl | rfl
    · exact isRun_natChars _
    · exact isRun_natChars _

theorem denominator_ofRat : (ofRat q).body.denominator = q.den := by
  rw [ofRat, TypedBody.ofRat]
  split
  · next hden => simp [TypedBody.denominator, hden]
  · simp [TypedBody.denominator, TypedSide.value, digitsValue_natChars]

theorem value_ofRat : (ofRat q).value = q := by
  have hbody : (TypedBody.ofRat q).value = q.num.natAbs / q.den := by
    unfold TypedBody.ofRat
    split
    · next hden => simp [TypedBody.value, digitsValue_natChars, hden]
    · simp [TypedBody.value, TypedSide.value, digitsValue_natChars]
  have hsign : Sign.applyOptional (Sign.ofInt? q.num) q.num.natAbs = q.num := by
    unfold Sign.ofInt?
    split
    · next hneg => simp [Sign.applyOptional, Sign.apply, abs_of_neg hneg]
    · next hnonneg => simp [Sign.applyOptional, abs_of_nonneg (not_lt.mp hnonneg)]
  calc (ofRat q).value = Sign.applyOptional (Sign.ofInt? q.num) (q.num.natAbs / q.den) := by
        rw [← hbody, value, ofRat]
    _ = q.num / q.den := by rw [← applyOptional_div, hsign]
    _ = q := Rat.num_div_den q

end TypedNumber

/-! ## Short numbers -/

/-- The sum of some terms, as a multiple of the unknown and a constant. -/
theorem exists_valueAt_sum {terms : List Term} (hsmall : ∀ t ∈ terms, |t.coefficient| < 100) :
    ∃ a b : ℤ, |a| ≤ 100 * terms.length ∧ |b| ≤ 100 * terms.length ∧
      ∀ v : ℚ, (terms.map (Term.valueAt v)).sum = a * v + b := by
  induction terms with
  | nil => exact ⟨0, 0, by simp, by simp, by simp⟩
  | cons t rest ih =>
      obtain ⟨a, b, ha, hb, hsum⟩ := ih fun u hu => hsmall u (List.mem_cons_of_mem _ hu)
      have ht := hsmall t List.mem_cons_self
      rw [abs_le] at ha hb
      rw [abs_lt] at ht
      cases hunknown : t.ofUnknown with
      | true =>
          refine ⟨t.coefficient + a, b, ?_, ?_, fun v => ?_⟩
          · rw [abs_le, List.length_cons]
            push_cast
            omega
          · rw [abs_le, List.length_cons]
            push_cast
            omega
          · rw [List.map_cons, List.sum_cons, hsum, Term.valueAt, if_pos hunknown]
            push_cast
            ring
      | false =>
          refine ⟨a, t.coefficient + b, ?_, ?_, fun v => ?_⟩
          · rw [abs_le, List.length_cons]
            push_cast
            omega
          · rw [abs_le, List.length_cons]
            push_cast
            omega
          · rw [List.map_cons, List.sum_cons, hsum, Term.valueAt, if_neg (by simp [hunknown])]
            push_cast
            ring

/-- A drawn equation has the form `a * v + b = 0` with a coefficient and a constant of four digits at
most. -/
theorem Question.exists_holdsAt_iff {question : Question}
    (hsmall : ∀ t ∈ question.left ++ question.right, |t.coefficient| < 100)
    (hlength : (question.left ++ question.right).length ≤ 40) :
    ∃ a b : ℤ, |a| ≤ 4000 ∧ |b| ≤ 4000 ∧ ∀ v : ℚ, question.HoldsAt v ↔ a * v + b = 0 := by
  obtain ⟨a, b, ha, hb, hleft⟩ :=
    exists_valueAt_sum fun t ht => hsmall t (List.mem_append_left _ ht)
  obtain ⟨c, d, hc, hd, hright⟩ :=
    exists_valueAt_sum fun t ht => hsmall t (List.mem_append_right _ ht)
  rw [List.length_append] at hlength
  rw [abs_le] at ha hb hc hd
  refine ⟨a - c, b - d, ?_, ?_, fun v => ?_⟩
  · rw [abs_le]
    omega
  · rw [abs_le]
    omega
  · rw [Question.HoldsAt, hleft, hright, ← sub_eq_zero]
    push_cast
    ring_nf

/-- The only root of an equation in lowest terms: its numerator divides the constant, and its
denominator the coefficient. -/
theorem bounds_of_only_root {a b : ℤ} {q : ℚ} (honly : ∀ v : ℚ, v = q ↔ a * v + b = 0) :
    q.num.natAbs ≤ b.natAbs ∧ q.den ≤ a.natAbs := by
  have hroot : (a : ℚ) * q + b = 0 := (honly q).mp rfl
  have ha : a ≠ 0 := by
    rintro rfl
    -- without the unknown, the equation holds for all numbers or for none
    have hnext := (honly (q + 1)).mpr (by simpa using hroot)
    simp at hnext
  have hq : q = Rat.divInt (-b) a := by
    rw [Rat.divInt_eq_div, eq_div_iff (Int.cast_ne_zero.mpr ha)]
    push_cast
    linarith
  constructor
  · have hnum : q.num ∣ -b := hq ▸ Rat.num_dvd (-b) ha
    by_cases hb : b = 0
    · have hzero : q = 0 := by rw [hq, hb, neg_zero, Rat.zero_divInt]
      simp [hzero]
    · rw [dvd_neg] at hnum
      exact Nat.le_of_dvd (Int.natAbs_pos.mpr hb) (Int.natAbs_dvd_natAbs.mpr hnum)
  · have hden : (q.den : ℤ) ∣ a := hq ▸ Rat.den_dvd (-b) a
    exact Nat.le_of_dvd (Int.natAbs_pos.mpr ha) (Int.natCast_dvd.mp hden)

/-- A rational number with a numerator and a denominator of four digits at most is short. -/
theorem length_ratChars_le {q : ℚ} (hnum : q.num.natAbs ≤ 4000) (hden : q.den ≤ 4000) :
    (ratChars q).length ≤ 10 := by
  have hnum : (natChars q.num.natAbs).length ≤ 4 :=
    Nat.toDigits_length 10 q.num.natAbs 4 (by decide) (by omega)
  have hden : (natChars q.den).length ≤ 4 := Nat.toDigits_length 10 q.den 4 (by decide) (by omega)
  have hint : (intChars q.num).length ≤ 5 := by
    unfold intChars
    split
    · rw [List.length_cons]
      omega
    · omega
  unfold ratChars
  split
  · omega
  · rw [List.length_append, List.length_cons]
    omega

/-! ## Texts without letters -/

/-- The characters of numbers in lowest terms. -/
def isNumeral (c : Char) : Bool :=
  c.isDigit || (c == '-' || c == '/')

theorem isNumeral_of_mem_ratChars {q : ℚ} : ∀ c ∈ ratChars q, isNumeral c = true := by
  have hint : ∀ c ∈ intChars q.num, isNumeral c = true := by
    intro c hc
    rcases mem_intChars hc with rfl | hdigit
    · decide
    · simp [isNumeral, hdigit]
  intro c hc
  unfold ratChars at hc
  split at hc
  · exact hint c hc
  · rcases List.mem_append.mp hc with hc | hc
    · exact hint c hc
    · rcases List.mem_cons.mp hc with rfl | hc
      · decide
      · simp [isNumeral, isDigit_of_mem_natChars c hc]

theorem not_isBlank_of_isNumeral {c : Char} (hc : isNumeral c = true) : isBlank c = false := by
  simp only [isNumeral, Bool.or_eq_true, beq_iff_eq] at hc
  rcases hc with hdigit | rfl | rfl
  · exact not_isBlank_of_continuesName (continuesName_of_isDigit hdigit)
  · decide
  · decide

theorem toNat_lt_of_isNumeral {c : Char} (hc : isNumeral c = true) : c.toNat < 58 := by
  simp only [isNumeral, Bool.or_eq_true, isDigit_iff, beq_iff_eq] at hc
  rcases hc with hdigit | rfl | rfl
  · omega
  · decide
  · decide

variable {cs : List Char}

theorem dropWhile_eq_self {p : Char → Bool} (hcs : ∀ c ∈ cs, p c = false) : cs.dropWhile p = cs := by
  have hfree : HeadFree p cs := fun c hc => hcs c (List.mem_of_mem_head? hc)
  have hnone : ∀ c ∈ ([] : List Char), p c = true := fun _ hc => absurd hc List.not_mem_nil
  exact dropWhile_append_of_headFree hnone hfree

theorem trim_eq_self (hcs : ∀ c ∈ cs, isBlank c = false) : trim cs = cs := by
  rw [trim, trimEnd, dropWhile_eq_self hcs, dropWhile_eq_self (by simpa using hcs),
    List.reverse_reverse]

theorem dropFinalPoints_eq_self (hcs : ∀ c ∈ cs, c ≠ '.') : dropFinalPoints cs = cs := by
  rw [dropFinalPoints, dropWhile_eq_self (by simpa using hcs), List.reverse_reverse]

/-- The first capital letter is the A. -/
theorem lowerChar_eq_self {c : Char} (hc : c.toNat < 65) : lowerChar c = [c] := by
  have hrows : ∀ row ∈ lowerRows, 65 ≤ row.first := by decide +kernel
  have hnone : lowerRows.find? (·.covers c.toNat) = none := by
    rw [List.find?_eq_none]
    intro row hrow hcovers
    simp only [ShiftRow.covers, Bool.and_eq_true, decide_eq_true_eq] at hcovers
    exact absurd (hrows row hrow) (by omega)
  rw [lowerChar, if_neg (by simp; omega), shifted, hnone, Char.ofNat_toNat]

theorem lowerCase_eq_self (hcs : ∀ c ∈ cs, c.toNat < 65) : lowerCase cs = cs := by
  have hafter : ∀ cased, lowerAfter cased cs = cs := by
    induction cs with
    | nil => exact fun _ => rfl
    | cons c rest ih =>
        intro cased
        have hc := hcs c List.mem_cons_self
        rw [lowerAfter, if_neg (by simp; omega), lowerChar_eq_self hc,
          ih fun d hd => hcs d (List.mem_cons_of_mem _ hd)]
        rfl
  exact hafter false

/-- A number in lowest terms is not taken for a special answer, as all of those are named by words. -/
theorem ofTyped?_ratText (q : ℚ) : SpecialAnswer.ofTyped? (ratText q) = none := by
  have hnumeral := isNumeral_of_mem_ratChars (q := q)
  have hsmall : ∀ c ∈ ratChars q, c.toNat < 58 := fun c hc => toNat_lt_of_isNumeral (hnumeral c hc)
  have hwanted : lowerCase (dropFinalPoints (trim (ratText q).toList)) = ratChars q := by
    rw [ratText, String.toList_ofList,
      trim_eq_self fun c hc => not_isBlank_of_isNumeral (hnumeral c hc),
      dropFinalPoints_eq_self fun c hc hpoint => ?_,
      lowerCase_eq_self fun c hc => (hsmall c hc).trans (by decide)]
    subst hpoint
    exact absurd (hnumeral '.' hc) (by decide)
  have hforms : ∀ kind : SpecialAnswer, ∀ form ∈ kind.typedForms,
      (form.any fun c => decide (58 ≤ c.toNat)) = true := by
    intro kind
    cases kind <;> decide
  simp only [SpecialAnswer.ofTyped?, hwanted, List.find?_eq_none, decide_eq_true_eq]
  intro kind _ hform
  obtain ⟨c, hc, hlarge⟩ := List.any_eq_true.mp (hforms kind _ hform)
  exact absurd (hsmall c hc) (not_lt.mpr (of_decide_eq_true hlarge))

theorem trim_label (kind : SpecialAnswer) (locale : Locale) :
    trim (kind.label.textIn locale).toList = (kind.label.textIn locale).toList := by
  cases kind <;> cases locale <;> decide

/-- No text is a typed form of both special answers: their typed forms have other first letters. -/
theorem ne_of_mem_typedForms : ∀ form ∈ SpecialAnswer.anyNumber.typedForms,
    ∀ other ∈ SpecialAnswer.noSolution.typedForms, form ≠ other := by
  have hheads : ∀ form ∈ SpecialAnswer.anyNumber.typedForms,
      ∀ other ∈ SpecialAnswer.noSolution.typedForms, form.head? ≠ other.head? := by decide
  exact fun form hform other hother heq => hheads form hform other hother (congrArg _ heq)

/-- A typed form of a special answer is taken for that one. -/
theorem ofTyped?_of_mem_typedForms {kind : SpecialAnswer} {text : String}
    (hform : lowerCase (dropFinalPoints (trim text.toList)) ∈ kind.typedForms) :
    SpecialAnswer.ofTyped? text = some kind := by
  cases kind with
  | anyNumber => simp only [SpecialAnswer.ofTyped?, SpecialAnswer.all, List.find?_cons, hform,
      decide_true]
  | noSolution =>
      have hother : lowerCase (dropFinalPoints (trim text.toList)) ∉
          SpecialAnswer.anyNumber.typedForms :=
        fun hmem => ne_of_mem_typedForms _ hmem _ hform rfl
      simp only [SpecialAnswer.ofTyped?, SpecialAnswer.all, List.find?_cons, hform, hother,
        decide_true, decide_false]

/-- Every label is taken for the special answer that it belongs to, whatever the language. -/
theorem ofTyped?_label (kind : SpecialAnswer) (locale : Locale) :
    SpecialAnswer.ofTyped? (kind.label.textIn locale) = some kind := by
  have hlocale : locale ∈ Locale.all := by cases locale <;> decide
  refine ofTyped?_of_mem_typedForms ?_
  rw [trim_label]
  exact List.mem_cons_of_mem _ (List.mem_map_of_mem hlocale)

/-- The name of a special answer is not taken for it: it is written with a line below. -/
theorem ofTyped?_name (kind : SpecialAnswer) : SpecialAnswer.ofTyped? kind.name = none := by
  cases kind <;> decide

/-! ## Revealed answers -/

namespace Answer

variable {outcome : Outcome} {locale : Locale}

theorem ofTyped?_reveal {kind : SpecialAnswer} :
    SpecialAnswer.ofTyped? ((ofOutcome outcome).reveal locale) = some kind ↔
      ofOutcome outcome = .special kind := by
  cases outcome with
  | root q =>
      have hnone : SpecialAnswer.ofTyped? ((ofOutcome (.root q)).reveal locale) = none :=
        ofTyped?_ratText q
      rw [hnone]
      simp [ofOutcome]
  | special other =>
      simp only [ofOutcome, reveal, ofTyped?_label, Option.some.injEq, special.injEq]

theorem trim_reveal : trim ((ofOutcome outcome).reveal locale).toList =
    ((ofOutcome outcome).reveal locale).toList := by
  cases outcome with
  | root q =>
      have hchars : ((ofOutcome (.root q)).reveal locale).toList = ratChars q := by
        simp [ofOutcome, reveal, Expr.text, Expr.chars]
      rw [hchars]
      exact trim_eq_self fun c hc => not_isBlank_of_isNumeral (isNumeral_of_mem_ratChars c hc)
  | special kind => exact trim_label kind locale

end Answer

namespace Exercise

variable {settings : Settings} {question latex name : String} {outcome : Outcome} {locale : Locale}

/-- A special answer is accepted where it is expected. -/
theorem accepts_pressed {kind : SpecialAnswer} : standardJudge.accepts
    (.single name (.pressed kind)) (.single name (.special kind)) allowedSpecials [] = true := by
  have hallowed : kind ∈ allowedSpecials := by cases kind <;> decide
  simp [Judge.accepts, Slots.single, Judge.acceptsFrom, Judge.letThrough?_pressed, hallowed,
    Judge.fits, Slots.get?, Judge.isRight]

/-- A short number in lowest terms is accepted where it is expected. -/
theorem accepts_ratText {q : ℚ} (hlength : (ratChars q).length ≤ maxLength) :
    (Exercise.mk settings question latex
      (.single settings.unknownName (.ofOutcome (.root q))) standardJudge).accepts
        (.single settings.unknownName (.typed (ratText q))) = true := by
  have htext : (ratText q).toList = (TypedNumber.ofRat q).chars := by
    rw [TypedNumber.chars_ofRat, ratText, String.toList_ofList]
  refine accepts_single.mpr ⟨_, letThrough?_typed.mpr ⟨.ofRat q, TypedNumber.writtenIn_ofRat q,
    htext, ?_, rfl⟩, ?_⟩
  · rwa [← String.length_toList, ratText, String.toList_ofList]
  · rw [isRight_expr, TypedNumber.denominator_ofRat, TypedNumber.value_ofRat]
    exact ⟨Nat.cast_ne_zero.mpr q.den_nz, q, rfl, Or.inl (by simp)⟩

/-- The revealed answer is accepted when it is a special answer or a short number. -/
theorem isAnsweredBy_reveal (hshort : ∀ q, outcome = .root q → (ratChars q).length ≤ maxLength) :
    (Exercise.mk settings question latex
      (.single settings.unknownName (.ofOutcome outcome)) standardJudge).isAnsweredBy
        ((Answer.ofOutcome outcome).reveal locale) = true := by
  rw [isAnsweredBy, Answer.trim_reveal, String.ofList_toList, readTyped]
  cases outcome with
  | root q =>
      have hnone : SpecialAnswer.ofTyped? ((Answer.ofOutcome (.root q)).reveal locale) = none :=
        ofTyped?_ratText q
      rw [hnone]
      exact accepts_ratText (hshort q rfl)
  | special kind =>
      rw [Answer.ofTyped?_reveal.mpr rfl]
      exact accepts_pressed

variable {σ : Type} [WordSource σ] {attempts : Nat} {catalogue : Catalogue} {source : σ}

/-- **The answer that a quiz reveals is the answer that it accepts.**  For all valid settings, every
source on which the draws of a question end, and every language: typed in, the text in which the
answer expected of the drawn exercise is revealed is judged right.  It is taken for a special answer
exactly when that special answer is expected. -/
theorem generate_accepts_revealed (hvalid : settings.validate = .ok ())
    (hcatalogue : Catalogue.standard = .ok catalogue)
    (hends : ((Question.draw attempts settings : Draw σ SamplingError Question).outcome
      source).isSome = true) (locale : Locale) :
    ∃ exercise last answer,
      (generate attempts settings catalogue).outcome source = some (.ok exercise, last) ∧
      exercise.expected.entries = [(settings.unknownName, answer)] ∧
      exercise.revealed locale = answer.reveal locale ∧
      exercise.isAnsweredBy (answer.reveal locale) = true ∧
      ∀ kind, SpecialAnswer.ofTyped? (answer.reveal locale) = some kind ↔
        answer = .special kind := by
  obtain rfl := Except.ok.inj (Catalogue.standard_eq_ok.symm.trans hcatalogue)
  obtain ⟨hname, hunknown, hconstant⟩ := Settings.bounds_of_validate hvalid
  obtain ⟨question, mid, hdraw, hfits⟩ := (Question.yields_draw attempts settings).of_isSome hends
  obtain ⟨outcome, body, last, hadmits, -, hgenerate⟩ := generate_of_drop hvalid hdraw hfits
  refine ⟨_, last, .ofOutcome outcome, hgenerate, rfl, ?_, ?_, fun kind => Answer.ofTyped?_reveal⟩
  · rfl
  · refine isAnsweredBy_reveal fun q hroot => ?_
    subst hroot
    obtain ⟨a, b, ha, hb, hholds⟩ :=
      Question.exists_holdsAt_iff hfits.small (hfits.length_le hunknown hconstant)
    obtain ⟨hnum, hden⟩ := bounds_of_only_root fun v => (hadmits v).trans (hholds v)
    rw [abs_le] at ha hb
    exact (length_ratChars_le (by omega) (by omega)).trans (by decide)

theorem generate_accepts_revealed_greek :
    (Settings.mk .hard "ex" 1 1).validate = .ok () ∧
    Catalogue.standard = .ok (.ofForms StandardForm.all) ∧
    ((Question.draw 8 ⟨.hard, "ex", 1, 1⟩ : Draw WordFeed SamplingError Question).outcome
      (WordFeed.ofWords [] 7)).isSome = true ∧
    ∃ (exercise : Exercise) (last : WordFeed) (answer : Answer),
      (generate 8 ⟨.hard, "ex", 1, 1⟩ (.ofForms StandardForm.all)).outcome
        (WordFeed.ofWords [] 7) = some (.ok exercise, last) ∧
      exercise.expected.entries = [("ex", answer)] ∧
      exercise.isAnsweredBy (answer.reveal .greek) = true ∧
      ∀ kind, SpecialAnswer.ofTyped? (answer.reveal .greek) = some kind ↔
        answer = .special kind := by
  have hvalid : (Settings.mk .hard "ex" 1 1).validate = .ok () := by decide
  have hends : ((Question.draw 8 ⟨.hard, "ex", 1, 1⟩ : Draw WordFeed SamplingError Question).outcome
      (WordFeed.ofWords [] 7)).isSome = true := by decide
  obtain ⟨exercise, last, answer, hgenerate, hexpected, -, hanswered, hspecial⟩ :=
    generate_accepts_revealed hvalid Catalogue.standard_eq_ok hends .greek
  exact ⟨hvalid, Catalogue.standard_eq_ok, hends, exercise, last, answer, hgenerate, hexpected,
    hanswered, hspecial⟩

end Exercise

end EquationPractice
