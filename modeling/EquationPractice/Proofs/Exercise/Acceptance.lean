import EquationPractice.Proofs.Exercise.Built
import EquationPractice.Proofs.Exercise.TypedForms
import EquationPractice.Proofs.Reading.Consumption

/-!
# The language of accepted answers

Three filters stand before a typed answer: no two operators in a row, one of the permitted forms,
and being an expression at all.  Together they let through exactly the typed numbers in ASCII digits
that are not too long.  Such an answer is right when it lies within the tolerance of the number
expected.

## Strategy

Digits of other scripts have the form of an answer but are never read, since a reader takes nothing
but ASCII characters.  That no two operators stand in a row follows from the form.
-/

namespace EquationPractice

open Text StandardForm

/-! ## Digits of other scripts -/

theorem isDigit_of_isDecimalDigit {c : Char} (hdigit : isDecimalDigit c = true)
    (hascii : c.toNat < 128 ∨ isBlank c = true) : c.isDigit = true := by
  by_cases hsmall : c.toNat < 128
  · simpa [isDecimalDigit, hsmall] using hdigit
  · -- the blanks outside ASCII, none of which is a digit of any script
    have hnone : ∀ n ∈ [0x85, 0xA0, 0x1680, 0x2000, 0x2001, 0x2002, 0x2003, 0x2004, 0x2005, 0x2006,
        0x2007, 0x2008, 0x2009, 0x200A, 0x2028, 0x2029, 0x202F, 0x205F, 0x3000],
        inRanges digitRanges n = false := by
      decide
    have hblank := hascii.resolve_left hsmall
    simp only [isBlank, Bool.or_eq_true, Bool.and_eq_true, decide_eq_true_eq, beq_iff_eq] at hblank
    have hmem := hnone c.toNat (by simp only [List.mem_cons, List.not_mem_nil]; omega)
    simp [isDecimalDigit, hsmall, hmem] at hdigit

/-! ## Operators in a row -/

/-- The text starts with no operator, and no two stand in a row in it. -/
structure Operand (cs : List Char) : Prop where
  head : HeadFree operators.contains cs
  none : NoneInRow cs

variable {cs rest : List Char}

theorem Operand.after (hoperand : Operand cs) (c : Char) : NoneInRow (c :: cs) :=
  List.isChain_cons.mpr ⟨fun d hd _ => hoperand.head d hd, hoperand.none⟩

theorem operand_cons {c : Char} (hc : operators.contains c = false) (hrest : NoneInRow rest) :
    Operand (c :: rest) := by
  refine ⟨headFree_cons.mpr hc, List.isChain_cons.mpr ⟨fun d _ hoperator => ?_, hrest⟩⟩
  rw [hc] at hoperator
  exact absurd hoperator (by simp)

theorem not_operator_of_continuesName {c : Char} (hc : continuesName c = true) :
    operators.contains c = false := by
  rw [Bool.eq_false_iff]
  intro hoperator
  simp only [operators, CharSet.contains, Bool.or_eq_true, beq_iff_eq] at hoperator
  rcases hoperator with ((rfl | rfl) | rfl) | rfl
  all_goals exact absurd hc (by decide)

/-- Letters and digits keep operators apart. -/
theorem operand_word (hword : IsRun continuesName cs) (hrest : NoneInRow rest) :
    Operand (cs ++ rest) := by
  obtain ⟨hne, hall⟩ := hword
  induction cs with
  | nil => exact absurd rfl hne
  | cons c tail ih =>
      refine operand_cons (not_operator_of_continuesName (hall c List.mem_cons_self)) ?_
      cases tail with
      | nil => exact hrest
      | cons d more =>
          exact (ih (by simp) fun e he => hall e (List.mem_cons_of_mem _ he)).none

theorem operand_digits {digits : List Char} (hrun : IsRun Char.isDigit digits)
    (hrest : NoneInRow rest) : Operand (digits ++ rest) :=
  operand_word ⟨hrun.1, fun c hc => continuesName_of_isDigit (hrun.2 c hc)⟩ hrest

theorem operand_side {side : TypedSide} (hrun : IsRun Char.isDigit side.digits)
    (hrest : NoneInRow rest) : Operand (side.chars ++ rest) := by
  cases side with
  | bare digits => exact operand_digits hrun hrest
  | enclosed sign digits =>
      have hclosed : Operand (')' :: rest) := operand_cons (by decide) hrest
      have hdigits : Operand (digits ++ ')' :: rest) := operand_digits hrun hclosed.none
      have hchars : (TypedSide.enclosed sign digits).chars ++ rest =
          '(' :: sign.char :: (digits ++ ')' :: rest) := by
        simp [TypedSide.chars]
      rw [hchars]
      exact operand_cons (by decide) (hdigits.after sign.char)

theorem operand_body {body : TypedBody} (hwritten : ∀ run ∈ body.runs, IsRun Char.isDigit run) :
    Operand body.chars := by
  have hnil : NoneInRow [] := List.isChain_nil
  cases body with
  | integer digits =>
      have hdigits := operand_digits (hwritten digits (by simp [TypedBody.runs])) hnil
      rwa [List.append_nil] at hdigits
  | decimal whole fraction =>
      have hfraction := operand_digits (hwritten fraction (by simp [TypedBody.runs])) hnil
      rw [List.append_nil] at hfraction
      exact operand_digits (hwritten whole (by simp [TypedBody.runs]))
        (operand_cons (by decide) hfraction.none).none
  | quotient top bottom =>
      have hbottom := operand_side (hwritten bottom.digits (by simp [TypedBody.runs])) hnil
      rw [List.append_nil] at hbottom
      exact operand_side (hwritten top.digits (by simp [TypedBody.runs])) (hbottom.after '/')

theorem noneInRow_chars {number : TypedNumber} (hwritten : number.WrittenIn Char.isDigit) :
    NoneInRow number.chars := by
  obtain ⟨sign, body⟩ := number
  have hbody := operand_body hwritten
  cases sign with
  | none => exact hbody.none
  | some sign => exact hbody.after sign.char

/-! ## Letting through -/

/-- A typed number that is read is written in ASCII digits. -/
theorem TypedNumber.writtenIn_of_parse {number : TypedNumber} {e : Expr}
    (hwritten : number.WrittenIn isDecimalDigit) (hread : parseChars number.chars = .ok e) :
    number.WrittenIn Char.isDigit := by
  intro run hrun
  refine ⟨(hwritten run hrun).1, fun c hc => ?_⟩
  refine isDigit_of_isDecimalDigit ((hwritten run hrun).2 c hc) ?_
  exact (parseChars_eq_ok hread).2 c (number.mem_chars_of_mem_runs hrun hc)

/-- The typed texts that are let through are the typed numbers in ASCII digits that are not too
long. -/
theorem letThrough?_typed {allowed : List SpecialAnswer} {text : String} {answer : Answer} :
    Exercise.standardJudge.letThrough? allowed (.typed text) = some answer ↔
      ∃ number : TypedNumber, number.WrittenIn Char.isDigit ∧ text.toList = number.chars ∧
        text.length ≤ maxLength ∧ answer = .value number.expr := by
  have hforms : Exercise.standardJudge.permitsForm text = true ↔ _ := permitsForm_iff rfl
  have hlength : text.length = text.toList.length := String.length_toList.symm
  simp only [Judge.letThrough?]
  constructor
  · intro hlet
    split at hlet
    · exact absurd hlet (by simp)
    · next hfilters =>
        simp only [Bool.or_eq_true, Bool.not_eq_true', not_or, Bool.not_eq_false] at hfilters
        obtain ⟨number, hwritten, htext⟩ := hforms.mp hfilters.2
        split at hlet
        · next e hread =>
            -- what is read is ASCII, so the digits of the form are ASCII digits
            have hchars : parseChars number.chars = .ok e := by rwa [parse, htext] at hread
            have hascii := TypedNumber.writtenIn_of_parse hwritten hchars
            have hcheck := checkText_eq_ok.mp (parseChars_eq_ok hchars).1
            have hparsed := TypedNumber.parseChars_chars hascii hcheck.2.1
            obtain rfl : number.expr = e := Except.ok.inj (hparsed.symm.trans hchars)
            refine ⟨number, hascii, htext, ?_, (Option.some.inj hlet).symm⟩
            rw [hlength, htext]
            exact hcheck.2.1
        · exact absurd hlet (by simp)
  · rintro ⟨number, hwritten, htext, hle, rfl⟩
    rw [hlength, htext] at hle
    have hadjacent : Exercise.standardJudge.adjacentOperators.isFoundIn text = false :=
      not_isFoundIn_of_noneInRow (htext ▸ noneInRow_chars hwritten)
    -- ASCII digits are decimal digits, so the number has a permitted form
    have hdecimal : number.WrittenIn isDecimalDigit := fun run hrun =>
      ⟨(hwritten run hrun).1, fun c hc => isDecimalDigit_of_isDigit ((hwritten run hrun).2 c hc)⟩
    have hform : Exercise.standardJudge.permitsForm text = true :=
      hforms.mpr ⟨number, hdecimal, htext⟩
    have hread : parse text = .ok number.expr := by
      rw [parse, htext]
      exact TypedNumber.parseChars_chars hwritten hle
    simp [hadjacent, hform, hread]

/-! ## Tolerance -/

theorem rat_abs_eq (q : ℚ) : q.abs = |q| := by
  rcases le_total 0 q with hnonneg | hnonpos
  · rw [Rat.abs_of_nonneg hnonneg, abs_of_nonneg hnonneg]
  · rw [Rat.abs_of_nonpos hnonpos, abs_of_nonpos hnonpos]

/-- Two numbers agree when they differ by a thousandth at most, or by a thousandth of the larger one
at most. -/
theorem agree_iff (a b : ℚ) : Exercise.standardJudge.agree a b = true ↔
    |a - b| ≤ 1 / 1000 ∨ |a - b| ≤ max |a| |b| / 1000 := by
  have htolerance : Exercise.standardJudge.tolerance = 1 / 1000 := by
    change mkRat 1 1000 = 1 / 1000
    norm_num [Rat.mkRat_eq_div]
  simp only [Judge.agree, rat_abs_eq, htolerance, Bool.or_eq_true, decide_eq_true_eq, max_def]
  rw [one_div_mul_eq_div]

/-- A typed number is right when it has a value that agrees with the number expected. -/
theorem isRight_expr (number : TypedNumber) (outcome : Outcome) :
    Exercise.standardJudge.isRight (.value number.expr) (.ofOutcome outcome) = true ↔
      number.body.denominator ≠ 0 ∧ ∃ q, outcome = .root q ∧
        (|number.value - q| ≤ 1 / 1000 ∨ |number.value - q| ≤ max |number.value| |q| / 1000) := by
  cases outcome with
  | special kind => simp [Judge.isRight, Answer.ofOutcome]
  | root q =>
      by_cases hzero : number.body.denominator = 0
      · have hvalue := number.value?_expr
        rw [if_pos hzero] at hvalue
        simp [Judge.isRight, Answer.ofOutcome, hvalue, Expr.value?, hzero,
          TypedNumber.expr_ne_number hzero q]
      · have hvalue := number.value?_expr
        rw [if_neg hzero] at hvalue
        simp [Judge.isRight, Answer.ofOutcome, hvalue, Expr.value?, hzero, agree_iff]

/-! ## Accepting -/

namespace Exercise

variable {settings : Settings} {question latex text : String} {outcome : Outcome}

theorem accepts_single : (Exercise.mk settings question latex
      (.single settings.unknownName (.ofOutcome outcome)) standardJudge).accepts
        (.single settings.unknownName (.typed text)) = true ↔
    ∃ answer, standardJudge.letThrough? allowedSpecials (.typed text) = some answer ∧
      standardJudge.isRight answer (.ofOutcome outcome) = true := by
  simp only [accepts, Judge.accepts, Slots.single, Judge.acceptsFrom, List.find?_nil, Judge.fits,
    Slots.get?, List.lookup_cons, BEq.rfl, Bool.and_true]
  cases standardJudge.letThrough? allowedSpecials (.typed text) with
  | none => simp
  | some answer => simp

/-- The language of accepted answers.  For every exercise that is drawn or made from a question with
the rules of the standard catalogue, a typed text is accepted for the unknown exactly when it is not
too long and writes a number in ASCII digits, with an optional sign, as an integer, a decimal or a
quotient of integers whose signs stand in parentheses; when its denominator is not zero; when a
number is expected and no special answer; and when the two numbers differ by no more than a
thousandth, or a thousandth of the larger one. -/
theorem accepts_typed_iff {catalogue : Catalogue} {exercise : Exercise}
    (hcatalogue : Catalogue.standard = .ok catalogue) (hbuilt : exercise.Built catalogue)
    (text : String) :
    exercise.accepts (.single exercise.settings.unknownName (.typed text)) = true ↔
      text.length ≤ 1024 ∧ ∃ (number : TypedNumber) (q : ℚ),
        number.WrittenIn Char.isDigit ∧ text.toList = number.chars ∧ number.body.denominator ≠ 0 ∧
        exercise.expected.get? exercise.settings.unknownName = some (.value (.number q)) ∧
        (|number.value - q| ≤ 1 / 1000 ∨ |number.value - q| ≤ max |number.value| |q| / 1000) := by
  obtain rfl := Except.ok.inj (Catalogue.standard_eq_ok.symm.trans hcatalogue)
  obtain ⟨settings, question, latex, hbuild⟩ := hbuilt.build
  obtain ⟨equation, outcome, -, -, rfl⟩ := build_standard.mp hbuild
  -- a special answer is no number, and the only slot is that of the unknown
  have hexpected : ∀ q, (Slots.single settings.unknownName (Answer.ofOutcome outcome)).get?
      settings.unknownName = some (.value (.number q)) ↔ outcome = .root q := by
    intro q
    cases outcome with
    | root r => simp [Slots.single, Slots.get?, Answer.ofOutcome]
    | special kind => simp [Slots.single, Slots.get?, Answer.ofOutcome]
  rw [accepts_single]
  simp only [hexpected]
  constructor
  · rintro ⟨answer, hlet, hright⟩
    obtain ⟨number, hwritten, htext, hlength, rfl⟩ := letThrough?_typed.mp hlet
    obtain ⟨hdenominator, q, hq, hagree⟩ := (isRight_expr number outcome).mp hright
    exact ⟨hlength, number, q, hwritten, htext, hdenominator, hq, hagree⟩
  · rintro ⟨hlength, number, q, hwritten, htext, hdenominator, hq, hagree⟩
    exact ⟨_, letThrough?_typed.mpr ⟨number, hwritten, htext, hlength, rfl⟩,
      (isRight_expr number outcome).mpr ⟨hdenominator, q, hq, hagree⟩⟩

theorem accepts_typed_signed_quotient :
    ∃ exercise : Exercise, Catalogue.standard = .ok (.ofForms StandardForm.all) ∧
      exercise.Built (.ofForms StandardForm.all) ∧ exercise.question = "2*x=-1" ∧
      exercise.accepts (.single exercise.settings.unknownName (.typed "+(+1)/(-2)")) = true := by
  have hread : parseEquation "2*x=-1" =
      .ok ⟨.mul (.number 2) (.var "x"), .equal, .number (-1)⟩ := by decide +kernel
  have hsolve : Equation.solve ⟨.mul (.number 2) (.var "x"), .equal, .number (-1)⟩ "x" =
      .ok (.root (-1 / 2)) := by decide +kernel
  have hasked : ofQuestion "2 * x = -1" Settings.default (.ofForms StandardForm.all) = .ok
      ⟨Settings.default, "2*x=-1", "$2x=-1$", .single "x" (.value (.number (-1 / 2))),
        standardJudge⟩ := by
    have hvalid : Settings.default.validate = .ok () := by decide +kernel
    have hblanks : String.ofList (removeBlanks "2 * x = -1".toList) = "2*x=-1" := by decide +kernel
    have hlatex : inlineMath (withoutStars "2*x=-1") = "$2x=-1$" := by decide +kernel
    simp only [ofQuestion, hvalid, ok_bind, hblanks, hlatex]
    exact build_standard.mpr ⟨_, _, hread, hsolve, rfl⟩
  refine ⟨_, Catalogue.standard_eq_ok, .asked hasked, rfl, ?_⟩
  refine (accepts_typed_iff Catalogue.standard_eq_ok (.asked hasked) _).mpr ⟨by decide,
    ⟨some .plus, .quotient (.enclosed .plus ['1']) (.enclosed .minus ['2'])⟩, -1 / 2, ?_, by decide,
    ?_, rfl, Or.inl ?_⟩
  · simp [TypedNumber.WrittenIn, TypedBody.runs, TypedSide.digits, IsRun]
  · decide +kernel
  · decide +kernel

end Exercise

end EquationPractice
