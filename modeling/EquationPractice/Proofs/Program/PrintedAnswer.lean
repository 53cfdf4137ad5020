import EquationPractice.Proofs.Exercise.RevealedAnswer
import EquationPractice.Proofs.Program.QuizRounds
import EquationPractice.Proofs.Reading.Blankless

/-!
# Printed answers

The program prints drawn questions together with their answers, and it judges answers to questions
that are given on the command line.  What it prints for a number it also judges right.  A special
answer is printed by its name, and the name is not among the texts by which a special answer is
recognized when it is typed; its labels are.

## Strategy

Handed back, a printed question is the same question: there is no blank in it to drop, and it is
read and solved as it was when it was drawn, since nothing but the name of the unknown matters for
that.  So both commands work with the same expected answer and the same judge.
-/

namespace EquationPractice

open Text

/-! ## The question handed back -/

/-- There are no blanks in a question. -/
theorem Question.not_isBlank_of_mem {name : List Char} (hname : IsName name) {question : Question} :
    ∀ c ∈ question.chars name, isBlank c = false := by
  have hside : ∀ terms, ∀ c ∈ sideChars name terms, isBlank c = false := by
    intro terms c hc
    rcases mem_sideChars hname hc with rfl | rfl | rfl | hword
    · decide
    · decide
    · decide
    · exact not_isBlank_of_continuesName hword
  intro c hc
  rcases List.mem_append.mp hc with hmem | hmem
  · exact hside _ c hmem
  · rcases List.mem_cons.mp hmem with rfl | hmem
    · decide
    · exact hside _ c hmem

namespace Settings

variable {settings : Settings}

/-- The usual settings with another name for the unknown. -/
def usual (unknownName : String) : Settings :=
  { Settings.default with unknownName }

/-- A name that valid settings have is a valid name for the usual settings. -/
theorem validate_usual (hvalid : settings.validate = .ok ()) :
    (usual settings.unknownName).validate = .ok () := by
  have hfault := validate_eq_ok.mp hvalid
  unfold fault? at hfault
  split_ifs at hfault with hfixed hzero hmany hlong hname
  rw [validate_eq_ok]
  simp [fault?, usual, Settings.default, usualTerms, maxTerms, hlong, hname]

end Settings

/-! ## The verdict -/

/-- Whether an outcome is a number. -/
def Outcome.isRoot : Outcome → Bool
  | .root _ => true
  | .special _ => false

/-- The answer to an outcome as it is printed. -/
theorem Outcome.text_cases (outcome : Outcome) :
    (∃ q : ℚ, outcome = .root q ∧ (Answer.ofOutcome outcome).text =
      if q.den = 1 then toString q.num else toString q.num ++ "/" ++ toString q.den) ∨
    (outcome = .special .anyNumber ∧ (Answer.ofOutcome outcome).text = "any_number") ∨
    (outcome = .special .noSolution ∧ (Answer.ofOutcome outcome).text = "no_solution") := by
  cases outcome with
  | root q => exact Or.inl ⟨q, rfl, ratText_eq q⟩
  | special kind =>
      cases kind with
      | anyNumber => exact Or.inr (Or.inl ⟨rfl, rfl⟩)
      | noSolution => exact Or.inr (Or.inr ⟨rfl, rfl⟩)

/-- The root of a drawn question is a short number. -/
theorem Question.Fits.length_ratChars_le {settings : Settings} {question : Question}
    {outcome : Outcome} {q : ℚ} (hfits : question.Fits settings)
    (hvalid : settings.validate = .ok ()) (hadmits : ∀ v, outcome.admits v ↔ question.HoldsAt v)
    (hroot : outcome = .root q) : (ratChars q).length ≤ maxLength := by
  subst hroot
  obtain ⟨-, hunknown, hconstant⟩ := Settings.bounds_of_validate hvalid
  obtain ⟨a, b, ha, hb, hholds⟩ :=
    Question.exists_holdsAt_iff hfits.small (hfits.length_le hunknown hconstant)
  obtain ⟨hnum, hden⟩ := bounds_of_only_root fun v => (hadmits v).trans (hholds v)
  rw [abs_le] at ha hb
  exact (EquationPractice.length_ratChars_le (by omega) (by omega)).trans (by decide)

namespace Exercise

variable {settings : Settings} {text latex : String} {outcome : Outcome}

/-- The exercise with this outcome. -/
def expecting (settings : Settings) (text latex : String) (outcome : Outcome) : Exercise :=
  ⟨settings, text, latex, .single settings.unknownName (.ofOutcome outcome), standardJudge⟩

/-- The revealed answer is accepted as it stands. -/
theorem accepts_reveal (hshort : ∀ q, outcome = .root q → (ratChars q).length ≤ maxLength)
    (locale : Locale) : (expecting settings text latex outcome).accepts
      ((expecting settings text latex outcome).readTyped
        ((Answer.ofOutcome outcome).reveal locale)) = true := by
  have hanswered : (expecting settings text latex outcome).isAnsweredBy
      ((Answer.ofOutcome outcome).reveal locale) = true := isAnsweredBy_reveal hshort
  rwa [isAnsweredBy, Answer.trim_reveal, String.ofList_toList] at hanswered

/-- A special answer is not accepted under its name. -/
theorem not_accepts_name (kind : SpecialAnswer) :
    (expecting settings text latex (.special kind)).accepts
      ((expecting settings text latex (.special kind)).readTyped kind.name) = false := by
  rw [readTyped, ofTyped?_name, Bool.eq_false_iff]
  intro haccepts
  -- what is not taken for a special answer is at most a number, and no number is expected
  obtain ⟨answer, hlet, hright⟩ := accepts_single.mp haccepts
  obtain ⟨number, -, -, -, rfl⟩ := letThrough?_typed.mp hlet
  obtain ⟨-, q, hroot, -⟩ := (isRight_expr number (.special kind)).mp hright
  exact absurd hroot (by simp)

end Exercise

namespace Context

variable {context : Context} {settings : Settings} {question : Question} {equation : Equation}
  {outcome : Outcome}

/-- A drawn question makes an exercise that expects the outcome it had when it was drawn. -/
theorem questionExercise_drawn (hvalid : settings.validate = .ok ())
    (hcatalogue : Catalogue.standard = .ok context.catalogue)
    (hread : parseEquation (String.ofList (question.chars settings.unknownName.toList)) =
      .ok equation)
    (hsolve : equation.solve settings.unknownName = .ok outcome) :
    ∃ latex, context.questionExercise
        (String.ofList (question.chars settings.unknownName.toList)) (some settings.unknownName) =
      .ok (.expecting (.usual settings.unknownName)
        (String.ofList (question.chars settings.unknownName.toList)) latex outcome) := by
  have hplain : ∀ c ∈ question.chars settings.unknownName.toList, isBlank c = false :=
    Question.not_isBlank_of_mem (Settings.bounds_of_validate hvalid).1.reads
  have hblanks : String.ofList (removeBlanks (String.ofList
      (question.chars settings.unknownName.toList)).toList) =
        String.ofList (question.chars settings.unknownName.toList) := by
    rw [String.toList_ofList, removeBlanks_eq_self hplain]
  rw [questionExercise, Option.getD_some,
    ← Except.ok.inj (Catalogue.standard_eq_ok.symm.trans hcatalogue)]
  exact ⟨_, Exercise.ofQuestion_standard (Settings.validate_usual hvalid) hblanks hread hsolve⟩

section Typed

variable {exercise : Exercise} {asked text : String} {unknownName : Option String}

/-- A typed answer is judged as the exercise for the question reads it. -/
theorem check_typed (hexercise : context.questionExercise asked unknownName = .ok exercise) :
    context.check asked (.typed text) unknownName .text =
      ⟨if exercise.accepts (exercise.readTyped text) then "correct\n" else "incorrect\n",
        .finished⟩ := by
  have hgiven : (submitted exercise (.typed text)).2 = exercise.readTyped text := by
    rw [submitted, Exercise.readTyped]
    cases SpecialAnswer.ofTyped? text <;> rfl
  rw [check, hexercise, ← hgiven]
  simp only [joinLines_cons, joinLines_nil, String.append_empty]
  split_ifs <;> rfl

theorem check_of_accepts (hexercise : context.questionExercise asked unknownName = .ok exercise)
    (hright : exercise.accepts (exercise.readTyped text) = true) :
    context.check asked (.typed text) unknownName .text = ⟨"correct\n", .finished⟩ := by
  rw [check_typed hexercise, hright, if_pos rfl]

theorem check_of_not_accepts (hexercise : context.questionExercise asked unknownName = .ok exercise)
    (hwrong : exercise.accepts (exercise.readTyped text) = false) :
    context.check asked (.typed text) unknownName .text = ⟨"incorrect\n", .finished⟩ := by
  rw [check_typed hexercise, hwrong, if_neg Bool.false_ne_true]

end Typed

/-- Printed with its answer, a drawn exercise gives its title, its question, and a line with the
name of the unknown and the answer. -/
theorem exerciseReport_expecting (settings : Settings) (text latex : String) (outcome : Outcome) :
    context.exerciseReport true .text (.ok (.expecting settings text latex outcome)) =
      ⟨context.locale.pick "Find the value of " "Βρες την τιμή του " ++ settings.unknownName ++
        ".\n" ++ text ++ "\n" ++ settings.unknownName ++ " = " ++
          (Answer.ofOutcome outcome).text ++ "\n", .finished⟩ := by
  have hlines : (Exercise.expecting settings text latex outcome).shownLines context.locale true =
      [context.locale.pick "Find the value of " "Βρες την τιμή του " ++ settings.unknownName ++ ".",
        text, settings.unknownName ++ " = " ++ (Answer.ofOutcome outcome).text] := by
    rw [Exercise.shownLines, Exercise.title_textIn]
    rfl
  have hstop : ".\n" = "." ++ "\n" := rfl
  rw [exerciseReport, hlines, hstop]
  simp only [joinLines_cons, joinLines_nil, String.append_assoc, String.append_empty]

variable {σ : Type} [WordSource σ] {overrides : Overrides} {attempts : Nat} {source : σ}

/-- What is printed is the report on the exercise that is drawn. -/
theorem generate_drawn {exercise : Exercise} {last : σ} {showAnswer : Bool} {format : OutputFormat}
    (hsettings : overrides.apply context.settings = .ok settings)
    (hdrawn : (Exercise.generate attempts settings context.catalogue).outcome source =
      some (.ok exercise, last)) :
    context.generate attempts overrides showAnswer format source =
      some (context.exerciseReport showAnswer format (.ok exercise)) := by
  rw [generate, drawExercise, hsettings]
  simp only [hdrawn, Option.map_some]

/-- **A printed answer is judged right when it is a number.**  For all settings that the overrides
of a command line make valid and every source on which the draws end: the program prints the title
and the question of the drawn exercise, and below them the name of the unknown and the answer, which
is the root of the question as a number, or the name of a special answer.  Given that question, that
name and that answer, it prints that the answer is correct if it is a root, and that it is incorrect
if it is the name of a special answer.  The labels by which a quiz reveals the special answer, in
either language, are correct.  The settings file and the language that the judgement goes by do not
matter. -/
theorem check_printed_answer (hsettings : overrides.apply context.settings = .ok settings)
    (hcatalogue : Catalogue.standard = .ok context.catalogue)
    (hends : ((Exercise.generate attempts settings context.catalogue).outcome
      source).isSome = true) :
    ∃ (exercise : Exercise) (last : σ) (equation : Equation) (outcome : Outcome) (answer : String),
      (Exercise.generate attempts settings context.catalogue).outcome source =
        some (.ok exercise, last) ∧
      parseEquation exercise.question = .ok equation ∧
      equation.solve settings.unknownName = .ok outcome ∧
      context.generate attempts overrides true .text source = some
        ⟨context.locale.pick "Find the value of " "Βρες την τιμή του " ++ settings.unknownName ++
          ".\n" ++ exercise.question ++ "\n" ++ settings.unknownName ++ " = " ++ answer ++ "\n",
          .finished⟩ ∧
      ((∃ q : ℚ, outcome = .root q ∧ answer =
          if q.den = 1 then toString q.num else toString q.num ++ "/" ++ toString q.den) ∨
        (outcome = .special .anyNumber ∧ answer = "any_number") ∨
        (outcome = .special .noSolution ∧ answer = "no_solution")) ∧
      ∀ other : Context, Catalogue.standard = .ok other.catalogue →
        other.check exercise.question (.typed answer) (some settings.unknownName) .text =
          ⟨if outcome.isRoot then "correct\n" else "incorrect\n", .finished⟩ ∧
        (outcome = .special .anyNumber → ∀ label ∈ ["Any number.", "Οποιοσδήποτε αριθμός"],
          other.check exercise.question (.typed label) (some settings.unknownName) .text =
            ⟨"correct\n", .finished⟩) ∧
        (outcome = .special .noSolution → ∀ label ∈ ["No solution", "Καμία λύση"],
          other.check exercise.question (.typed label) (some settings.unknownName) .text =
            ⟨"correct\n", .finished⟩) := by
  have hvalid := Overrides.validate_of_apply hsettings
  obtain ⟨question, equation, outcome, latex, last, hfits, hread, hsolve, hadmits, hgenerate⟩ :=
    Exercise.generate_of_isSome hvalid hcatalogue hends
  have hshort : ∀ q, outcome = .root q → (ratChars q).length ≤ maxLength :=
    fun q => hfits.length_ratChars_le hvalid hadmits
  have hasked := fun (other : Context) (hother : Catalogue.standard = .ok other.catalogue) =>
    questionExercise_drawn hvalid hother hread hsolve
  generalize String.ofList (question.chars settings.unknownName.toList) = text at *
  have hprinted : context.generate attempts overrides true .text source = _ :=
    (generate_drawn hsettings hgenerate).trans
      (congrArg some (exerciseReport_expecting settings text latex outcome))
  refine ⟨_, last, equation, outcome, (Answer.ofOutcome outcome).text, hgenerate, hread, hsolve,
    hprinted, outcome.text_cases, fun other hother => ?_⟩
  obtain ⟨latex', hexercise⟩ := hasked other hother
  have hrevealed : ∀ locale, other.check text (.typed ((Answer.ofOutcome outcome).reveal locale))
      (some settings.unknownName) .text = ⟨"correct\n", .finished⟩ :=
    fun locale => check_of_accepts hexercise (Exercise.accepts_reveal hshort locale)
  refine ⟨?_, ?_, ?_⟩
  · cases outcome with
    | root q => exact hrevealed .english
    | special kind => exact check_of_not_accepts hexercise (Exercise.not_accepts_name kind)
  · rintro rfl
    exact List.forall_mem_cons.mpr ⟨hrevealed .english, List.forall_mem_singleton.mpr
      (hrevealed .greek)⟩
  · rintro rfl
    exact List.forall_mem_cons.mpr ⟨hrevealed .english, List.forall_mem_singleton.mpr
      (hrevealed .greek)⟩

/-- `0*x+0=0` holds of every number. -/
theorem solve_all_zero : ∃ equation, parseEquation "0*x+0=0" = .ok equation ∧
    equation.solve "x" = .ok (.special .anyNumber) := by
  have hread : parseEquation "0*x+0=0" = .ok ⟨.add (.mul (.number 0) (.var "x")) (.number 0),
      .equal, .number 0⟩ := by decide +kernel
  exact ⟨_, hread, by decide +kernel⟩

/-- The answer to `0*x+0=0` is printed by its name, and is right under its label in Greek. -/
theorem check_printed_answer_greek :
    (Overrides.mk (some 2) none none none none).apply Settings.default =
      .ok ⟨.medium, "x", 3, 3⟩ ∧
    Catalogue.standard = .ok (.ofForms StandardForm.all) ∧
    ((Exercise.generate 8 ⟨.medium, "x", 3, 3⟩ (.ofForms StandardForm.all)).outcome
      (WordFeed.ofWords [] 8)).isSome = true ∧
    (Context.mk .default .english (.ofForms StandardForm.all)).generate 8
      (Overrides.mk (some 2) none none none none) true .text (WordFeed.ofWords [] 8) =
        some ⟨"Find the value of x.\n0*x+0=0\nx = any_number\n", .finished⟩ ∧
    (Context.mk .default .greek (.ofForms StandardForm.all)).check "0*x+0=0" (.typed "any_number")
      (some "x") .text = ⟨"incorrect\n", .finished⟩ ∧
    (Context.mk .default .greek (.ofForms StandardForm.all)).check "0*x+0=0"
      (.typed "Οποιοσδήποτε αριθμός") (some "x") .text = ⟨"correct\n", .finished⟩ := by
  have hsettings : (Overrides.mk (some 2) none none none none).apply Settings.default =
      .ok ⟨.medium, "x", 3, 3⟩ := by decide
  have hends : ((Exercise.generate 8 ⟨.medium, "x", 3, 3⟩ (.ofForms StandardForm.all)).outcome
      (WordFeed.ofWords [] 8)).isSome = true := by decide +kernel
  obtain ⟨exercise, last, equation, outcome, answer, hgenerate, hread, hsolve, hprinted, hanswer,
    hjudged⟩ :=
    @check_printed_answer ⟨.default, .english, .ofForms StandardForm.all⟩ ⟨.medium, "x", 3, 3⟩
      WordFeed _ ⟨some 2, none, none, none, none⟩ 8 (WordFeed.ofWords [] 8) hsettings
      Catalogue.standard_eq_ok hends
  have hquestion : exercise.question = "0*x+0=0" :=
    Draw.eq_of_outcome Exercise.question hgenerate (by decide +kernel)
  rw [hquestion] at hread hprinted hjudged
  -- the question decides the outcome, and the outcome the answer
  obtain ⟨asked, hasked, hsolved⟩ := solve_all_zero
  obtain rfl := Except.ok.inj (hasked.symm.trans hread)
  obtain rfl := Except.ok.inj (hsolved.symm.trans hsolve)
  obtain rfl : answer = "any_number" := by simpa using hanswer
  obtain ⟨hname, hlabels, -⟩ :=
    hjudged ⟨.default, .greek, .ofForms StandardForm.all⟩ Catalogue.standard_eq_ok
  exact ⟨hsettings, Catalogue.standard_eq_ok, hends, hprinted, hname,
    hlabels rfl _ (by simp)⟩

/-- `0*x+0=0` is printed with the answer `any_number`, and this answer is then judged wrong. -/
theorem check_printed_any_number :
    (Context.mk .default .english (.ofForms StandardForm.all)).generate 8
      (Overrides.mk (some 2) none none none none) true .text (WordFeed.ofWords [] 8) =
        some ⟨"Find the value of x.\n0*x+0=0\nx = any_number\n", .finished⟩ ∧
    (Context.mk .default .english (.ofForms StandardForm.all)).check "0*x+0=0"
      (.typed "any_number") (some "x") .text = ⟨"incorrect\n", .finished⟩ := by
  obtain ⟨equation, hread, hsolve⟩ := solve_all_zero
  have hasked : (Context.mk .default .english (.ofForms StandardForm.all)).questionExercise
      "0*x+0=0" (some "x") = .ok (.expecting (.usual "x") "0*x+0=0"
        (Exercise.inlineMath (Exercise.withoutStars "0*x+0=0")) (.special .anyNumber)) :=
    Exercise.ofQuestion_standard (by decide) (by decide) hread hsolve
  constructor
  · decide +kernel
  · exact check_of_not_accepts hasked (Exercise.not_accepts_name .anyNumber)

end Context

end EquationPractice
