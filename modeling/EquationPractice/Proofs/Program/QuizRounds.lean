import EquationPractice.Program.Run
import EquationPractice.Proofs.Exercise.Generation
import EquationPractice.Proofs.Program.Phrasing

/-!
# The rounds of a quiz

The questions of a quiz are the exercises that are generated in a row from its source, so they are
settled before anything is typed.  Every line is held against the question of its own round, and the
score at the end counts the lines that were judged right.  When the lines are used up before enough
questions were answered, one more question is asked.

## Strategy

A round that somebody answers takes one exercise from the source and one line from the input, and
what follows is the quiz from the next score and the next source on.  The whole run is an induction
on the lines, for all scores and sources: an exercise drawn in front of a row of exercises makes a
longer row, and a line more is an answer more.

## Main definitions

* `Exercise.generateNth`: the exercise that is generated after so many others.
* `Exercise.AsksFor`: what all exercises of a quiz have in common.
* `answerCount`, `questionCount`: how many lines are judged and how many questions are asked.
-/

namespace EquationPractice

open Draw Text

/-! ## Exercises in a row -/

namespace Exercise

variable {σ : Type} [WordSource σ]

/-- The exercise that is generated after so many others. -/
def generateNth (attempts : Nat) (settings : Settings) (catalogue : Catalogue) :
    Nat → Draw σ ExerciseError Exercise
  | 0 => generate attempts settings catalogue
  | i + 1 => do
      let _ ← generate attempts settings catalogue
      generateNth attempts settings catalogue i

/-- Exercises that are generated in a row, each with the source that its turn comes to. -/
def GeneratedInRow (attempts : Nat) (settings : Settings) (catalogue : Catalogue) (source : σ)
    (exercises : List Exercise) : Prop :=
  ∀ i (hi : i < exercises.length), ∃ rest,
    (generateNth attempts settings catalogue i).outcome source = some (.ok exercises[i], rest)

variable {attempts : Nat} {settings : Settings} {catalogue : Catalogue} {source rest : σ}
  {exercise : Exercise} {exercises : List Exercise}

/-- What is generated after one exercise is generated from what that one left. -/
theorem outcome_generateNth_succ
    (hfirst : (generate attempts settings catalogue).outcome source = some (.ok exercise, rest))
    (i : Nat) : (generateNth attempts settings catalogue (i + 1)).outcome source =
      (generateNth attempts settings catalogue i).outcome rest := by
  rw [generateNth, outcome_bind, hfirst]
  rfl

theorem generatedInRow_nil : GeneratedInRow attempts settings catalogue source [] :=
  fun _ hi => absurd hi (Nat.not_lt_zero _)

theorem GeneratedInRow.cons
    (hfirst : (generate attempts settings catalogue).outcome source = some (.ok exercise, rest))
    (hrow : GeneratedInRow attempts settings catalogue rest exercises) :
    GeneratedInRow attempts settings catalogue source (exercise :: exercises) := by
  intro i hi
  cases i with
  | zero => exact ⟨rest, hfirst⟩
  | succ i =>
      rw [outcome_generateNth_succ hfirst]
      exact hrow i (Nat.lt_of_succ_lt_succ hi)

/-- An exercise with these settings, which expects the outcome of some equation under the name of the
unknown. -/
structure AsksFor (settings : Settings) (exercise : Exercise) : Prop where
  settings_eq : exercise.settings = settings
  expected_eq : ∃ outcome, exercise.expected = .single settings.unknownName (.ofOutcome outcome)

/-- A generation that ends gives an exercise with the given settings and a single expected answer. -/
theorem exists_generated (hvalid : settings.validate = .ok ())
    (hcatalogue : Catalogue.standard = .ok catalogue)
    (hends : ((generate attempts settings catalogue).outcome source).isSome = true) :
    ∃ exercise rest, AsksFor settings exercise ∧
      (generate attempts settings catalogue).outcome source = some (.ok exercise, rest) := by
  obtain ⟨question, equation, outcome, latex, rest, -, -, -, -, hgenerate⟩ :=
    generate_of_isSome hvalid hcatalogue hends
  exact ⟨_, rest, ⟨rfl, outcome, rfl⟩, hgenerate⟩

end Exercise

/-! ## How many questions there are -/

/-- How many lines are judged, out of so many, when at most so many questions may be answered. -/
def answerCount (limit : Option Nat) (lines : Nat) : Nat :=
  match limit with
  | some limit => min limit lines
  | none => lines

/-- How many questions are asked: one for every line that is judged and, unless enough were answered
by then, one that nobody answers. -/
def questionCount (limit : Option Nat) (lines : Nat) : Nat :=
  if limit.any (· ≤ lines) then answerCount limit lines else answerCount limit lines + 1

namespace Quiz

variable {quiz : Quiz} {score : Score}

/-- How many answers are still to be given, if there is a limit. -/
def left (quiz : Quiz) (score : Score) : Option Nat :=
  quiz.limit.map (· - score.asked)

theorem counts_of_isOver (hover : quiz.isOver score = true) (lines : Nat) :
    answerCount (quiz.left score) lines = 0 ∧ questionCount (quiz.left score) lines = 0 := by
  cases hlimit : quiz.limit with
  | none => simp [isOver, hlimit] at hover
  | some limit =>
      have hleft : limit - score.asked = 0 := by
        simpa [isOver, hlimit, Nat.sub_eq_zero_iff_le] using hover
      simp [left, hlimit, hleft, answerCount, questionCount]

/-- Without a line, the question that is asked is not answered. -/
theorem counts_of_no_line (hgoes : quiz.isOver score = false) :
    answerCount (quiz.left score) 0 = 0 ∧ questionCount (quiz.left score) 0 = 1 := by
  cases hlimit : quiz.limit with
  | none => simp [left, hlimit, answerCount, questionCount]
  | some limit =>
      have hleft : ¬limit - score.asked = 0 := by
        simpa [isOver, hlimit, Nat.sub_eq_zero_iff_le] using hgoes
      simp [left, hlimit, answerCount, questionCount, hleft]

/-- A line is an answer more and a question more than what is still to come after it. -/
theorem counts_of_line (hgoes : quiz.isOver score = false) (isRight : Bool) (lines : Nat) :
    answerCount (quiz.left score) (lines + 1) =
      answerCount (quiz.left (score.add isRight)) lines + 1 ∧
    questionCount (quiz.left score) (lines + 1) =
      questionCount (quiz.left (score.add isRight)) lines + 1 := by
  cases hlimit : quiz.limit with
  | none => simp [left, hlimit, answerCount, questionCount]
  | some limit =>
      have hleft : score.asked < limit := by
        simpa [isOver, hlimit] using hgoes
      simp only [left, hlimit, Option.map_some, Score.add, answerCount, questionCount,
        Option.any_some, decide_eq_true_eq]
      constructor
      · omega
      · split_ifs <;> omega

/-! ## A round -/

section Rounds

variable {σ : Type} [WordSource σ] {attempts : Nat} {source rest : σ} {exercise : Exercise}
  {line : String} {lines : List String}

/-- A quiz that is over asks nothing. -/
theorem play_of_isOver (hover : quiz.isOver score = true) :
    quiz.play attempts lines score source = some ⟨"", score, none⟩ := by
  unfold play
  rw [if_pos hover]

/-- The question of a round that finds no line. -/
theorem play_nil (hgoes : quiz.isOver score = false)
    (hfirst : (quiz.next attempts).outcome source = some (.ok exercise, rest)) :
    quiz.play attempts [] score source =
      some ⟨exercise.asking quiz.locale ++ "\n", score, none⟩ := by
  unfold play
  simp only [hgoes, hfirst, Bool.false_eq_true, if_false]

/-- A round: the line is judged by the question of this round, and the quiz goes on with the next
score from the source that this round left. -/
theorem play_cons {rounds : Rounds} (hgoes : quiz.isOver score = false)
    (hfirst : (quiz.next attempts).outcome source = some (.ok exercise, rest))
    (hlater : quiz.play attempts lines (score.add (exercise.isAnsweredBy line)) rest =
      some rounds) :
    quiz.play attempts (line :: lines) score source =
      some ⟨exercise.asking quiz.locale ++ exercise.reply quiz.locale line ++ rounds.output,
        rounds.score, rounds.error⟩ := by
  rw [play]
  simp only [hgoes, hfirst, hlater, Bool.false_eq_true, if_false]
  rfl

end Rounds

/-! ## The run -/

/-- What a quiz prints before its score when these are the questions: every line is answered with
what is said about it as an answer to its question, and a question without a line is only asked. -/
def printed (quiz : Quiz) (exercises : List Exercise) (lines : List String) : String :=
  String.join (List.zipWith (fun exercise line =>
      exercise.asking quiz.locale ++ exercise.reply quiz.locale line) exercises lines) ++
    String.join ((exercises.drop lines.length).map fun exercise =>
      exercise.asking quiz.locale ++ "\n")

theorem printed_cons (quiz : Quiz) (exercise : Exercise) (line : String)
    (exercises : List Exercise) (lines : List String) :
    quiz.printed (exercise :: exercises) (line :: lines) =
      exercise.asking quiz.locale ++ exercise.reply quiz.locale line ++
        quiz.printed exercises lines := by
  simp [printed, String.append_assoc]

/-- How many lines are right answers, each to the question of its own round. -/
def rightCount (exercises : List Exercise) (lines : List String) : Nat :=
  (exercises.zip lines).countP fun round => round.1.isAnsweredBy round.2

theorem right_add_rightCount (exercise : Exercise) (line : String) (exercises : List Exercise)
    (lines : List String) :
    (score.add (exercise.isAnsweredBy line)).right + rightCount exercises lines =
      score.right + rightCount (exercise :: exercises) (line :: lines) := by
  simp only [rightCount, List.zip_cons_cons, List.countP_cons, Score.add]
  split_ifs <;> omega

variable {σ : Type} [WordSource σ] {attempts : Nat}

/-- From any score and any source on, the rounds of a quiz ask what is generated in a row, judge the
lines by it, and add to the score. -/
theorem play_eq (hvalid : quiz.settings.validate = .ok ())
    (hcatalogue : Catalogue.standard = .ok quiz.catalogue) (lines : List String) (score : Score)
    (source : σ)
    (hends : ∀ i < questionCount (quiz.left score) lines.length,
      ((Exercise.generateNth attempts quiz.settings quiz.catalogue i).outcome
        source).isSome = true) :
    ∃ exercises,
      exercises.length = questionCount (quiz.left score) lines.length ∧
      Exercise.GeneratedInRow attempts quiz.settings quiz.catalogue source exercises ∧
      (∀ exercise ∈ exercises, exercise.AsksFor quiz.settings) ∧
      quiz.play attempts lines score source = some ⟨quiz.printed exercises lines,
        ⟨score.right + rightCount exercises lines,
          score.asked + answerCount (quiz.left score) lines.length⟩, none⟩ := by
  induction lines generalizing score source with
  | nil =>
      by_cases hover : quiz.isOver score = true
      · obtain ⟨hanswers, hquestions⟩ := counts_of_isOver hover 0
        refine ⟨[], hquestions.symm, Exercise.generatedInRow_nil, by simp, ?_⟩
        rw [play_of_isOver hover, List.length_nil, hanswers]
        rfl
      · rw [Bool.not_eq_true] at hover
        obtain ⟨hanswers, hquestions⟩ := counts_of_no_line hover
        obtain ⟨exercise, rest, hasks, hfirst⟩ := Exercise.exists_generated hvalid
          hcatalogue (hends 0 (by rw [List.length_nil, hquestions]; exact Nat.one_pos))
        refine ⟨[exercise], hquestions.symm, Exercise.generatedInRow_nil.cons hfirst, ?_, ?_⟩
        · simpa using hasks
        · rw [play_nil hover hfirst, List.length_nil, hanswers]
          simp [printed, rightCount]
  | cons line later ih =>
      by_cases hover : quiz.isOver score = true
      · obtain ⟨hanswers, hquestions⟩ := counts_of_isOver hover (line :: later).length
        refine ⟨[], hquestions.symm, Exercise.generatedInRow_nil, by simp, ?_⟩
        rw [play_of_isOver hover, hanswers]
        simp [printed, rightCount]
      · rw [Bool.not_eq_true] at hover
        rw [List.length_cons] at hends ⊢
        have hquestions := fun isRight => (counts_of_line hover isRight later.length).2
        obtain ⟨exercise, rest, hasks, hfirst⟩ := Exercise.exists_generated hvalid
          hcatalogue (hends 0 (by rw [hquestions true]; exact Nat.succ_pos _))
        -- the rounds to come start from what this round left
        obtain ⟨exercises, hlength, hrow, hall, hlater⟩ :=
          ih (score.add (exercise.isAnsweredBy line)) rest fun i hi => by
            rw [← Exercise.outcome_generateNth_succ hfirst]
            exact hends (i + 1) (by rw [hquestions (exercise.isAnsweredBy line)]; omega)
        refine ⟨exercise :: exercises, ?_, hrow.cons hfirst, ?_, ?_⟩
        · rw [List.length_cons, hlength, hquestions]
        · exact List.forall_mem_cons.mpr ⟨hasks, hall⟩
        · rw [play_cons hover hfirst hlater, ← printed_cons, right_add_rightCount,
            (counts_of_line hover (exercise.isAnsweredBy line) later.length).1]
          simp only [Score.add, Nat.add_assoc, Nat.add_comm 1]

/-- **A quiz keeps the score, and its questions do not depend on the answers.**  For all valid
settings, every source, language and limit, and all lines: as long as the draws end, the questions
are the exercises that are generated in a row from the source, as many as there are judged lines, and
one more unless the limit was reached.  A line is trimmed and judged as an answer to the question of
its own round; it is praised, or else the answer expected of that question is revealed.  The score
counts the lines that were judged right, out of all that were judged.  All that is printed stands here
as it is read, in both languages. -/
theorem transcript_eq (hvalid : quiz.settings.validate = .ok ())
    (hcatalogue : Catalogue.standard = .ok quiz.catalogue) (lines : List String) (source : σ)
    (hends : ∀ i < questionCount quiz.limit lines.length,
      ((Exercise.generateNth attempts quiz.settings quiz.catalogue i).outcome
        source).isSome = true) :
    ∃ (exercises : List Exercise) (asked revealed : Exercise → String),
      exercises.length = questionCount quiz.limit lines.length ∧
      (∀ i (hi : i < exercises.length), ∃ rest,
        (Exercise.generateNth attempts quiz.settings quiz.catalogue i).outcome source =
          some (.ok exercises[i], rest)) ∧
      (∀ exercise ∈ exercises, asked exercise =
        quiz.locale.pick "Find the value of " "Βρες την τιμή του " ++ quiz.settings.unknownName ++
          ".\n  " ++ exercise.question ++ "\n" ++ quiz.locale.pick
            "(type the answer and press enter)" "(γράψε την απάντηση και πάτα enter)" ++ "\n> ") ∧
      (∀ exercise ∈ exercises,
        (∃ q : ℚ, exercise.expected.entries =
            [(quiz.settings.unknownName, .value (.number q))] ∧ revealed exercise =
          if q.den = 1 then toString q.num else toString q.num ++ "/" ++ toString q.den) ∨
        (exercise.expected.entries = [(quiz.settings.unknownName, .special .anyNumber)] ∧
          revealed exercise = quiz.locale.pick "Any number." "Οποιοσδήποτε αριθμός") ∨
        (exercise.expected.entries = [(quiz.settings.unknownName, .special .noSolution)] ∧
          revealed exercise = quiz.locale.pick "No solution" "Καμία λύση")) ∧
      quiz.transcript attempts lines source = some ⟨
        String.join (List.zipWith (fun exercise line => asked exercise ++
            ((if exercise.accepts (exercise.readTyped (String.ofList (trim line.toList))) then
                quiz.locale.pick "Correct!" "Σωστό!"
              else quiz.locale.pick "Wrong, the answer is " "Λάθος, η απάντηση είναι " ++
                revealed exercise ++ ".") ++ "\n\n"))
          exercises lines) ++
        String.join ((exercises.drop lines.length).map fun exercise => asked exercise ++ "\n") ++
        (quiz.locale.pick "Score: " "Βαθμολογία: " ++
          toString ((exercises.zip lines).countP fun round =>
            round.1.accepts (round.1.readTyped (String.ofList (trim round.2.toList)))) ++
          "/" ++ toString (answerCount quiz.limit lines.length) ++ "\n"),
        .finished⟩ := by
  have hleft : quiz.left .zero = quiz.limit := by
    unfold left
    cases quiz.limit <;> rfl
  obtain ⟨exercises, hlength, hrow, hasks, hplay⟩ :=
    quiz.play_eq hvalid hcatalogue lines .zero source (by rwa [hleft])
  rw [hleft] at hlength hplay
  refine ⟨exercises, fun exercise => exercise.asking quiz.locale,
    fun exercise => exercise.revealed quiz.locale, hlength, hrow, ?_, ?_, ?_⟩
  · intro exercise hmem
    simp only [Exercise.asking_eq, (hasks exercise hmem).settings_eq]
  · intro exercise hmem
    obtain ⟨outcome, hexpected⟩ := (hasks exercise hmem).expected_eq
    exact Exercise.revealed_cases quiz.locale hexpected
  · rw [transcript, hplay]
    simp only [Option.map_some, closing_eq, printed, Exercise.reply_eq, Score.zero, Nat.zero_add]
    rfl

/-- One right and one wrong answer, and a question that nobody answers. -/
theorem transcript_eq_two_answers :
    (Settings.mk .hard "ex" 1 1).validate = .ok () ∧
    Catalogue.standard = .ok (.ofForms StandardForm.all) ∧
    (∀ i < 3, ((Exercise.generateNth 8 ⟨.hard, "ex", 1, 1⟩ (.ofForms StandardForm.all) i).outcome
      (WordFeed.ofWords [] 7)).isSome = true) ∧
    (Quiz.mk ⟨.hard, "ex", 1, 1⟩ .greek (.ofForms StandardForm.all) none).transcript 8
        [" 10/3 ", "5"] (WordFeed.ofWords [] 7) =
      some ⟨"Βρες την τιμή του ex.\n  -3*ex=-10\n(γράψε την απάντηση και πάτα enter)\n> " ++
          "Σωστό!\n\n" ++
        "Βρες την τιμή του ex.\n  0=-1-6*ex\n(γράψε την απάντηση και πάτα enter)\n> " ++
          "Λάθος, η απάντηση είναι -1/6.\n\n" ++
        "Βρες την τιμή του ex.\n  -8*ex+10=0\n(γράψε την απάντηση και πάτα enter)\n> \n" ++
        "Βαθμολογία: 1/2\n", .finished⟩ := by
  have hvalid : (Settings.mk .hard "ex" 1 1).validate = .ok () := by decide
  have hends : ∀ i < 3, ((Exercise.generateNth 8 ⟨.hard, "ex", 1, 1⟩ (.ofForms StandardForm.all)
      i).outcome (WordFeed.ofWords [] 7)).isSome = true := by
    decide +kernel
  obtain ⟨exercises, asked, revealed, hlength, hrow, hasked, hrevealed, htranscript⟩ :=
    @transcript_eq ⟨⟨.hard, "ex", 1, 1⟩, .greek, .ofForms StandardForm.all, none⟩ WordFeed _ 8
      hvalid Catalogue.standard_eq_ok [" 10/3 ", "5"] (WordFeed.ofWords [] 7) hends
  obtain ⟨first, second, third, rfl⟩ := List.length_eq_three.mp hlength
  obtain ⟨hasked, hasked', hasked''⟩ : _ ∧ _ ∧ _ := by simpa using hasked
  obtain ⟨-, hrevealed, -⟩ : _ ∧ _ ∧ _ := by simpa using hrevealed
  -- what is drawn in each of the three rounds
  obtain ⟨_, hfirst⟩ := hrow 0 (by simp)
  obtain ⟨_, hsecond⟩ := hrow 1 (by simp)
  obtain ⟨_, hthird⟩ := hrow 2 (by simp)
  have hquestion : first.question = "-3*ex=-10" :=
    Draw.eq_of_outcome Exercise.question hfirst (by decide +kernel)
  have hquestion' : second.question = "0=-1-6*ex" :=
    Draw.eq_of_outcome Exercise.question hsecond (by decide +kernel)
  have hquestion'' : third.question = "-8*ex+10=0" :=
    Draw.eq_of_outcome Exercise.question hthird (by decide +kernel)
  have hright : first.isAnsweredBy " 10/3 " = true :=
    Draw.eq_of_outcome (·.isAnsweredBy " 10/3 ") hfirst (by decide +kernel)
  have hwrong : second.isAnsweredBy "5" = false :=
    Draw.eq_of_outcome (·.isAnsweredBy "5") hsecond (by decide +kernel)
  have hexpected : second.expected.entries = [("ex", .value (.number (-1 / 6)))] :=
    Draw.eq_of_outcome (·.expected.entries) hsecond (by decide +kernel)
  have hshown : revealed second = "-1/6" := by
    rw [hexpected] at hrevealed
    rcases hrevealed with ⟨q, hentries, hshown⟩ | ⟨hentries, -⟩ | ⟨hentries, -⟩
    · obtain rfl : -1 / 6 = q := by simpa using hentries
      exact hshown.trans (by decide +kernel)
    all_goals simp at hentries
  refine ⟨hvalid, Catalogue.standard_eq_ok, hends, htranscript.trans ?_⟩
  unfold Exercise.isAnsweredBy at hright hwrong
  simp only [List.zipWith_cons_cons, List.zipWith_nil_right, List.zip_cons_cons, List.zip_nil_right,
    List.countP_cons, List.countP_nil, List.length_cons, List.length_nil, List.drop_succ_cons,
    List.drop_zero, List.map_cons, List.map_nil, hasked, hasked', hasked'', hquestion, hquestion',
    hquestion'', hright, hwrong, hshown, if_true, Bool.false_eq_true, if_false]
  decide +kernel

end Quiz

/-! ## The quiz of a command line -/

theorem Overrides.validate_of_apply {overrides : Overrides} {settings changed : Settings}
    (happly : overrides.apply settings = .ok changed) : changed.validate = .ok () := by
  unfold Overrides.apply at happly
  -- whatever the difficulty comes from, the settings are validated last
  split at happly
  all_goals
    obtain ⟨difficulty, -, happly⟩ := bind_eq_ok.mp happly
    obtain ⟨⟨⟩, hvalid, hchanged⟩ := bind_eq_ok.mp happly
    rw [← Except.ok.inj hchanged]
    exact hvalid

/-- A command line asks for the quiz with its settings and its seed. -/
theorem Context.carryOut_quiz {context : Context} {overrides : Overrides} {settings : Settings}
    (hsettings : overrides.apply context.settings = .ok settings) (freshSeed : UInt64)
    (lines : List String) (limit : Option Nat) :
    context.carryOut freshSeed lines (.quiz overrides limit) =
      (Quiz.mk settings context.locale context.catalogue limit).transcript attemptLimit lines
        (overrides.source freshSeed) := by
  have hquiz : context.quiz overrides limit =
      .ok ⟨settings, context.locale, context.catalogue, limit⟩ := by
    rw [Context.quiz, hsettings]
    rfl
  rw [carryOut, hquiz]

end EquationPractice
