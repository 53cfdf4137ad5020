import EquationPractice.Program.Quiz
import Mathlib.Data.Rat.Defs

/-!
# What is said, word for word

The texts that are printed for a person, in both languages and with their line feeds.  The program
puts them together from messages, places in them, and lines; here they stand as they are read.

## Main statements

* `Exercise.asking_eq`, `Exercise.reply_eq`, `Quiz.closing_eq`: the texts of a quiz.
* `Exercise.revealed_cases`: the text that reveals an answer.
-/

namespace EquationPractice

open Text

/-! ## Languages, lines and numbers -/

/-- The text in a language, out of the texts in both of them. -/
def Locale.pick (locale : Locale) (inEnglish inGreek : String) : String :=
  match locale with
  | .english => inEnglish
  | .greek => inGreek

theorem joinLines_nil : joinLines [] = "" := rfl

theorem joinLines_cons (line : String) (lines : List String) :
    joinLines (line :: lines) = line ++ "\n" ++ joinLines lines := by
  rw [joinLines, List.map_cons, String.join_cons]
  rfl

theorem natText_eq (n : ℕ) : String.ofList (natChars n) = toString n := rfl

theorem intText_eq (n : ℤ) : String.ofList (intChars n) = toString n := by
  cases n with
  | ofNat n => rfl
  | negSucc n =>
      rw [intChars, if_pos (Int.negSucc_lt_zero n)]
      exact String.ofList_cons

/-- A rational number is written as a fraction in lowest terms, or as an integer if it is one. -/
theorem ratText_eq (q : ℚ) : ratText q =
    if q.den = 1 then toString q.num else toString q.num ++ "/" ++ toString q.den := by
  unfold ratText ratChars
  split_ifs
  · exact intText_eq q.num
  · rw [String.ofList_append, String.ofList_cons, intText_eq, natText_eq, String.append_assoc]
    rfl

theorem Exercise.title_textIn (exercise : Exercise) (locale : Locale) :
    exercise.title.textIn locale = locale.pick "Find the value of " "Βρες την τιμή του " ++
      exercise.settings.unknownName ++ "." := by
  cases locale <;> rfl

/-! ## The texts of a quiz -/

theorem correction_format (locale : Locale) (answer : String) :
    correction.format locale [answer] =
      locale.pick "Wrong, the answer is " "Λάθος, η απάντηση είναι " ++ answer ++ "." := by
  rw [← String.toList_inj, Message.format, String.toList_ofList]
  simp only [String.toList_append]
  cases locale <;> rfl

theorem result_format (locale : Locale) (right asked : String) :
    result.format locale [right, asked] =
      locale.pick "Score: " "Βαθμολογία: " ++ right ++ "/" ++ asked := by
  rw [← String.toList_inj, Message.format, String.toList_ofList]
  simp only [String.toList_append, List.append_assoc]
  -- behind the second place nothing is left of the text
  rw [← List.append_nil asked.toList]
  cases locale <;> rfl

namespace Exercise

/-- A question is asked under its title, and the answer is typed behind a mark. -/
theorem asking_eq (exercise : Exercise) (locale : Locale) : exercise.asking locale =
    locale.pick "Find the value of " "Βρες την τιμή του " ++ exercise.settings.unknownName ++
      ".\n  " ++ exercise.question ++ "\n" ++ locale.pick "(type the answer and press enter)"
        "(γράψε την απάντηση και πάτα enter)" ++ "\n> " := by
  have hinvitation : invitation.textIn locale = locale.pick "(type the answer and press enter)"
      "(γράψε την απάντηση και πάτα enter)" := by
    cases locale <;> rfl
  have hindent : ".\n  " = "." ++ ("\n" ++ "  ") := rfl
  have hmark : "\n> " = "\n" ++ "> " := rfl
  rw [asking, title_textIn, hinvitation, hindent, hmark]
  simp only [joinLines_cons, joinLines_nil, String.append_assoc, String.empty_append]

/-- A line is answered with praise or with the right answer, and an empty line. -/
theorem reply_eq (exercise : Exercise) (locale : Locale) (line : String) :
    exercise.reply locale line =
      (if exercise.isAnsweredBy line then locale.pick "Correct!" "Σωστό!"
        else locale.pick "Wrong, the answer is " "Λάθος, η απάντηση είναι " ++
          exercise.revealed locale ++ ".") ++ "\n\n" := by
  have hpraise : praise.textIn locale = locale.pick "Correct!" "Σωστό!" := by
    cases locale <;> rfl
  have hlines : ∀ verdict, joinLines [verdict, ""] = verdict ++ "\n\n" := fun verdict => by
    rw [joinLines_cons, String.append_assoc]
    rfl
  rw [reply, hpraise, correction_format, hlines]

/-- The answer of a drawn exercise, and the text that reveals it. -/
theorem revealed_cases {exercise : Exercise} {name : String} {outcome : Outcome} (locale : Locale)
    (hexpected : exercise.expected = .single name (.ofOutcome outcome)) :
    (∃ q : ℚ, exercise.expected.entries = [(name, .value (.number q))] ∧
      exercise.revealed locale =
        if q.den = 1 then toString q.num else toString q.num ++ "/" ++ toString q.den) ∨
    (exercise.expected.entries = [(name, .special .anyNumber)] ∧
      exercise.revealed locale = locale.pick "Any number." "Οποιοσδήποτε αριθμός") ∨
    (exercise.expected.entries = [(name, .special .noSolution)] ∧
      exercise.revealed locale = locale.pick "No solution" "Καμία λύση") := by
  have hrevealed : exercise.revealed locale = (Answer.ofOutcome outcome).reveal locale := by
    rw [revealed, hexpected]
    rfl
  rw [hrevealed, hexpected]
  cases outcome with
  | root q => exact Or.inl ⟨q, rfl, ratText_eq q⟩
  | special kind =>
      cases kind with
      | anyNumber => exact Or.inr (Or.inl ⟨rfl, by cases locale <;> rfl⟩)
      | noSolution => exact Or.inr (Or.inr ⟨rfl, by cases locale <;> rfl⟩)

end Exercise

/-- At the end the score is printed. -/
theorem Quiz.closing_eq (quiz : Quiz) (score : Score) : quiz.closing score =
    quiz.locale.pick "Score: " "Βαθμολογία: " ++ toString score.right ++ "/" ++
      toString score.asked ++ "\n" := by
  rw [closing, Score.text, result_format, joinLines_cons, joinLines_nil, String.append_empty,
    natText_eq, natText_eq]

end EquationPractice
