import EquationPractice.Program.Report

/-!
# Quizzes

A quiz asks one question after the other and judges the line that is typed for each, until enough
questions were answered or the lines are used up.  Questions are drawn from the source alone: what is
typed has no influence on them.

## Main definitions

* `Exercise.asking`, `Exercise.isAnsweredBy`, `Exercise.reply`: the parts of a round.
* `Quiz.play`: the rounds of a quiz, given all lines.
* `Quiz.transcript`: everything that a quiz prints, given all lines.
-/

namespace EquationPractice

open Text

/-! ## What is said -/

/-- What is said to whoever is to answer. -/
def invitation : Message :=
  (Message.ofText "(type the answer and press enter)").withText .greek
    "(γράψε την απάντηση και πάτα enter)"

/-- What is said about a right answer. -/
def praise : Message :=
  (Message.ofText "Correct!").withText .greek "Σωστό!"

/-- What is said about a wrong answer; the place is for the right one. -/
def correction : Message :=
  (Message.ofText "Wrong, the answer is \x7b\x7d.").withText .greek
    "Λάθος, η απάντηση είναι \x7b\x7d."

/-- What is said at the end; the places are for the right answers and for all of them. -/
def result : Message :=
  (Message.ofText "Score: \x7b\x7d/\x7b\x7d").withText .greek "Βαθμολογία: \x7b\x7d/\x7b\x7d"

/-! ## A round -/

namespace Exercise

/-- How a question is asked, up to the mark behind which the answer is typed. -/
def asking (exercise : Exercise) (locale : Locale) : String :=
  joinLines [exercise.title.textIn locale, "  " ++ exercise.question,
    invitation.textIn locale] ++ "> "

/-- Whether a typed line is the right answer. -/
def isAnsweredBy (exercise : Exercise) (line : String) : Bool :=
  exercise.accepts (exercise.readTyped (String.ofList (trim line.toList)))

/-- The right answers as they are revealed. -/
def revealed (exercise : Exercise) (locale : Locale) : String :=
  ", ".intercalate (exercise.expected.entries.map fun (_, answer) => answer.reveal locale)

/-- What is said about a typed line. -/
def reply (exercise : Exercise) (locale : Locale) (line : String) : String :=
  let verdict :=
    if exercise.isAnsweredBy line then praise.textIn locale
    else correction.format locale [exercise.revealed locale]
  joinLines [verdict, ""]

end Exercise

/-! ## Scores -/

/-- How many questions were answered, and how many of them rightly. -/
structure Score where
  right : Nat
  asked : Nat
  deriving DecidableEq, Repr

namespace Score

/-- No question was answered yet. -/
def zero : Score := ⟨0, 0⟩

/-- The score after one more answer. -/
def add (score : Score) (isRight : Bool) : Score :=
  ⟨if isRight then score.right + 1 else score.right, score.asked + 1⟩

/-- A score in words. -/
def text (score : Score) (locale : Locale) : String :=
  result.format locale
    [String.ofList (natChars score.right), String.ofList (natChars score.asked)]

end Score

/-! ## All rounds -/

/-- What the rounds of a quiz printed, the score after them, and the error that ended them. -/
structure Rounds where
  output : String
  score : Score
  error : Option ExerciseError
  deriving DecidableEq, Repr

/-- A quiz: the settings of its exercises, and how many of them there are at most. -/
structure Quiz where
  settings : Settings
  locale : Locale
  catalogue : Catalogue
  limit : Option Nat
  deriving DecidableEq, Repr

namespace Quiz

/-- Whether enough questions were answered. -/
def isOver (quiz : Quiz) (score : Score) : Bool :=
  match quiz.limit with
  | some limit => limit ≤ score.asked
  | none => false

variable {σ : Type} [WordSource σ]

/-- Draws the next exercise. -/
def next (quiz : Quiz) (attempts : Nat) : Draw σ ExerciseError Exercise :=
  Exercise.generate attempts quiz.settings quiz.catalogue

/-- Plays the rounds for the given lines, from a score on.  When the lines are used up one more
question is asked, which nobody answers. -/
def play (quiz : Quiz) (attempts : Nat) (lines : List String) (score : Score) (source : σ) :
    Option Rounds :=
  if quiz.isOver score then some ⟨"", score, none⟩
  else
    match (quiz.next attempts).outcome source with
    | none => none
    | some (.error e, _) => some ⟨"", score, some e⟩
    | some (.ok exercise, rest) =>
        match lines with
        | [] => some ⟨exercise.asking quiz.locale ++ "\n", score, none⟩
        | line :: later => do
            let rounds ← quiz.play attempts later (score.add (exercise.isAnsweredBy line)) rest
            return { rounds with
              output := exercise.asking quiz.locale ++ exercise.reply quiz.locale line ++
                rounds.output }

/-- What a quiz prints when it is over. -/
def closing (quiz : Quiz) (score : Score) : String :=
  joinLines [score.text quiz.locale]

/-- Everything that a quiz prints. -/
def transcript (quiz : Quiz) (attempts : Nat) (lines : List String) (source : σ) :
    Option Report :=
  (quiz.play attempts lines .zero source).map fun rounds =>
    match rounds.error with
    | none => ⟨rounds.output ++ quiz.closing rounds.score, .finished⟩
    | some e => ⟨rounds.output, .failed e.message⟩

end Quiz

/-- The quiz that a command line asks for. -/
def Context.quiz (context : Context) (overrides : Overrides) (limit : Option Nat) :
    Except ExerciseError Quiz := do
  return ⟨← overrides.apply context.settings, context.locale, context.catalogue, limit⟩

end EquationPractice
