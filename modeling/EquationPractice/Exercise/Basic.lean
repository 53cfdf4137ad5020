import EquationPractice.Exercise.Judge
import EquationPractice.Exercise.Question

/-!
# Exercises

An exercise asks for the unknown of an equation of first degree.  It is drawn at random or made from a
question that somebody wrote, and it carries all that is needed to judge answers.

## Main definitions

* `Exercise.generate`: a random exercise.
* `Exercise.ofQuestion`: the exercise for a question.
* `Exercise.accepts`: whether given answers are right.
-/

namespace EquationPractice

open Text

/-- A text without its stars. -/
def starless (cs : List Char) : List Char :=
  cs.filter (· != '*')

/-- An exercise: a question, how it is typeset, and what is expected in which slot. -/
structure Exercise where
  settings : Settings
  question : String
  latex : String
  expected : Slots Answer
  judge : Judge

namespace Exercise

/-- The forms in which the answer may be typed. -/
def permittedForms : List StandardForm :=
  [.decimal, .integer, .signedFraction]

/-- The special answers that may be given. -/
def allowedSpecials : List SpecialAnswer :=
  SpecialAnswer.all

/-- The judge of an exercise. -/
def judgeOf (catalogue : Catalogue) : Except ExerciseError Judge := do
  (← Judge.create catalogue).withForms catalogue permittedForms

/-- The exercise for a question and the way it is typeset: the question is read and solved, and its
solution is expected under the name of the unknown. -/
def build (settings : Settings) (catalogue : Catalogue) (question latex : String) :
    Except ExerciseError Exercise := do
  let equation ← (parseEquation question).mapError ExerciseError.unread
  let outcome ← (equation.solve settings.unknownName).mapError ExerciseError.unsolved
  let judge ← judgeOf catalogue
  return ⟨settings, question, latex, .single settings.unknownName (.ofOutcome outcome), judge⟩

/-- A question without its stars, as it is typeset. -/
def withoutStars (question : String) : String :=
  String.ofList (starless question.toList)

/-- A text as inline mathematics. -/
def inlineMath (body : String) : String :=
  "$" ++ body ++ "$"

/-- A random exercise. -/
def generate {σ : Type} [WordSource σ] (attempts : Nat) (settings : Settings)
    (catalogue : Catalogue) : Draw σ ExerciseError Exercise := do
  liftExcept settings.validate
  let terms ← (Question.draw attempts settings).mapError ExerciseError.sampling
  let question := String.ofList (terms.chars settings.unknownName.toList)
  let body ← dropUnitCoefficients (withoutStars question) settings.unknownName
  liftExcept (build settings catalogue question (inlineMath body))
where
  /-- A computation that draws nothing. -/
  liftExcept {α : Type} (result : Except ExerciseError α) : Draw σ ExerciseError α :=
    match result with
    | .ok value => pure value
    | .error e => throw e

/-- The exercise for a question that somebody wrote.  Blanks are dropped first. -/
def ofQuestion (text : String) (settings : Settings) (catalogue : Catalogue) :
    Except ExerciseError Exercise := do
  settings.validate
  let question := String.ofList (removeBlanks text.toList)
  build settings catalogue question (inlineMath (withoutStars question))

/-! ## What an exercise shows and accepts -/

/-- What is asked for. -/
def title (exercise : Exercise) : Message :=
  let name := exercise.settings.unknownName
  (Message.ofText ("Find the value of " ++ name ++ ".")).withText .greek
    ("Βρες την τιμή του " ++ name ++ ".")

/-- The expected answers in LaTeX or in words. -/
def expectedLatex (exercise : Exercise) (locale : Locale) : Slots String :=
  exercise.expected.map fun _ answer => answer.latex locale

/-- Whether given answers are right.  No slots are interchangeable. -/
def accepts (exercise : Exercise) (given : Slots GivenAnswer) : Bool :=
  exercise.judge.accepts given exercise.expected allowedSpecials []

/-- The same special answer for every slot. -/
def pressAll (exercise : Exercise) (kind : SpecialAnswer) : Slots GivenAnswer :=
  Judge.pressed exercise.expected kind

/-- The same typed text for every slot. -/
def typeAll (exercise : Exercise) (text : String) : Slots GivenAnswer :=
  exercise.expected.map fun _ _ => .typed text

/-- What a typed text gives for every slot: a special answer if it names one, and itself if not. -/
def readTyped (exercise : Exercise) (text : String) : Slots GivenAnswer :=
  match SpecialAnswer.ofTyped? text with
  | some kind => exercise.pressAll kind
  | none => exercise.typeAll text

end Exercise

end EquationPractice
