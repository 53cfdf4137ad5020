import EquationPractice.Document.Json
import EquationPractice.Exercise.Basic
import EquationPractice.Program.Command
import EquationPractice.Sampling.ChaCha
import EquationPractice.Text.Lines

/-!
# Reports

What the commands that need no conversation print: an exercise drawn at random, the judgement of an
answer, and the rules of the catalogue.

## Main definitions

* `Report`: what a command printed and how it ended.
* `Context.generate`, `Context.check`, `Context.patterns`: the commands.
-/

namespace EquationPractice

open Text

/-- How a command ended: well, with an error, or not at all because the command line was refused. -/
inductive Ending where
  | finished
  | failed (message : String)
  | refused
  deriving DecidableEq, Repr

/-- The exit code of the program. -/
def Ending.exitCode : Ending → Nat
  | finished => 0
  | failed _ => 1
  | refused => 2

/-- What a command printed and how it ended. -/
structure Report where
  output : String
  ending : Ending
  deriving DecidableEq, Repr

/-- The report of a command that failed before it printed anything. -/
def Report.failed (message : String) : Report :=
  ⟨"", .failed message⟩

/-- What every command needs besides its own arguments. -/
structure Context where
  settings : Settings
  locale : Locale
  catalogue : Catalogue
  deriving DecidableEq, Repr

/-! ## Exercises at random -/

/-- The settings after a command line has overridden some, if they are sound. -/
def Overrides.apply (overrides : Overrides) (settings : Settings) :
    Except ExerciseError Settings := do
  let difficulty ← match overrides.difficulty with
    | some level => Difficulty.ofLevel level
    | none => .ok settings.difficulty
  let changed : Settings := ⟨difficulty, overrides.unknownName.getD settings.unknownName,
    overrides.unknownTerms.getD settings.unknownTerms,
    overrides.constantTerms.getD settings.constantTerms⟩
  changed.validate
  return changed

namespace Exercise

/-- The lines that show an exercise. -/
def shownLines (exercise : Exercise) (locale : Locale) (showAnswer : Bool) : List String :=
  [exercise.title.textIn locale, exercise.question] ++
    if showAnswer then
      exercise.expected.entries.map fun (name, answer) => name ++ " = " ++ answer.text
    else []

/-- An exercise as a document. -/
def toValue (exercise : Exercise) (locale : Locale) : Value :=
  let texts (slots : Slots String) : Value :=
    .table (slots.entries.map fun (name, text) => (name, .text text))
  .table
    [("ok", .flag true), ("title", .text (exercise.title.textIn locale)),
      ("question", .text exercise.question), ("question_latex", .text exercise.latex),
      ("difficulty", .integer exercise.settings.difficulty.level),
      ("variable", .text exercise.settings.unknownName),
      ("expected_answers", texts (exercise.expected.map fun _ answer => answer.text)),
      ("expected_answers_latex", texts (exercise.expectedLatex locale))]

end Exercise

/-- An error as a document. -/
def errorValue (message : String) : Value :=
  .table [("ok", .flag false), ("error", .text message)]

namespace Context

/-- Draws an exercise with the settings that a command line asks for. -/
def drawExercise {σ : Type} [WordSource σ] (context : Context) (attempts : Nat)
    (overrides : Overrides) (source : σ) : Option (Except ExerciseError Exercise) :=
  match overrides.apply context.settings with
  | .error e => some (.error e)
  | .ok settings =>
      ((Exercise.generate attempts settings context.catalogue).outcome source).map (·.1)

/-- The report on a drawn exercise, or on the reason why there is none. -/
def exerciseReport (context : Context) (showAnswer : Bool) (format : OutputFormat) :
    Except ExerciseError Exercise → Report
  | .ok exercise =>
      match format with
      | .text => ⟨joinLines (exercise.shownLines context.locale showAnswer), .finished⟩
      | .json => ⟨joinLines [(exercise.toValue context.locale).spreadJson], .finished⟩
  | .error e =>
      match format with
      | .text => .failed e.message
      | .json => ⟨joinLines [(errorValue e.message).json], .failed e.message⟩

/-- Prints an exercise drawn at random. -/
def generate {σ : Type} [WordSource σ] (context : Context) (attempts : Nat)
    (overrides : Overrides) (showAnswer : Bool) (format : OutputFormat) (source : σ) :
    Option Report :=
  (context.drawExercise attempts overrides source).map
    (context.exerciseReport showAnswer format)

/-! ## Judgements -/

/-- The exercise for a question, with the usual settings except for the name of the unknown. -/
def questionExercise (context : Context) (question : String) (unknownName : Option String) :
    Except ExerciseError Exercise :=
  Exercise.ofQuestion question
    { Settings.default with unknownName := unknownName.getD context.settings.unknownName }
    context.catalogue

/-- How an answer is shown, and what it gives for the slots of an exercise. -/
def submitted (exercise : Exercise) : GivenAnswer → String × Slots GivenAnswer
  | .pressed kind => (kind.name, exercise.pressAll kind)
  | .typed text =>
      match SpecialAnswer.ofTyped? text with
      | some kind => (kind.name, exercise.pressAll kind)
      | none => (text, exercise.typeAll text)

/-- Judges an answer to a question. -/
def check (context : Context) (question : String) (answer : GivenAnswer)
    (unknownName : Option String) (format : OutputFormat) : Report :=
  match context.questionExercise question unknownName with
  | .error e => .failed e.message
  | .ok exercise =>
      let (shown, given) := submitted exercise answer
      let right := exercise.accepts given
      match format with
      | .text => ⟨joinLines [if right then "correct" else "incorrect"], .finished⟩
      | .json =>
          let value : Value := .table
            [("ok", .flag true), ("question", .text exercise.question), ("answer", .text shown),
              ("correct", .flag right)]
          ⟨joinLines [value.spreadJson], .finished⟩

/-! ## Rules -/

/-- What a rule says about its own examples. -/
def selfTest (rule : Rule) : String :=
  match rule.verify with
  | .ok _ => "ok"
  | .error e => e.message

/-- A text filled up with spaces to a width. -/
def padded (width : Nat) (text : String) : String :=
  text ++ String.ofList (List.replicate (width - text.length) ' ')

/-- Lists the rules of the catalogue and holds them against their own examples. -/
def patterns (context : Context) (format : OutputFormat) : Report :=
  let rules := context.catalogue.rules
  let failures := rules.countP fun rule => !rule.verify.isOk
  let output := match format with
    | .text => joinLines (rules.map fun rule => padded 4 (selfTest rule) ++ " " ++ rule.source)
    | .json => joinLines [(Value.list (rules.map fun rule => .table
        [("source", .text rule.source), ("with_sign", .text rule.signedSource),
          ("self_test", .text (selfTest rule))])).spreadJson]
  if failures = 0 then ⟨output, .finished⟩
  else ⟨output, .failed (toString failures ++ " pattern(s) failed their self-test")⟩

end Context

end EquationPractice
