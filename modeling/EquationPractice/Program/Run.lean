import EquationPractice.Program.Quiz

/-!
# Running the program

From a command line to the report on it.  Files are looked up by a function, the lines that are typed
are given all at once, and a seed is given for draws that do not ask for one, so that a run is a
function of its inputs.

## Main definitions

* `Request.context`: what the commands of a request work with.
* `run`: the report on a command line.
-/

namespace EquationPractice

open Text

/-- The name of the settings file unless another is chosen. -/
def usualSettingsFile : String := "edu_config.toml"

/-- How often a draw may reject words.  The chance that a sound source exhausts it is below one in
`2 ^ attemptLimit`. -/
def attemptLimit : Nat := 10000

/-- What the commands of a request work with: the settings file, in which the request may override the
language, and the standard catalogue. -/
def Request.context (request : Request) (fileText : String → Option String) :
    Except RuleError Context := do
  let catalogue ← Catalogue.standard
  let preferences :=
    Preferences.ofFile (fileText (request.settingsFile.getD usualSettingsFile))
  return ⟨preferences.settings, request.locale.getD preferences.locale, catalogue⟩

/-- The source of the draws that a command line asks for. -/
def Overrides.source (overrides : Overrides) (freshSeed : UInt64) : ChaCha :=
  ChaCha.ofSeed (overrides.seed.getD freshSeed)

/-- Carries out a command.  There is no report when a draw used up its attempts. -/
def Context.carryOut (context : Context) (freshSeed : UInt64) (lines : List String) :
    Command → Option Report
  | .quiz overrides limit =>
      match context.quiz overrides limit with
      | .error e => some (.failed e.message)
      | .ok quiz => quiz.transcript attemptLimit lines (overrides.source freshSeed)
  | .generate overrides showAnswer format =>
      context.generate attemptLimit overrides showAnswer format (overrides.source freshSeed)
  | .check question answer unknownName format =>
      some (context.check question answer unknownName format)
  | .patterns format => some (context.patterns format)

/-- The report on a command line, given the text that is typed. -/
def run (fileText : String → Option String) (freshSeed : UInt64) (input : String)
    (words : List String) : Option Report :=
  match Request.ofArguments? words with
  | none => some ⟨"", .refused⟩
  | some request =>
      match request.context fileText with
      | .error e => some (.failed e.message)
      | .ok context =>
          context.carryOut freshSeed ((splitLines input.toList).map String.ofList) request.command

end EquationPractice
