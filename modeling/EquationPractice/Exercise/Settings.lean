import EquationPractice.Rule.Catalogue
import EquationPractice.Sampling.IntRange
import EquationPractice.Solution.LinearForm
import EquationPractice.Statement

/-!
# Settings of an exercise

How hard an exercise is, what its unknown is called, and how many terms it has.  Only the highest
difficulty leaves a choice of the number of terms.

## Main definitions

* `Settings.validate`: the first fault of the settings.
* `ExerciseError`: everything that can go wrong with an exercise.
-/

namespace EquationPractice

open Text

/-- How hard an exercise is: `a*x+b=0` with a positive integer root, the same with any coefficients,
or any number of terms on both sides. -/
inductive Difficulty where
  | easy
  | medium
  | hard
  deriving DecidableEq, Repr

namespace Difficulty

/-- Every difficulty. -/
def all : List Difficulty := [easy, medium, hard]

/-- The number of a difficulty. -/
def level : Difficulty → Nat
  | easy => 1
  | medium => 2
  | hard => 3

/-- The difficulty with a number. -/
def ofLevel? (level : Nat) : Option Difficulty :=
  all.find? (·.level == level)

/-- The name of a difficulty. -/
def name : Difficulty → String
  | easy => "Easy"
  | medium => "Medium"
  | hard => "Hard"

end Difficulty

/-- What is wrong with the settings of an exercise, or with the catalogue it is to use. -/
inductive SettingsFault where
  | termsFixed
  | noUnknown
  | tooManyTerms
  | nameTooLong
  | notAName (name : String)
  | missingForm (form : StandardForm)
  deriving DecidableEq, Repr

/-- Why there is no exercise. -/
inductive ExerciseError where
  | invalidDifficulty (level : Nat)
  | invalidSettings (fault : SettingsFault)
  | sampling (e : SamplingError)
  | unread (e : ReadError)
  | unsolved (e : SolveError)
  | rule (e : RuleError)
  deriving DecidableEq, Repr

/-- The settings of an exercise. -/
structure Settings where
  difficulty : Difficulty
  unknownName : String
  unknownTerms : Nat
  constantTerms : Nat
  deriving DecidableEq, Repr

namespace Settings

/-- The number of terms of each kind, unless it is chosen. -/
def usualTerms : Nat := 3

/-- The largest number of terms of each kind. -/
def maxTerms : Nat := 20

/-- The longest name of an unknown, in bytes. -/
def maxNameLength : Nat := 16

/-- The settings that hold unless others are chosen. -/
def default : Settings :=
  ⟨.easy, "x", usualTerms, usualTerms⟩

/-- Whether a text is a letter followed by letters and digits. -/
def isName : List Char → Bool
  | [] => false
  | c :: rest => c.isAlpha && rest.all Char.isAlphanum

/-- The first fault of the settings. -/
def fault? (settings : Settings) : Option SettingsFault :=
  if (settings.unknownTerms ≠ usualTerms || settings.constantTerms ≠ usualTerms) &&
      settings.difficulty ≠ .hard then some .termsFixed
  else if settings.unknownTerms = 0 then some .noUnknown
  else if maxTerms < settings.unknownTerms || maxTerms < settings.constantTerms then
    some .tooManyTerms
  else if maxNameLength < settings.unknownName.utf8ByteSize then some .nameTooLong
  else if !isName settings.unknownName.toList then some (.notAName settings.unknownName)
  else none

/-- Refuses faulty settings. -/
def validate (settings : Settings) : Except ExerciseError Unit :=
  match settings.fault? with
  | some fault => .error (.invalidSettings fault)
  | none => .ok ()

end Settings

/-- A settings fault in words. -/
def SettingsFault.text : SettingsFault → String
  | termsFixed => "number of terms can be set manually only on highest difficulty"
  | noUnknown => "at least one term must contain the variable"
  | tooManyTerms => "at most " ++ toString Settings.maxTerms ++ " terms of each kind"
  | nameTooLong =>
      "variable name longer than " ++ toString Settings.maxNameLength ++ " characters"
  | notAName name => "variable name " ++ quoted name ++ " is not an identifier"
  | missingForm form => "pattern catalogue lacks " ++ form.name

/-- What is said when there is no exercise. -/
def ExerciseError.message : ExerciseError → String
  | invalidDifficulty level => "difficulty " ++ toString level ++ " not allowed"
  | invalidSettings fault => "invalid exercise configuration: " ++ fault.text
  | sampling e => e.message
  | unread e => "generated question does not parse: " ++ e.message
  | unsolved e => "generated question can't be solved: " ++ e.message
  | rule e => e.message

/-- The difficulty with a number, or the refusal of the number. -/
def Difficulty.ofLevel (level : Nat) : Except ExerciseError Difficulty :=
  match ofLevel? level with
  | some difficulty => .ok difficulty
  | none => .error (.invalidDifficulty level)

end EquationPractice
