import EquationPractice.Document.Preferences
import EquationPractice.Exercise.Answer
import EquationPractice.Program.Arguments

/-!
# Commands

What the program can be asked to do, and how a command line asks for it.  Three options belong to the
program as a whole and may stand before the name of the command or after it; given twice, the later
one counts.

## Main definitions

* `Command`: a command with its settings.
* `Request.ofArguments?`: the request that a command line makes.
-/

namespace EquationPractice

/-- How a result is shown. -/
inductive OutputFormat where
  | text
  | json
  deriving DecidableEq, Repr

/-- The settings of an exercise that a command line overrides, and the seed of its draws. -/
structure Overrides where
  difficulty : Option Nat
  unknownName : Option String
  unknownTerms : Option Nat
  constantTerms : Option Nat
  seed : Option UInt64
  deriving DecidableEq, Repr

/-- What the program is asked to do. -/
inductive Command where
  | quiz (overrides : Overrides) (count : Option Nat)
  | generate (overrides : Overrides) (showAnswer : Bool) (format : OutputFormat)
  | check (question : String) (answer : GivenAnswer) (unknownName : Option String)
      (format : OutputFormat)
  | patterns (format : OutputFormat)
  deriving DecidableEq, Repr

/-- A command, the settings file that it goes by, and the language that it is to use. -/
structure Request where
  command : Command
  settingsFile : Option String
  locale : Option Locale
  deriving DecidableEq, Repr

/-! ## Values of options -/

/-- A natural number below a limit: digits, with or without a plus sign. -/
def readNat? (limit : Nat) (text : String) : Option Nat :=
  let digits := match text.toList with
    | '+' :: rest => rest
    | cs => cs
  let n := Nat.ofDigitChars 10 digits 0
  if digits.isEmpty || !digits.all Char.isDigit || limit ≤ n then none else some n

/-- A natural number below a limit, where zero may have a minus sign. -/
def readSignedNat? (limit : Nat) (text : String) : Option Nat :=
  match text.toList with
  | '-' :: digits =>
      if digits.isEmpty || !digits.all (· == '0') then none else some 0
  | _ => readNat? limit text

/-- A text that is not empty. -/
def readFileName? (text : String) : Option String :=
  if text.isEmpty then none else some text

/-- The format with a name. -/
def OutputFormat.ofName? (name : String) : Option OutputFormat :=
  if name == "text" then some .text else if name == "json" then some .json else none

/-- The special answer that an option names. -/
def SpecialAnswer.ofOption? (name : String) : Option SpecialAnswer :=
  if name == "any-number" then some .anyNumber
  else if name == "no-solution" then some .noSolution
  else none

namespace Arguments

/-- The value of an option, if it was given; it must be readable then. -/
def read? {α : Type} (arguments : Arguments) (long : String) (read : String → Option α) :
    Option (Option α) :=
  match arguments.value? long with
  | none => some none
  | some text => (read text).map some

/-- The format that was asked for, or text. -/
def format? (arguments : Arguments) : Option OutputFormat :=
  (arguments.read? "format" OutputFormat.ofName?).map (·.getD .text)

/-- The settings that are overridden. -/
def overrides? (arguments : Arguments) : Option Overrides := do
  return ⟨← arguments.read? "difficulty" (readSignedNat? UInt8.size),
    arguments.value? "variable",
    ← arguments.read? "x-terms" (readNat? UInt64.size),
    ← arguments.read? "non-x-terms" (readNat? UInt64.size),
    (← arguments.read? "seed" (readNat? UInt64.size)).map Nat.toUInt64⟩

end Arguments

/-! ## The command line -/

/-- The option with a long name and a value. -/
def valueOption (long : String) : OptionSpec := ⟨long, none, true⟩

/-- The options of the program as a whole. -/
def globalOptions : List OptionSpec :=
  [valueOption "config", valueOption "locale", ⟨"verbose", some 'v', false⟩]

/-- The options of an exercise. -/
def exerciseOptions : List OptionSpec :=
  [⟨"difficulty", some 'd', true⟩, valueOption "variable", valueOption "x-terms",
    valueOption "non-x-terms", valueOption "seed"]

/-- The names of the commands. -/
def commandNames : List String :=
  ["quiz", "generate", "check", "patterns"]

/-- The command line up to the name of the command. -/
def programGrammar : Grammar :=
  ⟨globalOptions, [], commandNames⟩

/-- The command line after the name of a command. -/
def commandGrammar (name : String) : Grammar :=
  if name == "quiz" then ⟨globalOptions ++ exerciseOptions ++ [valueOption "count"], [], []⟩
  else if name == "generate" then
    ⟨globalOptions ++ exerciseOptions ++ [⟨"show-answer", none, false⟩, valueOption "format"], [],
      []⟩
  else if name == "check" then
    ⟨globalOptions ++ [valueOption "special", valueOption "variable", valueOption "format"],
      [false, true], []⟩
  else ⟨globalOptions ++ [valueOption "format"], [], []⟩

namespace Command

/-- The request to check an answer.  The answer is typed or special, and not both. -/
def ofCheck? (arguments : Arguments) : Option Command := do
  let special ← arguments.read? "special" SpecialAnswer.ofOption?
  let format ← arguments.format?
  let unknownName := arguments.value? "variable"
  match arguments.operands, special with
  | [question], some kind => some (check question (.pressed kind) unknownName format)
  | [question, answer], none => some (check question (.typed answer) unknownName format)
  | _, _ => none

/-- The command with a name and its arguments. -/
def ofArguments? (name : String) (arguments : Arguments) : Option Command :=
  if name == "quiz" then do
    return quiz (← arguments.overrides?) (← arguments.read? "count" (readNat? UInt64.size))
  else if name == "generate" then do
    return generate (← arguments.overrides?) (arguments.has "show-answer") (← arguments.format?)
  else if name == "check" then ofCheck? arguments
  else if name == "patterns" then arguments.format?.map patterns
  else none

end Command

namespace Request

/-- The request that a command line makes, or nothing if it is not well formed. -/
def ofArguments? (words : List String) : Option Request := do
  match ← programGrammar.read? words with
  | (_, none) => none
  | (before, some (name, rest)) =>
      let (after, _) ← (commandGrammar name).read? rest
      let command ← Command.ofArguments? name after
      let earlierFile ← before.read? "config" readFileName?
      let laterFile ← after.read? "config" readFileName?
      let earlierLocale ← before.read? "locale" readLocale?
      let laterLocale ← after.read? "locale" readLocale?
      return ⟨command, laterFile <|> earlierFile, laterLocale <|> earlierLocale⟩
where
  /-- The language that a text asks for. -/
  readLocale? (text : String) : Option Locale :=
    (Locale.ofText text).toOption

end Request

end EquationPractice
