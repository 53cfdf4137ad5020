/-!
# Command line arguments

The shape of a command line: options, which have a long name and perhaps a letter, flags, which are
options without a value, and operands.  The value of an option stands in the next argument or is
attached to the option itself, as in `--seed=5`, `-d=3` and `-d3`; letters of flags may be bundled.
No option may be given twice.  After `--` every argument is an operand.

An argument that starts with a hyphen is an option, unless the operand that is due may start with a
hyphen and the argument names no option.  A hyphen alone is not an option.

## Main definitions

* `Grammar`: the options, operands and commands that a command line may have.
* `Grammar.read?`: reads arguments up to the end or up to the name of a command.
-/

namespace EquationPractice

/-- An option of a command line; a flag is an option that takes no value. -/
structure OptionSpec where
  long : String
  letter : Option Char
  takesValue : Bool
  deriving DecidableEq, Repr

/-- The options, operands and commands that a command line may have.  Of each operand it is known
whether it may start with a hyphen. -/
structure Grammar where
  options : List OptionSpec
  operands : List Bool
  commands : List String
  deriving DecidableEq, Repr

/-- What arguments gave: options with their values, in which a flag has an empty one, and operands. -/
structure Arguments where
  options : List (String × String)
  operands : List String
  deriving DecidableEq, Repr

namespace Arguments

/-- No arguments. -/
def empty : Arguments := ⟨[], []⟩

/-- The value that was given for an option. -/
def value? (arguments : Arguments) (long : String) : Option String :=
  arguments.options.lookup long

/-- Whether an option was given. -/
def has (arguments : Arguments) (long : String) : Bool :=
  (arguments.value? long).isSome

/-- Gives an option a value, unless it has one already. -/
def put? (arguments : Arguments) (spec : OptionSpec) (value : String) : Option Arguments :=
  if arguments.has spec.long then none
  else some { arguments with options := arguments.options ++ [(spec.long, value)] }

/-- Gives several options their values. -/
def putAll? (arguments : Arguments) (given : List (OptionSpec × String)) : Option Arguments :=
  given.foldlM (fun arguments (spec, value) => arguments.put? spec value) arguments

end Arguments

/-- What a single argument is: options, of which the last may still await its value, or a word, which
is a value or an operand. -/
inductive Piece where
  | options (given : List (OptionSpec × String)) (awaiting : Option OptionSpec)
  | word
  deriving DecidableEq, Repr

namespace Grammar

/-- The option with a long name. -/
def long? (grammar : Grammar) (name : String) : Option OptionSpec :=
  grammar.options.find? (·.long == name)

/-- The option with a letter. -/
def letter? (grammar : Grammar) (c : Char) : Option OptionSpec :=
  grammar.options.find? (·.letter == some c)

/-- Whether the operand after so many others may start with a hyphen. -/
def allowsHyphen (grammar : Grammar) (index : Nat) : Bool :=
  grammar.operands[index]?.getD false

/-! ## Single arguments -/

/-- Reads the text after two hyphens: a name, and perhaps an equals sign and a value. -/
def longPiece? (grammar : Grammar) (cs : List Char) : Option Piece :=
  match grammar.long? (String.ofList (cs.takeWhile (· != '='))) with
  | none => none
  | some spec =>
      match spec.takesValue, cs.dropWhile (· != '=') with
      | true, _ :: value => some (.options [(spec, String.ofList value)] none)
      | true, [] => some (.options [] (some spec))
      | false, [] => some (.options [(spec, "")] none)
      | false, _ :: _ => none

/-- Reads the text after one hyphen: letters of flags, and perhaps the letter of an option with its
value. -/
def shortPiece? (grammar : Grammar) : List Char → Option Piece
  | [] => some (.options [] none)
  | c :: rest => do
      let spec ← grammar.letter? c
      if spec.takesValue then
        match rest with
        | [] => some (.options [] (some spec))
        | '=' :: value => some (.options [(spec, String.ofList value)] none)
        | value => some (.options [(spec, String.ofList value)] none)
      else
        match ← shortPiece? grammar rest with
        | .options given awaiting => some (.options ((spec, "") :: given) awaiting)
        | .word => none

/-- Whether a text after one hyphen holds a letter of no option. -/
def hasUnknownLetter (grammar : Grammar) (cs : List Char) : Bool :=
  cs.any fun c => (grammar.letter? c).isNone

/-- What an argument is when so many operands stand before it. -/
def piece? (grammar : Grammar) (index : Nat) : List Char → Option Piece
  | '-' :: '-' :: rest =>
      if (grammar.long? (String.ofList (rest.takeWhile (· != '=')))).isNone &&
          grammar.allowsHyphen index then some .word
      else grammar.longPiece? rest
  | '-' :: c :: rest =>
      if grammar.hasUnknownLetter (c :: rest) && grammar.allowsHyphen index then some .word
      else grammar.shortPiece? (c :: rest)
  | _ => some .word

/-! ## All arguments -/

/-- Takes a word as an operand, if one more is allowed. -/
def operand? (grammar : Grammar) (arguments : Arguments) (word : String) : Option Arguments :=
  if arguments.operands.length < grammar.operands.length then
    some { arguments with operands := arguments.operands ++ [word] }
  else none

/-- Reads arguments up to the end, or up to the name of a command, which is returned with the
arguments after it.  The option that awaits its value is passed along. -/
def readFrom? (grammar : Grammar) (arguments : Arguments) :
    Option OptionSpec → List String → Option (Arguments × Option (String × List String))
  | none, [] => some (arguments, none)
  | some _, [] => none
  | awaiting, argument :: rest =>
      if awaiting.isNone && argument ∈ grammar.commands then
        some (arguments, some (argument, rest))
      else if argument == "--" then
        if awaiting.isSome then none
        else (rest.foldlM grammar.operand? arguments).map (·, none)
      else do
        match ← grammar.piece? arguments.operands.length argument.toList, awaiting with
        | .options given next, none => grammar.readFrom? (← arguments.putAll? given) next rest
        | .options _ _, some _ => none
        | .word, none => grammar.readFrom? (← grammar.operand? arguments argument) none rest
        | .word, some spec => grammar.readFrom? (← arguments.put? spec argument) none rest

/-- Reads arguments up to the end, or up to the name of a command. -/
def read? (grammar : Grammar) (words : List String) :
    Option (Arguments × Option (String × List String)) :=
  grammar.readFrom? .empty none words

end Grammar

end EquationPractice
