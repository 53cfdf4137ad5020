import EquationPractice.Document.Value
import EquationPractice.Expr.Printer

/-!
# Values as JSON

A value is written on one line, or spread over lines with two spaces for each level.  Entries keep
their order, and characters outside ASCII stand as they are.
-/

namespace EquationPractice

namespace Json

/-- The digits of a code point, at least four of them. -/
def fourDigits (n : Nat) : List Char :=
  let digits := Nat.toDigits 16 n
  List.replicate (4 - digits.length) '0' ++ digits

/-- One character between quotes. -/
def escapeChar (c : Char) : List Char :=
  if c == '"' || c == '\\' then ['\\', c]
  else if c == '\x08' then ['\\', 'b']
  else if c == '\x0c' then ['\\', 'f']
  else if c == '\n' then ['\\', 'n']
  else if c == '\r' then ['\\', 'r']
  else if c == '\t' then ['\\', 't']
  else if c.toNat < 0x20 then '\\' :: 'u' :: fourDigits c.toNat
  else [c]

/-- A text between quotes. -/
def textChars (text : String) : List Char :=
  '"' :: text.toList.flatMap escapeChar ++ ['"']

/-- Where the parts of a value are placed: on one line, or on lines of their own at some level. -/
inductive Layout where
  | oneLine
  | level (depth : Nat)
  deriving DecidableEq, Repr

namespace Layout

/-- The layout of the parts of a value. -/
def inner : Layout → Layout
  | oneLine => oneLine
  | level depth => level (depth + 1)

/-- What stands before a part, or before the closing bracket. -/
def lineStart : Layout → List Char
  | oneLine => []
  | level depth => '\n' :: List.replicate (2 * depth) ' '

/-- What stands between a name and its value. -/
def colon : Layout → List Char
  | oneLine => [':']
  | level _ => [':', ' ']

/-- Parts between brackets, separated by commas. -/
def enclose (layout : Layout) (opening closing : Char) (parts : List (List Char)) : List Char :=
  if parts.isEmpty then [opening, closing]
  else
    let lines := parts.map (layout.inner.lineStart ++ ·)
    opening :: List.intercalate [','] lines ++ layout.lineStart ++ [closing]

end Layout

mutual

/-- The characters of a value. -/
def chars (layout : Layout) : Value → List Char
  | .nothing | .other => ['n', 'u', 'l', 'l']
  | .flag b => if b then ['t', 'r', 'u', 'e'] else ['f', 'a', 'l', 's', 'e']
  | .integer n => intChars n
  | .text s => textChars s
  | .list items => layout.enclose '[' ']' (itemsChars layout.inner items)
  | .table entries => layout.enclose '\x7b' '\x7d' (entriesChars layout.inner entries)

/-- The characters of every item. -/
def itemsChars (layout : Layout) : List Value → List (List Char)
  | [] => []
  | item :: rest => chars layout item :: itemsChars layout rest

/-- The characters of every entry. -/
def entriesChars (layout : Layout) : List (String × Value) → List (List Char)
  | [] => []
  | entry :: rest => entryChars layout entry :: entriesChars layout rest

/-- The characters of an entry. -/
def entryChars (layout : Layout) : String × Value → List Char
  | (name, value) => textChars name ++ layout.colon ++ chars layout value

end

end Json

/-- A value as JSON on one line. -/
def Value.json (value : Value) : String :=
  String.ofList (Json.chars .oneLine value)

/-- A value as JSON spread over lines. -/
def Value.spreadJson (value : Value) : String :=
  String.ofList (Json.chars (.level 0) value)

end EquationPractice
