/-!
# Texts and blanks in TOML

A TOML document is read from its front by scans: a scan takes a value off the front of a text, or
fails.  This module holds what may stand between values, and the four kinds of quoted text.  Between
double quotes a backslash introduces an escape; between single quotes every character stands for
itself.  Three quotes in a row open a text that may run over several lines.

## Main definitions

* `Toml.Scan`, `Toml.many`: a scan and its repetition.
* `Toml.lineEnd?`, `Toml.skipFiller`: what stands after a line and between the items of an array.
* `Toml.quotedText?`: reads a text in quotes of any kind.
-/

namespace EquationPractice.Toml

/-- Takes a value off the front of a text and returns what follows it. -/
abbrev Scan (α : Type) := List Char → Option (α × List Char)

/-- Scans as many items as possible.  A failing attempt leaves the text as it was before it. -/
def many {α : Type} (item : Scan α) (cs : List Char) : List α × List Char :=
  match item cs with
  | none => ([], cs)
  | some (value, rest) =>
      if rest.length < cs.length then
        let (values, last) := many item rest
        (value :: values, last)
      else ([], cs)
termination_by cs.length

/-! ## Blanks, comments and line breaks -/

/-- A character that texts and comments may hold: no control character except the tab. -/
def isPlain (c : Char) : Bool :=
  c == '\t' || (0x20 ≤ c.toNat && c.toNat ≠ 0x7F)

/-- A space or a tab. -/
def isSpace (c : Char) : Bool :=
  c == ' ' || c == '\t'

/-- The text after its leading spaces and tabs. -/
def skipSpaces (cs : List Char) : List Char :=
  cs.dropWhile isSpace

/-- Scans a line break: a line feed, with or without a carriage return before it. -/
def lineBreak? : List Char → Option (List Char)
  | '\n' :: rest => some rest
  | '\r' :: '\n' :: rest => some rest
  | _ => none

/-- The text after the comment at its front, if there is one. -/
def skipComment : List Char → List Char
  | '#' :: rest => rest.dropWhile isPlain
  | cs => cs

/-- Scans what ends a line: spaces, a comment, and a line break or the end of the text. -/
def lineEnd? (cs : List Char) : Option (List Char) :=
  match skipComment (skipSpaces cs) with
  | [] => some []
  | rest => lineBreak? rest

/-- Scans a piece of the filler between the items of an array: a space, a line break, or a comment
with its line break. -/
def filler? : Scan Unit
  | '#' :: rest => (lineBreak? (rest.dropWhile isPlain)).map ((), ·)
  | c :: rest => if isSpace c then some ((), rest) else (lineBreak? (c :: rest)).map ((), ·)
  | [] => none

/-- The text after the filler at its front. -/
def skipFiller (cs : List Char) : List Char :=
  (many filler? cs).2

/-! ## Escapes -/

/-- The value of a hexadecimal digit. -/
def hexDigit? (c : Char) : Option Nat :=
  if c.isDigit then some (c.toNat - '0'.toNat)
  else if 'a' ≤ c && c ≤ 'f' then some (c.toNat - 'a'.toNat + 10)
  else if 'A' ≤ c && c ≤ 'F' then some (c.toNat - 'A'.toNat + 10)
  else none

/-- Scans exactly so many hexadecimal digits, put behind a number. -/
def hexDigits? : Nat → Nat → Scan Nat
  | 0, value, cs => some (value, cs)
  | count + 1, value, c :: rest => do hexDigits? count (16 * value + (← hexDigit? c)) rest
  | _ + 1, _, [] => none

/-- The character with a code point; surrogates and numbers that are too large have none. -/
def charOf? (n : Nat) : Option Char :=
  if n.isValidChar then some (Char.ofNat n) else none

/-- Scans an escape, after its backslash. -/
def escape? : Scan Char
  | '"' :: rest => some ('"', rest)
  | '\\' :: rest => some ('\\', rest)
  | 'b' :: rest => some ('\x08', rest)
  | 't' :: rest => some ('\t', rest)
  | 'n' :: rest => some ('\n', rest)
  | 'f' :: rest => some ('\x0c', rest)
  | 'r' :: rest => some ('\r', rest)
  | 'u' :: rest => do
      let (n, rest) ← hexDigits? 4 0 rest
      return (← charOf? n, rest)
  | 'U' :: rest => do
      let (n, rest) ← hexDigits? 8 0 rest
      return (← charOf? n, rest)
  | _ => none

/-! ## Quoted texts -/

/-- Scans a character between double quotes. -/
def basicChar? : Scan Char
  | '\\' :: rest => escape? rest
  | c :: rest => if isPlain c && c ≠ '"' then some (c, rest) else none
  | [] => none

/-- Scans a character between single quotes. -/
def literalChar? : Scan Char
  | c :: rest => if isPlain c && c ≠ '\'' then some (c, rest) else none
  | [] => none

/-- Scans a quote or two that do not belong to a run of three. -/
def innerQuotes? (quote : Char) (cs : List Char) : Option (List Char × List Char) :=
  let run := cs.takeWhile (· == quote)
  if run.isEmpty || 2 < run.length then none else some (run, cs.dropWhile (· == quote))

/-- Scans a piece of a text over several lines: a line break, a quote or two, or a character.  Where
there are escapes, a backslash at the end of a line takes the blanks after it away. -/
def multilinePiece? (quote : Char) (char? : Scan Char) (cs : List Char) :
    Option (List Char × List Char) :=
  match lineBreak? cs with
  | some rest => some (['\n'], rest)
  | none =>
      match innerQuotes? quote cs with
      | some piece => some piece
      | none =>
          match char? cs with
          | some (c, rest) => some ([c], rest)
          | none => if quote == '"' then continued? cs else none
where
  /-- Scans a backslash at the end of a line and all blanks and line breaks after it. -/
  continued? : Scan (List Char)
    | '\\' :: rest => do
        let next ← lineBreak? (skipSpaces rest)
        return ([], (many blank? next).2)
    | _ => none
  /-- Scans a space or a line break. -/
  blank? : Scan Unit
    | c :: rest => if isSpace c then some ((), rest) else (lineBreak? (c :: rest)).map ((), ·)
    | [] => none

/-- Scans a text on one line, after its opening quote. -/
def lineText? (quote : Char) (char? : Scan Char) : Scan String := fun cs =>
  match many char? cs with
  | (chars, c :: rest) => if c == quote then some (String.ofList chars, rest) else none
  | (_, []) => none

/-- Scans a text over several lines, after its opening quotes.  A line break right after them is
dropped.  It ends with a run of three quotes, and up to two more quotes before them belong to it. -/
def multilineText? (quote : Char) (char? : Scan Char) : Scan String := fun cs =>
  let (pieces, rest) := many (multilinePiece? quote char?) ((lineBreak? cs).getD cs)
  let run := rest.takeWhile (· == quote)
  if 3 ≤ run.length then
    let extra := List.replicate (min (run.length - 3) 2) quote
    some (String.ofList (pieces.flatten ++ extra), rest.drop (extra.length + 3))
  else none

/-- Scans a text on one line, with its opening quote. -/
def singleQuoted? : Scan String
  | '"' :: rest => lineText? '"' basicChar? rest
  | '\'' :: rest => lineText? '\'' literalChar? rest
  | _ => none

/-- Scans a text in quotes of any kind. -/
def quotedText? : Scan String
  | '"' :: '"' :: '"' :: rest => multilineText? '"' basicChar? rest
  | '\'' :: '\'' :: '\'' :: rest => multilineText? '\'' literalChar? rest
  | cs => singleQuoted? cs

end EquationPractice.Toml
