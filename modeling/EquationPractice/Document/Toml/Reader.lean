import EquationPractice.Document.Toml.Literal
import EquationPractice.Document.Toml.Tree

/-!
# Reading TOML documents

A document is read as a list of lines, each of which holds a header, a pair, or nothing but blanks
and a comment.  The lines are then carried out one after the other on tables under construction.

## Strategy

Arrays and inline tables nest.  As with expressions, a layer is a function of the scan for what it
encloses, and `value?` ties the knot by recursion on the number of levels that may still be opened.

## Main definitions

* `Toml.value?`: scans a value.
* `Toml.read?`: the table that a whole document describes.
-/

namespace EquationPractice.Toml

/-- The most levels of nesting, and the most parts of a key. -/
def maxDepth : Nat := 79

/-! ## Keys -/

/-- A character of a key without quotes. -/
def isKeyChar (c : Char) : Bool :=
  c.isAlphanum || c == '_' || c == '-'

/-- Scans a part of a key, with spaces around it. -/
def keyPart? : Scan String := fun cs =>
  let start := skipSpaces cs
  match singleQuoted? start with
  | some (name, rest) => some (name, skipSpaces rest)
  | none =>
      let name := start.takeWhile isKeyChar
      if name.isEmpty then none
      else some (String.ofList name, skipSpaces (start.dropWhile isKeyChar))

/-- Scans a point and the part of a key after it. -/
def laterKeyPart? : Scan String
  | '.' :: rest => keyPart? rest
  | _ => none

/-- A key: the names on the way to a table, and a name in that table. -/
structure Key where
  path : List String
  name : String
  deriving DecidableEq, Repr

/-- Scans a key. -/
def key? : Scan Key := fun cs => do
  let (first, rest) ← keyPart? cs
  let (later, rest) := many laterKeyPart? rest
  let parts := first :: later
  if maxDepth < parts.length then none
  else return (⟨parts.dropLast, (parts.getLast?).getD first⟩, rest)

/-- Scans a key, an equals sign and a value. -/
def pair? (inner : Scan Value) : Scan (Key × Value) := fun cs => do
  let (key, rest) ← key? cs
  let (v, rest) ← inner (skipSpaces (← expect? '=' rest))
  return ((key, v), rest)

/-! ## Values -/

/-- Scans an item of an array, with the filler around it. -/
def item? (inner : Scan Value) : Scan Value := fun cs => do
  let (v, rest) ← inner (skipFiller cs)
  return (v, skipFiller rest)

/-- Scans a comma and what stands after it. -/
def afterComma? {α : Type} (scan : Scan α) : Scan α
  | ',' :: rest => scan rest
  | _ => none

/-- The text after the comma at its front, if there is one. -/
def skipComma : List Char → List Char
  | ',' :: rest => rest
  | cs => cs

/-- Scans an array, after its opening bracket.  A comma may stand after the last item. -/
def array? (inner : Scan Value) : Scan Value := fun cs =>
  match item? inner cs with
  | none => (expect? ']' (skipFiller cs)).map (.list [], ·)
  | some (first, rest) => do
      let (later, rest) := many (afterComma? (item? inner)) rest
      let last ← expect? ']' (skipFiller (skipComma rest))
      return (.list (first :: later), last)

/-- Scans a pair of an inline table, with the spaces around it. -/
def inlinePair? (inner : Scan Value) : Scan (Key × Value) := fun cs => do
  let (pair, rest) ← pair? inner cs
  return (pair, skipSpaces rest)

/-- The table that holds these pairs. -/
def tableOf? (pairs : List (Key × Value)) : Option Value := do
  let entries ← pairs.foldlM (fun entries (key, v) => putValue key.path key.name v entries) []
  return .table (finishedEntries entries)

/-- Scans an inline table, after its opening brace.  It stands on one line. -/
def inlineTable? (inner : Scan Value) : Scan Value := fun cs =>
  match inlinePair? inner cs with
  | none => (expect? '\x7d' (skipSpaces cs)).map (.table [], ·)
  | some (first, rest) => do
      let (later, rest) := many (afterComma? (inlinePair? inner)) rest
      let last ← expect? '\x7d' rest
      return (← tableOf? (first :: later), last)

/-- Scans a value that encloses no other. -/
def leaf? : Scan Value := fun cs =>
  match quotedText? cs with
  | some (text, rest) => some (.text text, rest)
  | none => literal? cs

/-- Scans a value with at most so many levels of nesting. -/
def valueWithin? : Nat → Scan Value
  | 0 => leaf?
  | levels + 1 => fun
      | '[' :: rest => array? (valueWithin? levels) rest
      | '\x7b' :: rest => inlineTable? (valueWithin? levels) rest
      | cs => leaf? cs

/-- Scans a value. -/
def value? : Scan Value :=
  valueWithin? maxDepth

/-! ## Lines -/

/-- What a line of a document says. -/
inductive Line where
  | blank
  | table (key : Key)
  | appended (key : Key)
  | pair (key : Key) (v : Value)

/-- Scans what a line says, after the spaces at its front. -/
def lineBody? : Scan Line
  | '[' :: '[' :: rest => do
      let (key, rest) ← key? rest
      return (.appended key, ← expect? ']' (← expect? ']' rest))
  | '[' :: rest => do
      let (key, rest) ← key? rest
      return (.table key, ← expect? ']' rest)
  | cs =>
      match pair? value? cs with
      | some ((key, v), rest) => some (.pair key v, rest)
      | none => none

/-- Scans a line with its end. -/
def line? : Scan Line := fun cs =>
  match lineEnd? cs with
  | some rest => some (.blank, rest)
  | none => do
      let (line, rest) ← lineBody? (skipSpaces cs)
      return (line, ← lineEnd? rest)

/-- The lines of a text, if every one of them is well formed. -/
def lines? (cs : List Char) : Option (List Line) :=
  match many line? cs with
  | (lines, []) => some lines
  | _ => none

/-! ## Documents -/

/-- A document under construction: its tables, and the path to the one that was opened last. -/
structure Draft where
  root : Entries
  current : List String

/-- Carries out a line. -/
def Draft.carryOut (draft : Draft) : Line → Option Draft
  | .blank => some draft
  | .table key => do
      return ⟨← openTable key.path key.name draft.root, key.path ++ [key.name]⟩
  | .appended key => do
      return ⟨← appendTable key.path key.name draft.root, key.path ++ [key.name]⟩
  | .pair key v => do
      return ⟨← changeAt false (fun _ inner => putValue key.path key.name v inner) draft.current
        .opened draft.root, draft.current⟩

/-- The text without a byte order mark at its front. -/
def skipByteOrderMark : List Char → List Char
  | '\ufeff' :: rest => rest
  | cs => cs

/-- The table that a document describes. -/
def read? (text : String) : Option Value := do
  let lines ← lines? (skipByteOrderMark text.toList)
  let draft ← lines.foldlM Draft.carryOut ⟨[], []⟩
  return .table (finishedEntries draft.root)

end EquationPractice.Toml
