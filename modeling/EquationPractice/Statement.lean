import EquationPractice.Equation
import EquationPractice.Expr.Reader
import EquationPractice.Text.Quoted

/-!
# Reading whole texts

A text is an expression or a relation between two of them.  Before anything is read, blank texts, long
texts and deeply nested ones are refused, so that no text can exhaust the reader.

## Main definitions

* `parseBy`, `parseStatementBy`: a text as an expression or a statement, for any reader of
  expressions.
* `parse`: a text as an expression.
* `parseStatement`: a text as a relation, or else as an expression.
* `parseEquation`: a text as a relation.
-/

namespace EquationPractice

open Text

/-- Why a text was not read. -/
inductive ReadError where
  | stuck (rest : List Char)
  | unread (rest : List Char)
  | blank
  | tooDeep
  | tooLong
  | notAnEquation
  deriving DecidableEq, Repr

/-- The deepest nesting of parentheses that is read. -/
def maxNesting : Nat := 64

/-- The longest text that is read, in characters.  It bounds the depth of the tree. -/
def maxLength : Nat := 1024

/-- What is said about a text that was not read. -/
def ReadError.message : ReadError → String
  | stuck rest =>
      "Parse error: Parsing Error: Error \x7b input: " ++ quoted (String.ofList rest) ++
        ", code: Tag \x7d"
  | unread rest => "Unconsumed input: " ++ String.ofList rest
  | blank => "Empty input"
  | tooDeep => "Parentheses nested deeper than " ++ toString maxNesting ++ " levels"
  | tooLong => "Input longer than " ++ toString maxLength ++ " characters"
  | notAnEquation => "Expected an equation, found an expression"

/-- Whether at most `limit` parentheses are open at once, given how many are open now.  A closing
parenthesis without an open one is passed over. -/
def nestsWithin (limit : Nat) : Nat → List Char → Bool
  | _, [] => true
  | depth, c :: rest =>
      if c = '(' then depth < limit && nestsWithin limit (depth + 1) rest
      else if c = ')' then nestsWithin limit (depth - 1) rest
      else nestsWithin limit depth rest

/-- Refuses a text that is blank, too long or nested too deeply, in this order. -/
def checkText (cs : List Char) : Except ReadError Unit :=
  if cs.all isBlank then .error .blank
  else if maxLength < cs.length then .error .tooLong
  else if !nestsWithin maxNesting 0 cs then .error .tooDeep
  else .ok ()

/-- The expression that a given reader reads off a text; only blanks may follow it. -/
def parseBy (reader : Reader Expr) (cs : List Char) : Except ReadError Expr :=
  match checkText cs with
  | .error e => .error e
  | .ok () =>
      match reader cs with
      | .error stuck => .error (.stuck stuck.rest)
      | .ok (e, rest) => if rest.all isBlank then .ok e else .error (.unread (trim rest))

/-- The expression that a text spells; only blanks may follow it. -/
def parseChars (cs : List Char) : Except ReadError Expr :=
  parseBy readExpr cs

/-- The expression that a text spells. -/
def parse (text : String) : Except ReadError Expr :=
  parseChars text.toList

/-! ## Statements -/

/-- What a text states: the value of an expression, or a relation. -/
inductive Statement where
  | expression (e : Expr)
  | equation (equation : Equation)
  deriving DecidableEq, Repr

/-- Reads a relation sign; of two signs that start alike the longer one is read. -/
def relation : Reader Relation := fun cs =>
  match skipGaps cs with
  | '!' :: '=' :: rest => .ok (.notEqual, rest)
  | '<' :: '=' :: rest => .ok (.atMost, rest)
  | '>' :: '=' :: rest => .ok (.atLeast, rest)
  | '=' :: rest => .ok (.equal, rest)
  | '<' :: rest => .ok (.less, rest)
  | '>' :: rest => .ok (.greater, rest)
  | stuck => .error ⟨stuck⟩

/-- Reads two expressions around a relation sign, with a given reader of expressions. -/
def readEquationBy (reader : Reader Expr) : Reader Equation := fun cs =>
  match reader cs with
  | .error stuck => .error stuck
  | .ok (lhs, afterLeft) =>
      match relation afterLeft with
      | .error stuck => .error stuck
      | .ok (sign, afterSign) =>
          match reader afterSign with
          | .error stuck => .error stuck
          | .ok (rhs, rest) => .ok (⟨lhs, sign, rhs⟩, rest)

/-- The relation that a text states, if it states one and nothing but blanks follows. -/
def wholeEquationBy? (reader : Reader Expr) (cs : List Char) : Option Equation :=
  match readEquationBy reader cs with
  | .ok (equation, rest) => if rest.all isBlank then some equation else none
  | .error _ => none

/-- What a text states.  A text that is no relation is read as an expression, and the error is that
of the expression. -/
def parseStatementBy (reader : Reader Expr) (cs : List Char) : Except ReadError Statement :=
  match checkText cs with
  | .error e => .error e
  | .ok () =>
      match wholeEquationBy? reader cs with
      | some equation => .ok (.equation equation)
      | none =>
          match reader cs with
          | .error stuck => .error (.stuck stuck.rest)
          | .ok (e, rest) => if rest.all isBlank then .ok (.expression e) else .error (.unread rest)

/-- Reads two expressions around a relation sign. -/
def readEquation : Reader Equation :=
  readEquationBy readExpr

/-- The relation that a text states as a whole. -/
def wholeEquation? (cs : List Char) : Option Equation :=
  wholeEquationBy? readExpr cs

/-- What a text states. -/
def parseStatementChars (cs : List Char) : Except ReadError Statement :=
  parseStatementBy readExpr cs

/-- What a text states. -/
def parseStatement (text : String) : Except ReadError Statement :=
  parseStatementChars text.toList

/-- The relation that a text states. -/
def parseEquationChars (cs : List Char) : Except ReadError Equation :=
  match parseStatementChars cs with
  | .error e => .error e
  | .ok (.equation equation) => .ok equation
  | .ok (.expression _) => .error .notAnEquation

/-- The relation that a text states. -/
def parseEquation (text : String) : Except ReadError Equation :=
  parseEquationChars text.toList

end EquationPractice
