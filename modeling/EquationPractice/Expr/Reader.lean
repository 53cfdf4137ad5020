import EquationPractice.Expr.Basic
import EquationPractice.Text.Blank

/-!
# Reading expressions

A reader takes a value off the front of a text, or says where it got stuck.  Expressions are read by
layers that follow the binding strengths:

```text
sum      = term  (sign term)*                    left to right
term     = signed (('*' or '/') signed)*  factor*   left to right, factors multiplied on
signed   = sign* power
power    = atom ('^' sign* atom)*                right to left
atom     = number, name, or '(' sum ')'
```

Gaps may stand before every token, except that a factor of an implicit product follows at once.  Such
a factor is taken only after a number, a power, or a product or quotient that ends in one, and it
starts with a letter, an underscore or an opening parenthesis.

## Strategy

Each layer is a function of the reader for what stands between parentheses.  `expression` ties the
knot by recursion on the number of levels of parentheses, so no layer calls itself through another;
the repetitions inside a layer run on the length of the text.  A level needs a parenthesis, so as many
levels as the text has characters are always enough.
-/

namespace EquationPractice

open Text

/-- A reader got stuck with this much of the text left. -/
structure Mismatch where
  rest : List Char
  deriving DecidableEq, Repr

/-- Takes a value off the front of a text and returns what follows it. -/
abbrev Reader (α : Type) := List Char → Except Mismatch (α × List Char)

/-- Reads as many items as possible.  An attempt that gets stuck leaves the text as it was before
it. -/
def many {α : Type} (item : Reader α) (cs : List Char) : List α × List Char :=
  match item cs with
  | .error _ => ([], cs)
  | .ok (value, rest) =>
      if rest.length < cs.length then
        let (values, last) := many item rest
        (value :: values, last)
      else ([], cs)
termination_by cs.length

/-! ## Tokens -/

/-- The value of the decimal literal with these digits before and after the point. -/
def decimalValue (whole fraction : List Char) : Rat :=
  mkRat (Nat.ofDigitChars 10 fraction (Nat.ofDigitChars 10 whole 0)) (Nat.pow 10 fraction.length)

/-- Reads a decimal literal: digits with an optional point, at least one digit in all. -/
def decimal? (cs : List Char) : Option (Rat × List Char) :=
  let whole := cs.takeWhile Char.isDigit
  match cs.dropWhile Char.isDigit with
  | '.' :: rest =>
      let fraction := rest.takeWhile Char.isDigit
      if whole.isEmpty && fraction.isEmpty then none
      else some (decimalValue whole fraction, rest.dropWhile Char.isDigit)
  | rest => if whole.isEmpty then none else some (decimalValue whole [], rest)

/-- A character that may start a name. -/
def startsName (c : Char) : Bool :=
  c.isAlpha || c == '_'

/-- A character that may continue a name. -/
def continuesName (c : Char) : Bool :=
  c.isAlphanum || c == '_'

/-- Reads a name. -/
def name? : List Char → Option (String × List Char)
  | c :: rest =>
      if startsName c then
        some (String.ofList (c :: rest.takeWhile continuesName), rest.dropWhile continuesName)
      else none
  | [] => none

/-- Reads one of the given characters, after any gaps. -/
def oneOf (allowed : List Char) : Reader Char := fun cs =>
  match skipGaps cs with
  | c :: rest => if c ∈ allowed then .ok (c, rest) else .error ⟨c :: rest⟩
  | [] => .error ⟨[]⟩

/-! ## Signs -/

/-- Reads a run of signs, as the number of minus signs in it. -/
def signs (cs : List Char) : Nat × List Char :=
  let (run, rest) := many (oneOf ['-', '+']) cs
  (run.count '-', rest)

/-- The opposite of an expression; the sign of a literal changes in place. -/
def negate : Expr → Expr
  | .number q => .number (-q)
  | e => .neg e

/-- Changes the sign as many times as there are minus signs. -/
def applySigns : Nat → Expr → Expr
  | 0, e => e
  | minus + 1, e => applySigns minus (negate e)

/-! ## Layers -/

/-- Reads a group in parentheses, given a reader for what it encloses. -/
def group (inner : Reader Expr) : Reader Expr := fun cs =>
  match skipGaps cs with
  | '(' :: body =>
      match inner body with
      | .error stuck => .error stuck
      | .ok (e, rest) =>
          match skipGaps rest with
          | ')' :: after => .ok (e, after)
          | stuck => .error ⟨stuck⟩
  | stuck => .error ⟨stuck⟩

/-- Reads a number, a name or a group. -/
def atom (inner : Reader Expr) : Reader Expr := fun cs =>
  match decimal? (skipGaps cs) with
  | some (q, rest) => .ok (.number q, rest)
  | none =>
      match name? (skipGaps cs) with
      | some (name, rest) => .ok (.var name, rest)
      | none => group inner cs

/-- Reads one storey of a tower of exponents: the minus signs before it and its operand. -/
def storey (inner : Reader Expr) : Reader (Nat × Expr) := fun cs =>
  match oneOf ['^'] cs with
  | .error stuck => .error stuck
  | .ok (_, afterCaret) =>
      let (minus, rest) := signs afterCaret
      match atom inner rest with
      | .error stuck => .error stuck
      | .ok (operand, last) => .ok ((minus, operand), last)

/-- Puts a tower of exponents on a base; the signs of a storey cover everything above them. -/
def raise : Expr → List (Nat × Expr) → Expr
  | base, [] => base
  | base, (minus, operand) :: above => .pow base (applySigns minus (raise operand above))

/-- Reads an atom with its tower of exponents. -/
def power (inner : Reader Expr) : Reader Expr := fun cs =>
  match atom inner cs with
  | .error stuck => .error stuck
  | .ok (base, rest) =>
      let (tower, last) := many (storey inner) rest
      .ok (raise base tower, last)

/-- Reads a power after a run of signs. -/
def signed (inner : Reader Expr) : Reader Expr := fun cs =>
  let (minus, rest) := signs cs
  match power inner rest with
  | .error stuck => .error stuck
  | .ok (e, last) => .ok (applySigns minus e, last)

/-- Reads an operator and the operand after it. -/
def operation (operators : List Char) (operand : Reader Expr) : Reader (Char × Expr) := fun cs =>
  match oneOf operators cs with
  | .error stuck => .error stuck
  | .ok (operator, rest) =>
      match operand rest with
      | .error stuck => .error stuck
      | .ok (e, last) => .ok ((operator, e), last)

/-- Multiplies or divides by one operand. -/
def extendProduct (acc : Expr) : Char × Expr → Expr := fun (operator, e) =>
  if operator = '*' then .mul acc e else .div acc e

/-- Multiplies or divides by one operand after the other. -/
def foldProduct (first : Expr) (operations : List (Char × Expr)) : Expr :=
  operations.foldl extendProduct first

/-- Adds or subtracts one operand. -/
def extendSum (acc : Expr) : Char × Expr → Expr := fun (operator, e) =>
  if operator = '+' then .add acc e else .sub acc e

/-- Adds or subtracts one operand after the other. -/
def foldSum (first : Expr) (operations : List (Char × Expr)) : Expr :=
  operations.foldl extendSum first

/-- Whether a factor may follow at once. -/
def takesFactor : Expr → Bool
  | .number _ | .pow _ _ => true
  | .mul _ right | .div _ right => takesFactor right
  | _ => false

/-- Whether the text starts like a factor of an implicit product. -/
def startsFactor : List Char → Bool
  | c :: _ => startsName c || c == '('
  | [] => false

/-- Multiplies on the factors that follow without an operator. -/
def implicitFactors (inner : Reader Expr) (acc : Expr) (cs : List Char) : Expr × List Char :=
  if startsFactor cs && takesFactor acc then
    match power inner cs with
    | .error _ => (acc, cs)
    | .ok (factor, rest) =>
        if rest.length < cs.length then implicitFactors inner (.mul acc factor) rest
        else (acc, cs)
  else (acc, cs)
termination_by cs.length

/-- Reads a product. -/
def term (inner : Reader Expr) : Reader Expr := fun cs =>
  match signed inner cs with
  | .error stuck => .error stuck
  | .ok (first, rest) =>
      let (operations, last) := many (operation ['*', '/'] (signed inner)) rest
      .ok (implicitFactors inner (foldProduct first operations) last)

/-- Reads operands that are added and subtracted. -/
def sumOf (operand : Reader Expr) : Reader Expr := fun cs =>
  match operand cs with
  | .error stuck => .error stuck
  | .ok (first, rest) =>
      let (operations, last) := many (operation ['+', '-'] operand) rest
      .ok (foldSum first operations, last)

/-- Reads a sum. -/
def sum (inner : Reader Expr) : Reader Expr :=
  sumOf (term inner)

/-- Reads an expression with fewer levels of parentheses than given. -/
def expression : Nat → Reader Expr
  | 0 => fun cs => .error ⟨cs⟩
  | levels + 1 => sum (expression levels)

/-- Reads an expression. -/
def readExpr : Reader Expr := fun cs =>
  expression (cs.length + 1) cs

end EquationPractice
