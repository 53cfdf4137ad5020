import EquationPractice.Rule.Basic

/-!
# Catalogues of rules

A catalogue holds rules in the order in which they were registered and finds them by their source,
with the help of an index of their places.  No two of its rules have the same source.  The standard
catalogue holds the forms in which answers are typed.

## Main definitions

* `Catalogue.add`, `Catalogue.addNew`: put a rule into a catalogue, or fail.
* `Catalogue.register`, `Catalogue.define`: the catalogue with a rule put into it.
* `Catalogue.get?`: the rule with a source.
* `Catalogue.standard`: the catalogue of the standard forms.
-/

namespace EquationPractice

/-- Rules in the order in which they were registered, and the index of the places at which their
sources stand. -/
structure Catalogue where
  rules : List Rule
  index : List (String × Nat)
  deriving DecidableEq, Repr

namespace Catalogue

/-- The catalogue without rules. -/
def empty : Catalogue := ⟨[], []⟩

/-- The rule with this source. -/
def get? (catalogue : Catalogue) (source : String) : Option Rule :=
  match catalogue.index.lookup source with
  | some place => catalogue.rules[place]?
  | none => none

/-- A change of a catalogue.  It may fail, and then the catalogue stays as it is at that moment. -/
abbrev Change (α : Type) := ExceptT RuleError (StateM Catalogue) α

/-- Puts a rule at the end, unless there is one with the same source. -/
def add (rule : Rule) : Change Rule := do
  if ((← get).index.lookup rule.source).isSome then
    throw (.invalidSource rule.source .registered)
  modify fun catalogue =>
    { catalogue with index := (rule.source, catalogue.rules.length) :: catalogue.index }
  modify fun catalogue => { catalogue with rules := catalogue.rules ++ [rule] }
  return rule

/-- Creates a rule and puts it at the end. -/
def addNew (source : String) (full other twice : List String) : Change Rule := do
  add (← MonadExcept.ofExcept (Rule.create source full other twice))

/-- The catalogue after a change that did not fail. -/
def changed (catalogue : Catalogue) (change : Change Rule) : Except RuleError Catalogue :=
  match change.run.run catalogue with
  | (.ok _, next) => .ok next
  | (.error e, _) => .error e

/-- The catalogue with a rule put at its end, unless there is one with the same source. -/
def register (catalogue : Catalogue) (rule : Rule) : Except RuleError Catalogue :=
  catalogue.changed (add rule)

/-- The catalogue with a rule created and put at its end. -/
def define (catalogue : Catalogue) (source : String) (full other twice : List String) :
    Except RuleError Catalogue :=
  catalogue.changed (addNew source full other twice)

/-- The number of rules. -/
def size (catalogue : Catalogue) : Nat :=
  catalogue.rules.length

/-- The sources of the rules, in order. -/
def sources (catalogue : Catalogue) : List String :=
  catalogue.rules.map (·.source)

/-- Holds every rule against its own examples, in order. -/
def verify (catalogue : Catalogue) : Except RuleError Unit :=
  catalogue.rules.forM Rule.verify

end Catalogue

/-! ## The standard forms -/

/-- The forms that every exercise can rely on. -/
inductive StandardForm where
  | integer
  | decimal
  | fraction
  | signedFraction
  | adjacentOperators
  deriving DecidableEq, Repr

namespace StandardForm

/-- Every standard form, in the order of the standard catalogue. -/
def all : List StandardForm :=
  [integer, decimal, fraction, signedFraction, adjacentOperators]

/-- The name under which a form is asked for. -/
def name : StandardForm → String
  | integer => "Integer"
  | decimal => "Decimal"
  | fraction => "FractionOfInts"
  | signedFraction => "FractionOfIntsWithParentheses"
  | adjacentOperators => "ConsecutiveOperators"

/-- The form with this name. -/
def ofName? (name : String) : Option StandardForm :=
  all.find? (·.name == name)

/-- An unsigned integer that no letter, digit or point touches on its left and no point on its
right. -/
def integerSource : String := "(?<![a-zA-Z0-9.])\\d+(?!\\.)"

/-- The same integer with a sign before it, in parentheses. -/
def enclosedSource : String := "\\(" ++ signSource ++ integerSource ++ "\\)"

/-- The source of the rule for a form. -/
def source : StandardForm → String
  | integer => integerSource
  | decimal => "(?<![a-zA-Z0-9.])\\d+\\.\\d+"
  | fraction => integerSource ++ "/" ++ integerSource
  | signedFraction =>
      "(?:" ++ integerSource ++ "/" ++ integerSource ++ ")|(?:" ++
        enclosedSource ++ "/" ++ integerSource ++ ")|(?:" ++
        integerSource ++ "/" ++ enclosedSource ++ ")|(?:" ++
        enclosedSource ++ "/" ++ enclosedSource ++ ")"
  | adjacentOperators => "[-+*/]\x7b2\x7d"

/-- The texts that match the form as a whole. -/
def fullExamples : StandardForm → List String
  | integer => ["0", "7", "42", "1000"]
  | decimal => ["0.5", "3.14", "10.0", "0.50000000000000000000000001"]
  | fraction => ["1/2", "10/3", "0/7"]
  | signedFraction => ["1/2", "(-95)/(+34)", "(+1)/2", "3/(-4)"]
  | adjacentOperators => ["+-", "**", "/-", "-+"]

/-- The texts that do not match the form as a whole. -/
def otherExamples : StandardForm → List String
  | integer => ["4.2", "-3", "x1", "1.", "1/2"]
  | decimal => ["5", ".5", "5.", "1/2", "-0.5"]
  | fraction => ["1.0/2", "(1)/2", "1/2.5", "-1/2", "x1/2"]
  | signedFraction => ["(1)/2", "1.0/2", "(-1.5)/2", "(+1)/(2)", "+1/2"]
  | adjacentOperators => ["+", "1+2", "-(3", "+1-"]

/-- The texts in which the form occurs exactly twice. -/
def twiceExamples : StandardForm → List String
  | integer => ["2+3", "12*x-7", "x1+4+5"]
  | decimal => ["0.5+1.25", "3.0*x-2.75", "1.5/2.5"]
  | fraction => ["1/2+3/4", "-5/6-7/8", "1/2*x=3/4"]
  | signedFraction => ["(-1)/2+3/(+4)", "1/2-(-3)/(-4)", "(+5)/(-6)*7/8"]
  | adjacentOperators => ["1+-2*/3", "--4++", "2*-3/-4"]

/-- The rule for a form. -/
def rule (form : StandardForm) : Except RuleError Rule :=
  Rule.create form.source form.fullExamples form.otherExamples form.twiceExamples

end StandardForm

namespace Catalogue

/-- The catalogue of the standard forms. -/
def standard : Except RuleError Catalogue :=
  StandardForm.all.foldlM (fun catalogue form => do catalogue.register (← form.rule)) empty

/-- The rule for a standard form, if the catalogue holds it. -/
def form? (catalogue : Catalogue) (form : StandardForm) : Option Rule :=
  catalogue.get? form.source

end Catalogue

end EquationPractice
