import EquationPractice.Regex.Reader
import EquationPractice.Regex.Search
import EquationPractice.Rule.Bounds
import EquationPractice.Text.Quoted

/-!
# Rules

A rule is a pattern known by its source text, with three sets of examples that pin down what it is
supposed to accept: texts that match as a whole, texts that do not, and texts in which it occurs
exactly twice.  None of the sets may be empty.

## Main definitions

* `Rule.create`: a rule from its source and examples.
* `Rule.matchesWhole`, `Rule.matchesSigned`, `Rule.isFoundIn`, `Rule.count`: the four ways to hold a
  text against a rule.
* `Rule.verify`: the rule held against its own examples.
-/

namespace EquationPractice

open Text

/-- What is wrong with the source or the examples of a rule. -/
inductive SourceFault where
  | empty
  | space
  | underscore
  | noFullExamples
  | noOtherExamples
  | noTwiceExamples
  | registered
  deriving DecidableEq, Repr

/-- A source fault in words. -/
def SourceFault.text : SourceFault → String
  | empty => "empty source"
  | space => "contains a space"
  | underscore => "contains an underscore"
  | noFullExamples => "no full-match examples"
  | noOtherExamples => "no non-matching examples"
  | noTwiceExamples => "no two-occurrence examples"
  | registered => "already registered"

/-- What an example should have shown. -/
inductive Expectation where
  | fullMatch
  | noFullMatch
  | twice (found : Nat)
  deriving DecidableEq, Repr

/-- An expectation in words. -/
def Expectation.text : Expectation → String
  | fullMatch => "a full match"
  | noFullMatch => "no full match"
  | twice found => "exactly two occurrences, found " ++ toString found

/-- A defect of a rule or of bounds, made by the author of an exercise. -/
inductive RuleError where
  | invalidSource (source : String) (fault : SourceFault)
  | invalidPattern (source : String)
  | malformedBounds (text : String)
  | failedExample (source example_ : String) (expectation : Expectation)
  deriving DecidableEq, Repr

/-- What is said about a defect. -/
def RuleError.message : RuleError → String
  | invalidSource source fault => "invalid pattern source " ++ quoted source ++ ": " ++ fault.text
  | invalidPattern source => "pattern " ++ quoted source ++ " does not compile"
  | malformedBounds text =>
      "occurrence bounds " ++ quoted text ++
        " not matching \x60m<op><int>\x60 or \x60<int><op>m<op><int>\x60"
  | failedExample source example_ expectation =>
      "pattern " ++ quoted source ++ " failed self-test on " ++ quoted example_ ++ ": expected " ++
        expectation.text

/-- An explicit sign. -/
def signSource : String := "(?:\\+|-)"

/-- An optional explicit sign. -/
def optionalSignSource : String := signSource ++ "?"

/-- An explicit sign as a pattern. -/
def signRegex : Regex :=
  .alt (.one (.single '+')) (.one (.single '-'))

/-- A pattern known by its source, with its examples. -/
structure Rule where
  source : String
  regex : Regex
  fullExamples : List String
  otherExamples : List String
  twiceExamples : List String
  deriving DecidableEq, Repr

namespace Rule

/-- The deepest nesting of groups in a source.  Two levels are set aside for the groups around the
source in the signed variant. -/
def maxSourceDepth : Nat := Regex.maxDepth - 2

/-- The first fault of a source and its examples. -/
def fault? (source : String) (full other twice : List String) : Option SourceFault :=
  if source.toList.isEmpty then some .empty
  else if ' ' ∈ source.toList then some .space
  else if '_' ∈ source.toList then some .underscore
  else if full.isEmpty then some .noFullExamples
  else if other.isEmpty then some .noOtherExamples
  else if twice.isEmpty then some .noTwiceExamples
  else none

/-- The rule with this source and these examples. -/
def create (source : String) (full other twice : List String) : Except RuleError Rule :=
  match fault? source full other twice with
  | some fault => .error (.invalidSource source fault)
  | none =>
      match Regex.read? maxSourceDepth source.toList with
      | some regex => .ok ⟨source, regex, full, other, twice⟩
      | none => .error (.invalidPattern source)

/-- The source of the variant that takes an optional sign. -/
def signedSource (rule : Rule) : String :=
  optionalSignSource ++ "(?:" ++ rule.source ++ ")"

/-- The pattern of the variant that takes an optional sign. -/
def signedRegex (rule : Rule) : Regex :=
  .seq signRegex.optional rule.regex

/-- Whether the whole text matches. -/
def matchesWhole (rule : Rule) (text : String) : Bool :=
  rule.regex.matchesWhole text.toList

/-- Whether the whole text matches, with at most one sign before it. -/
def matchesSigned (rule : Rule) (text : String) : Bool :=
  rule.signedRegex.matchesWhole text.toList

/-- Whether the text has a match. -/
def isFoundIn (rule : Rule) (text : String) : Bool :=
  rule.regex.isFoundIn text.toList

/-- The number of matches in the text, from left to right without overlap. -/
def count (rule : Rule) (text : String) : Nat :=
  rule.regex.count text.toList

/-- Whether the number of matches is within bounds that are given as text. -/
def occursWithin (rule : Rule) (text bounds : String) : Except RuleError Bool :=
  match OccurrenceBounds.ofText? bounds with
  | some bounds => .ok (bounds.holds (rule.count text))
  | none => .error (.malformedBounds bounds)

/-- The first example that does not show what it should. -/
def failure? (rule : Rule) : Option (String × Expectation) :=
  (rule.fullExamples.find? fun text => !rule.matchesWhole text).map (·, .fullMatch) <|>
  (rule.otherExamples.find? fun text => rule.matchesWhole text).map (·, .noFullMatch) <|>
  (rule.twiceExamples.find? fun text => rule.count text != 2).map fun text =>
    (text, .twice (rule.count text))

/-- Holds the rule against its own examples. -/
def verify (rule : Rule) : Except RuleError Unit :=
  match rule.failure? with
  | some (text, expectation) => .error (.failedExample rule.source text expectation)
  | none => .ok ()

end Rule

end EquationPractice
