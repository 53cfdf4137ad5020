import EquationPractice.Exercise.Settings
import EquationPractice.Regex.Reader
import EquationPractice.Regex.Replace
import EquationPractice.Sampling.Shuffle

/-!
# Random questions

A question is drawn as two sides of signed terms and then written out.  A term of the unknown is
written with its coefficient, a star and the name of the unknown; a side without terms is written as
zero.

## Main definitions

* `Question.draw`: a random question.
* `Question.chars`: a question as it is written.
* `dropUnitCoefficients`: half of the time, writes `1x` as `x`.
-/

namespace EquationPractice

open Text

/-- A signed term: a constant, or a multiple of the unknown. -/
structure Term where
  coefficient : Int
  ofUnknown : Bool
  deriving DecidableEq, Repr

/-- A term as it is written. -/
def Term.chars (unknownName : List Char) (term : Term) : List Char :=
  if term.ofUnknown then intChars term.coefficient ++ '*' :: unknownName
  else intChars term.coefficient

/-- A term as it is written after another one: a plus sign stands before it unless it is negative. -/
def Term.laterChars (unknownName : List Char) (term : Term) : List Char :=
  if term.coefficient < 0 then term.chars unknownName else '+' :: term.chars unknownName

/-- A side of a question as it is written. -/
def sideChars (unknownName : List Char) : List Term → List Char
  | [] => ['0']
  | first :: rest => first.chars unknownName ++ rest.flatMap (Term.laterChars unknownName)

/-- The two sides of a question. -/
structure Question where
  left : List Term
  right : List Term
  deriving DecidableEq, Repr

namespace Question

/-- A question as it is written. -/
def chars (unknownName : List Char) (question : Question) : List Char :=
  sideChars unknownName question.left ++ '=' :: sideChars unknownName question.right

/-! ## Drawing -/

variable {σ : Type} [WordSource σ]

/-- Draws so many terms with a coefficient of magnitude at most ten that is not zero. -/
def drawTerms (attempts : Nat) (ofUnknown : Bool) : Nat → Draw σ SamplingError (List Term)
  | 0 => pure []
  | count + 1 => do
      let coefficient ← ((IntRange.symmetric 10).withSigns "-+").sample attempts
      return ⟨coefficient, ofUnknown⟩ :: (← drawTerms attempts ofUnknown count)

/-- Draws terms, shuffles them and cuts them at a random point into two sides. -/
def spread (attempts unknownTerms constantTerms : Nat) : Draw σ SamplingError Question := do
  let ofUnknown ← drawTerms attempts true unknownTerms
  let constants ← drawTerms attempts false constantTerms
  let terms ← Draw.shuffle attempts (ofUnknown ++ constants)
  let cut ← Draw.below64 attempts (terms.length + 1)
  return ⟨terms.take cut, terms.drop cut⟩

/-- Draws a question.  An easy one has a positive coefficient and a positive integer root; in one of
medium difficulty zeros are likely. -/
def draw (attempts : Nat) (settings : Settings) : Draw σ SamplingError Question :=
  match settings.difficulty with
  | .easy => do
      let a ← ((IntRange.symmetric 5).withSigns "+").sample attempts
      let b ← ((IntRange.symmetric 10).withSigns "-").sample attempts
      return ⟨[⟨a, true⟩, ⟨b * a, false⟩], []⟩
  | .medium => do
      let a ← ((IntRange.symmetric 10).withWeight 0 10).sample attempts
      let b ← ((IntRange.symmetric 10).withWeight 0 8).sample attempts
      return ⟨[⟨a, true⟩, ⟨b, false⟩], []⟩
  | .hard => spread attempts settings.unknownTerms settings.constantTerms

end Question

/-! ## Unit coefficients -/

/-- The source of the pattern for a unit coefficient right before a name: no digit or point stands
before the one, and no letter or digit after the name. -/
def unitSource (name : String) : String :=
  "(?<![0-9.])1" ++ name ++ "(?![A-Za-z0-9])"

/-- Half of the time, replaces a unit coefficient right before the name by the name alone.  The name
is read as a part of the pattern, and as the template of the replacement. -/
def dropUnitCoefficients {σ : Type} [WordSource σ] (text name : String) :
    Draw σ ExerciseError String := do
  if ← Draw.coin then
    match Regex.readRecording? Regex.maxDepth (unitSource name).toList with
    | some unit => return String.ofList (unit.replaceAll name.toList text.toList)
    | none => throw (.rule (.invalidPattern (unitSource name)))
  else return text

end EquationPractice
