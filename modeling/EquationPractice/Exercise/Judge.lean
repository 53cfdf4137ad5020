import EquationPractice.Exercise.Answer
import EquationPractice.Exercise.Settings

/-!
# Judging answers

An answer is first let through or not: a special answer must be allowed, and a typed text must hold no
two operators in a row, have one of the permitted forms and be an expression.  What was let through is
then compared with what belongs into a slot.  Numbers agree within a tolerance, absolute or relative;
expressions without a value must be the same tree.

Slots may be grouped.  The answers of a group may be given in any order: an answer takes its own slot
if it fits and is free, and otherwise the first free slot of the group that it fits.

## Main definitions

* `Judge.letThrough?`: the answer that a given one stands for, if it is acceptable at all.
* `Judge.fits`: whether an answer is the one that belongs into a slot.
* `Judge.accepts`: whether all given answers are right.
-/

namespace EquationPractice

/-- What answers are judged by. -/
structure Judge where
  adjacentOperators : Rule
  forms : List Rule
  tolerance : Rat
  deriving DecidableEq, Repr

namespace Judge

/-- The tolerance that holds unless another is chosen. -/
def usualTolerance : Rat := mkRat 1 1000

/-- The rule of a catalogue for a form. -/
def ruleFor (catalogue : Catalogue) (form : StandardForm) : Except ExerciseError Rule :=
  match catalogue.form? form with
  | some rule => .ok rule
  | none => .error (.invalidSettings (.missingForm form))

/-- A judge that permits every form. -/
def create (catalogue : Catalogue) : Except ExerciseError Judge := do
  return ⟨← ruleFor catalogue .adjacentOperators, [], usualTolerance⟩

/-- The judge that permits only these forms; none at all permits every form. -/
def withForms (judge : Judge) (catalogue : Catalogue) (forms : List StandardForm) :
    Except ExerciseError Judge := do
  return { judge with forms := ← forms.mapM (ruleFor catalogue) }

/-- The judge with another tolerance, whose sign does not matter. -/
def withTolerance (judge : Judge) (tolerance : Rat) : Judge :=
  { judge with tolerance := tolerance.abs }

/-! ## One answer -/

/-- Whether a text has one of the permitted forms. -/
def permitsForm (judge : Judge) (text : String) : Bool :=
  judge.forms.isEmpty || judge.forms.any (·.matchesSigned text)

/-- The answer that a given one stands for, if it is acceptable at all. -/
def letThrough? (judge : Judge) (allowed : List SpecialAnswer) : GivenAnswer → Option Answer
  | .pressed kind => if kind ∈ allowed then some (.special kind) else none
  | .typed text =>
      if judge.adjacentOperators.isFoundIn text || !judge.permitsForm text then none
      else
        match parse text with
        | .ok e => some (.value e)
        | .error _ => none

/-- Whether two numbers differ by no more than the tolerance, or by no more than that part of the
larger of them. -/
def agree (judge : Judge) (a b : Rat) : Bool :=
  let difference := (a - b).abs
  let scale := if a.abs ≤ b.abs then b.abs else a.abs
  difference ≤ judge.tolerance || difference ≤ judge.tolerance * scale

/-- Whether an answer is the one that is wanted. -/
def isRight (judge : Judge) : Answer → Answer → Bool
  | .special given, .special wanted => given == wanted
  | .value given, .value wanted =>
      match given.value?, wanted.value? with
      | some a, some b => judge.agree a b
      | _, _ => given == wanted
  | _, _ => false

/-- Whether a given answer is acceptable and the one that is wanted. -/
def acceptsOne (judge : Judge) (allowed : List SpecialAnswer) (given : GivenAnswer)
    (wanted : Answer) : Bool :=
  match judge.letThrough? allowed given with
  | some answer => judge.isRight answer wanted
  | none => false

/-! ## All answers -/

/-- Whether an answer is the one that belongs into a slot. -/
def fits (judge : Judge) (expected : Slots Answer) (answer : Answer) (slot : String) : Bool :=
  match expected.get? slot with
  | some wanted => judge.isRight answer wanted
  | none => false

/-- The slot that an answer takes in its group: its own or else the first that it fits, unless the
slot is taken. -/
def slotFor? (judge : Judge) (expected : Slots Answer) (answer : Answer) (name : String)
    (group taken : List String) : Option String :=
  (name :: group).find? fun slot => slot ∉ taken && judge.fits expected answer slot

/-- Judges given answers one after the other; the slots of groups that are taken are passed along. -/
def acceptsFrom (judge : Judge) (expected : Slots Answer) (allowed : List SpecialAnswer)
    (groups : List (List String)) : List (String × GivenAnswer) → List String → Bool
  | [], _ => true
  | (name, given) :: rest, taken =>
      match judge.letThrough? allowed given with
      | none => false
      | some answer =>
          match groups.find? (name ∈ ·) with
          | none =>
              judge.fits expected answer name &&
                acceptsFrom judge expected allowed groups rest taken
          | some group =>
              match judge.slotFor? expected answer name group taken with
              | none => false
              | some slot => acceptsFrom judge expected allowed groups rest (slot :: taken)

/-- Whether all given answers are right, in order of their names.  An answer to a slot that does not
exist is wrong. -/
def accepts (judge : Judge) (given : Slots GivenAnswer) (expected : Slots Answer)
    (allowed : List SpecialAnswer) (groups : List (List String)) : Bool :=
  judge.acceptsFrom expected allowed groups given.entries []

/-- The same special answer for every slot. -/
def pressed (expected : Slots Answer) (kind : SpecialAnswer) : Slots GivenAnswer :=
  expected.map fun _ _ => .pressed kind

end Judge

end EquationPractice
