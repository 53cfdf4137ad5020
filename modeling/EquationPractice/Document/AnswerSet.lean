import EquationPractice.Document.Value
import EquationPractice.Exercise.Answer

/-!
# Answers as documents

A set of answers is a table that says for each slot what was typed or which special answer was
chosen.  A special answer is written as its name, or as a table whose only entry has that name and
holds nothing.

## Main definitions

* `Slots.ofValue?`: the answers that a value describes.
-/

namespace EquationPractice

/-- The special answer that a value names. -/
def SpecialAnswer.ofValue? : Value → Option SpecialAnswer
  | .text name => ofName? name
  | .table [(name, .nothing)] => ofName? name
  | _ => none

/-- The answer that a value describes: a table whose only entry says what kind of answer it is. -/
def GivenAnswer.ofValue? : Value → Option GivenAnswer
  | .table [("text", .text answer)] => some (.typed answer)
  | .table [("special", kind)] => (SpecialAnswer.ofValue? kind).map .pressed
  | _ => none

/-- The answers that a value describes, by the names of their slots. -/
def Slots.ofValue? : Value → Option (Slots GivenAnswer)
  | .table entries =>
      (entries.mapM ofEntry?).map ofList
  | _ => none
where
  /-- The answer that an entry describes, with the name of its slot. -/
  ofEntry? (entry : String × Value) : Option (String × GivenAnswer) :=
    (GivenAnswer.ofValue? entry.2).map (entry.1, ·)

end EquationPractice
