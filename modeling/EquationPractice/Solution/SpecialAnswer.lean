import EquationPractice.Language.Message

/-!
# Answers that are not a number

An equation may hold for every number or for none.  Each of the two has a name, a label short enough
for a button, and a sentence that describes it.
-/

namespace EquationPractice

/-- An answer that is not a number. -/
inductive SpecialAnswer where
  | anyNumber
  | noSolution
  deriving DecidableEq, Repr

namespace SpecialAnswer

/-- Every special answer. -/
def all : List SpecialAnswer := [anyNumber, noSolution]

/-- The name of a special answer. -/
def name : SpecialAnswer → String
  | anyNumber => "any_number"
  | noSolution => "no_solution"

/-- The special answer with this name. -/
def ofName? (name : String) : Option SpecialAnswer :=
  all.find? (·.name == name)

/-- The short label. -/
def label : SpecialAnswer → Message
  | anyNumber => (Message.ofText "Any number.").withText .greek "Οποιοσδήποτε αριθμός"
  | noSolution => (Message.ofText "No solution").withText .greek "Καμία λύση"

/-- The describing sentence. -/
def description : SpecialAnswer → Message
  | anyNumber =>
      (Message.ofText "Any number is a solution.").withText .greek
        "Οποιοσδήποτε αριθμός αποτελεί λύση."
  | noSolution =>
      (Message.ofText "No solution exists.").withText .greek "Δεν υπάρχει λύση."

end SpecialAnswer

end EquationPractice
