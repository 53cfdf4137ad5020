import EquationPractice.Exercise.Slots
import EquationPractice.Expr.Latex
import EquationPractice.Solution.Outcome

/-!
# Answers

What belongs into a slot, and what is given for it: typed text, or a special answer at the press of a
button.
-/

namespace EquationPractice

open Text

/-- What belongs into a slot: the value of an expression, or a special answer. -/
inductive Answer where
  | value (e : Expr)
  | special (kind : SpecialAnswer)
  deriving DecidableEq, Repr

namespace Answer

/-- The answer that a solved equation asks for. -/
def ofOutcome : Outcome → Answer
  | .root q => value (.number q)
  | .special kind => special kind

/-- An answer as text. -/
def text : Answer → String
  | value e => e.text
  | special kind => kind.name

/-- An answer in LaTeX, or the sentence that describes it. -/
def latex (locale : Locale) : Answer → String
  | value e => e.latex
  | special kind => kind.description.textIn locale

/-- An answer as it is revealed to whoever missed it. -/
def reveal (locale : Locale) : Answer → String
  | value e => e.text
  | special kind => kind.label.textIn locale

end Answer

/-- What is given for a slot. -/
inductive GivenAnswer where
  | typed (text : String)
  | pressed (kind : SpecialAnswer)
  deriving DecidableEq, Repr

/-! ## Typed special answers -/

/-- The text without points at its end. -/
def dropFinalPoints (cs : List Char) : List Char :=
  (cs.reverse.dropWhile (· == '.')).reverse

namespace SpecialAnswer

/-- The word that may be typed in place of the label. -/
def shortForm : SpecialAnswer → String
  | anyNumber => "any"
  | noSolution => "none"

/-- The texts by which a special answer is recognized, in lower case and without final points. -/
def typedForms (kind : SpecialAnswer) : List (List Char) :=
  kind.shortForm.toList :: Locale.all.map fun locale =>
    lowerCase (dropFinalPoints (kind.label.textIn locale).toList)

/-- The special answer that a typed text names: a label in any language, or the short word for it.
Letter case, blanks around the text and points at its end do not matter. -/
def ofTyped? (text : String) : Option SpecialAnswer :=
  let wanted := lowerCase (dropFinalPoints (trim text.toList))
  all.find? fun kind => wanted ∈ kind.typedForms

end SpecialAnswer

end EquationPractice
