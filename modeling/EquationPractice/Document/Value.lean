/-!
# Document values

The values that settings and answers are read from and that a report is made of.  Fractions, dates
and the like are told apart from everything else but not from one another, because nothing is read
from them.

## Main definitions

* `Value`: a value of a document.
* `Value.fields?`: what a value holds for a list of fields.
-/

namespace EquationPractice

/-- A value of a document. -/
inductive Value where
  | nothing
  | flag (b : Bool)
  | integer (n : Int)
  | text (s : String)
  | other
  | list (items : List Value)
  | table (entries : List (String × Value))
  deriving Repr, Inhabited

namespace Value

/-- What a value holds for the given fields, in their order.  A table holds them by name, and its
other entries do not matter.  A list holds them by position; it may be too short but not too long. -/
def fields? (names : List String) : Value → Option (List (Option Value))
  | table entries => some (names.map fun name => entries.lookup name)
  | list items =>
      if items.length ≤ names.length then
        some (names.mapIdx fun index _ => items[index]?)
      else none
  | _ => none

/-- The text that a value is. -/
def text? : Value → Option String
  | text s => some s
  | _ => none

/-- The number that a value is, if it is not negative and below a limit. -/
def natBelow? (limit : Nat) : Value → Option Nat
  | integer n => if 0 ≤ n && n < limit then some n.toNat else none
  | _ => none

/-- Reads a field: a missing one has its usual value, and one that is there must fit. -/
def readOr {α : Type} (usual : α) (read : Value → Option α) : Option Value → Option α
  | none => some usual
  | some value => read value

end Value

end EquationPractice
