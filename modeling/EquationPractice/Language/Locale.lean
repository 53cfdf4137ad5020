import EquationPractice.Text.Blank
import EquationPractice.Text.LowerCase

/-!
# Languages

The languages in which titles and messages are available.  A language is asked for by its English
name or by its own name, in any letter case and with blanks around it.
-/

namespace EquationPractice

open Text

/-- A language. -/
inductive Locale where
  | english
  | greek
  deriving DecidableEq, Repr

/-- No language has the name that was asked for. -/
structure UnknownLanguage where
  asked : String
  deriving DecidableEq, Repr

/-- What is said about an unknown language. -/
def UnknownLanguage.message (e : UnknownLanguage) : String :=
  "language not implemented: " ++ e.asked

namespace Locale

/-- The language of texts that are always there. -/
def default : Locale := english

/-- Every language. -/
def all : List Locale := [english, greek]

/-- The English name of a language. -/
def name : Locale → String
  | english => "english"
  | greek => "greek"

/-- The name of a language in the language itself. -/
def nativeName : Locale → String
  | english => "english"
  | greek => "ελληνικά"

/-- The language with exactly this English name. -/
def ofName? (name : String) : Option Locale :=
  all.find? (·.name == name)

/-- The language that is asked for by a typed name. -/
def ofText (text : String) : Except UnknownLanguage Locale :=
  let wanted := String.ofList (lowerCase (trim text.toList))
  match all.find? fun locale => locale.name == wanted || locale.nativeName == wanted with
  | some locale => .ok locale
  | none => .error ⟨text⟩

end Locale

end EquationPractice
