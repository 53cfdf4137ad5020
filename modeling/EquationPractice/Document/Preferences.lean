import EquationPractice.Document.Toml.Reader
import EquationPractice.Exercise.Settings
import EquationPractice.Language.Locale

/-!
# Preferences

What a document says about the settings of exercises and about the language.  A missing field has its
usual value, and fields of other names do not matter.  A single field that does not fit makes the
whole document unfit.

## Main definitions

* `Settings.ofValue?`: the settings of exercises that a value describes.
* `Preferences.ofValue?`: the same together with the language.
* `Preferences.ofFile`: the preferences in a file, or the usual ones.
-/

namespace EquationPractice

/-- The difficulty that a value stands for: its number. -/
def Difficulty.ofValue? (value : Value) : Option Difficulty :=
  (value.natBelow? UInt8.size).bind ofLevel?

/-- The language that a value stands for: its name, or a table with one empty entry of that name. -/
def Locale.ofValue? : Value → Option Locale
  | .text name => ofName? name
  | .table [(name, .table [])] | .table [(name, .list [])] => ofName? name
  | _ => none

namespace Settings

/-- The names of the fields of settings. -/
def fieldNames : List String :=
  ["difficulty", "variable_name", "x_terms", "non_x_terms"]

/-- The settings that these fields describe. -/
def ofFields? : List (Option Value) → Option Settings
  | [difficulty, unknownName, unknownTerms, constantTerms] => do
      let termCount := Value.readOr usualTerms (Value.natBelow? UInt64.size)
      some ⟨← Value.readOr default.difficulty Difficulty.ofValue? difficulty,
        ← Value.readOr default.unknownName Value.text? unknownName,
        ← termCount unknownTerms, ← termCount constantTerms⟩
  | _ => none

/-- The settings that a value describes. -/
def ofValue? (value : Value) : Option Settings := do
  ofFields? (← value.fields? fieldNames)

end Settings

/-- The settings of exercises and the language. -/
structure Preferences where
  locale : Locale
  settings : Settings
  deriving DecidableEq, Repr

namespace Preferences

/-- The preferences that hold unless others are chosen. -/
def default : Preferences :=
  ⟨.default, .default⟩

/-- The preferences that a value describes. -/
def ofValue? (value : Value) : Option Preferences :=
  match value.fields? ("locale" :: Settings.fieldNames) with
  | some (locale :: fields) => do
      some ⟨← Value.readOr Locale.default Locale.ofValue? locale, ← Settings.ofFields? fields⟩
  | _ => none

/-- The preferences in the text of a file.  A file that is not there, that is not well formed or that
does not fit is as good as an empty one. -/
def ofFile (text : Option String) : Preferences :=
  ((text.bind Toml.read?).bind ofValue?).getD default

end Preferences

end EquationPractice
