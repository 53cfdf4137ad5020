import EquationPractice.Language.Locale

/-!
# Texts in several languages

A message has a text in the default language and may have texts in others; where one is missing the
default text stands in.  A text may hold places, written as an empty pair of braces, which are filled
from left to right.

## Main definitions

* `Message.textIn`: the text in a language.
* `Message.format`: the text in a language with its places filled.
-/

namespace EquationPractice

/-- A text in the default language and its versions in other languages. -/
structure Message where
  defaultText : String
  versions : List (Locale × String)
  deriving DecidableEq, Repr

/-- A message has no text in the default language. -/
structure MissingDefault where
  deriving DecidableEq, Repr

/-- What is said about a message without a default text. -/
def MissingDefault.message (_ : MissingDefault) : String :=
  "a message needs a translation for the default locale"

/-- Fills the places of a text from left to right.  Places without an argument stay, and arguments
without a place are dropped.  What an argument brings in is not looked at again. -/
def fillPlaces : List Char → List (List Char) → List Char
  | '\x7b' :: '\x7d' :: rest, [] => '\x7b' :: '\x7d' :: fillPlaces rest []
  | '\x7b' :: '\x7d' :: rest, argument :: arguments => argument ++ fillPlaces rest arguments
  | c :: rest, arguments => c :: fillPlaces rest arguments
  | [], _ => []

namespace Message

/-- A message in the default language alone. -/
def ofText (text : String) : Message :=
  ⟨text, []⟩

/-- Gives the message a text in a language, in place of the one it had. -/
def withText (message : Message) (locale : Locale) (text : String) : Message :=
  if locale = Locale.default then { message with defaultText := text }
  else { message with versions := (locale, text) :: message.versions }

/-- The message with these texts, of which one must be in the default language. -/
def ofVersions (texts : List (Locale × String)) : Except MissingDefault Message :=
  match texts.lookup Locale.default with
  | some text => .ok ⟨text, texts.filter fun version => version.1 ≠ Locale.default⟩
  | none => .error {}

/-- The text in exactly this language. -/
def text? (message : Message) (locale : Locale) : Option String :=
  if locale = Locale.default then some message.defaultText else message.versions.lookup locale

/-- Whether there is a text in exactly this language. -/
def hasText (message : Message) (locale : Locale) : Bool :=
  (message.text? locale).isSome

/-- The text in a language, or else the default text. -/
def textIn (message : Message) (locale : Locale) : String :=
  (message.text? locale).getD message.defaultText

/-- The text in a language with its places filled. -/
def format (message : Message) (locale : Locale) (arguments : List String) : String :=
  String.ofList (fillPlaces (message.textIn locale).toList (arguments.map String.toList))

end Message

end EquationPractice
