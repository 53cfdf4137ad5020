import EquationPractice.Regex.Search

/-!
# Replacing matches

Every match is replaced by a template.  In a template a dollar sign before a number stands for the
group with that number, zero being the whole match, and a doubled dollar sign for one.  The number
may be put in braces, and one that belongs to no recorded group stands for nothing.
-/

namespace EquationPractice

open Text

namespace Regex

/-- A piece of a template. -/
inductive TemplatePart where
  | char (c : Char)
  | reference (name : List Char)
  deriving DecidableEq, Repr

/-- A character that may be part of a reference. -/
def isReferenceChar (c : Char) : Bool :=
  isWordChar c

/-- Reads the reference after a dollar sign. -/
def reference? (cs : List Char) : Option (List Char × List Char) :=
  let bare := cs.takeWhile isReferenceChar
  match cs with
  | '\x7b' :: rest =>
      let name := rest.takeWhile isReferenceChar
      match rest.dropWhile isReferenceChar with
      | '\x7d' :: after => if name.isEmpty then none else some (name, after)
      | _ => none
  | _ => if bare.isEmpty then none else some (bare, cs.dropWhile isReferenceChar)

/-- The pieces of a template. -/
def templateParts (cs : List Char) : List TemplatePart :=
  match cs with
  | [] => []
  | '$' :: '$' :: rest => .char '$' :: templateParts rest
  | '$' :: rest =>
      match reference? rest with
      | some (name, after) =>
          if after.length < rest.length then .reference name :: templateParts after
          else .char '$' :: templateParts rest
      | none => .char '$' :: templateParts rest
  | c :: rest => .char c :: templateParts rest
termination_by cs.length
decreasing_by all_goals grind

/-- The text of a group of a match. -/
def Span.groupText (span : Span) (text : List Char) (index : Nat) : List Char :=
  if index = 0 then slice text span.start span.stop
  else (span.captures.lookup index).getD []

/-- What a piece of a template stands for in a match. -/
def TemplatePart.expand (text : List Char) (span : Span) : TemplatePart → List Char
  | char c => [c]
  | reference name =>
      if name.all Char.isDigit then span.groupText text (Nat.ofDigitChars 10 name 0) else []

/-- Replaces matches from left to right, given where the part of the text not yet written
begins. -/
def replaceSpans (template : List TemplatePart) (text : List Char) : Nat → List Span → List Char
  | written, [] => text.drop written
  | written, span :: rest =>
      slice text written span.start ++ template.flatMap (·.expand text span) ++
        replaceSpans template text span.stop rest

/-- The text with every match replaced by the template. -/
def replaceAll (r : Regex) (template text : List Char) : List Char :=
  replaceSpans (templateParts template) text 0 (r.spans text)

end Regex

end EquationPractice
