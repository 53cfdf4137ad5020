import EquationPractice.Regex.CharSet

/-!
# Patterns

The syntax of patterns after reading: single characters from a set, sequences, choices in order of
preference, bounded and unbounded loops, capturing groups and references to them, and conditions on
the place in the text.

## Main definitions

* `Regex`: a pattern.
* `Regex.width?`: the length of what a pattern matches, when all of it has one length.
* `Regex.isContextual`: whether the pattern looks at more than the next character.
-/

namespace EquationPractice

/-- A condition on a place in the text. -/
inductive Anchor where
  | start
  | finish
  | wordBoundary
  | noWordBoundary
  deriving DecidableEq, Repr

/-- A pattern.  In `loop`, `most = none` sets no upper bound, and `keepsEmpty` says what a round that
takes nothing does once enough rounds are done: end the loop there, or be dropped.  In `behind`,
`width` is the length of what the body matches. -/
inductive Regex where
  | empty
  | one (set : CharSet)
  | anchor (place : Anchor)
  | seq (first second : Regex)
  | alt (preferred other : Regex)
  | loop (least : Nat) (most : Option Nat) (greedy keepsEmpty : Bool) (body : Regex)
  | group (index : Nat) (body : Regex)
  | backref (index : Nat)
  | atomic (body : Regex)
  | ahead (positive : Bool) (body : Regex)
  | behind (positive : Bool) (width : Nat) (body : Regex)
  deriving DecidableEq, Repr

namespace Regex

/-- The pattern that matches a text and nothing else. -/
def literal : List Char → Regex
  | [] => empty
  | [c] => one (.single c)
  | c :: rest => seq (one (.single c)) (literal rest)

/-- The pattern, or nothing in its place. -/
def optional (r : Regex) : Regex :=
  loop 0 (some 1) true true r

/-- The least length of a match. -/
def minWidth : Regex → Nat
  | empty | anchor _ | backref _ | ahead _ _ | behind _ _ _ => 0
  | one _ => 1
  | seq r s => r.minWidth + s.minWidth
  | alt r s => min r.minWidth s.minWidth
  | loop least _ _ _ r => least * r.minWidth
  | group _ r | atomic r => r.minWidth

/-- Whether all matches have one length. -/
def hasWidth : Regex → Bool
  | empty | one _ | anchor _ | ahead _ _ | behind _ _ _ => true
  | backref _ => false
  | seq r s => r.hasWidth && s.hasWidth
  | alt r s => r.hasWidth && s.hasWidth && r.minWidth == s.minWidth
  | loop least most _ _ r => r.hasWidth && most == some least
  | group _ r | atomic r => r.hasWidth

/-- The length of all matches, if they have one length. -/
def width? (r : Regex) : Option Nat :=
  if r.hasWidth then some r.minWidth else none

/-- Whether the pattern refers to a group, looks around, tests a word boundary or commits to a
choice. -/
def isContextual : Regex → Bool
  | empty | one _ | anchor .start | anchor .finish => false
  | anchor .wordBoundary | anchor .noWordBoundary => true
  | backref _ | atomic _ | ahead _ _ | behind _ _ _ => true
  | seq r s | alt r s => r.isContextual || s.isContextual
  | loop _ _ _ _ r | group _ r => r.isContextual

/-- The groups that the pattern refers to. -/
def references : Regex → List Nat
  | empty | one _ | anchor _ => []
  | backref index => [index]
  | seq r s | alt r s => r.references ++ s.references
  | loop _ _ _ _ r | group _ r | atomic r | ahead _ r | behind _ _ r => r.references

/-- The pattern with its empty rounds dropped. -/
def dropEmptyRounds : Regex → Regex
  | seq r s => seq r.dropEmptyRounds s.dropEmptyRounds
  | alt r s => alt r.dropEmptyRounds s.dropEmptyRounds
  | loop least most greedy _ r => loop least most greedy false r.dropEmptyRounds
  | group index r => group index r.dropEmptyRounds
  | atomic r => atomic r.dropEmptyRounds
  | ahead positive r => ahead positive r.dropEmptyRounds
  | behind positive width r => behind positive width r.dropEmptyRounds
  | r => r

/-- The pattern with only the given groups recorded. -/
def keepGroups (used : List Nat) : Regex → Regex
  | seq r s => seq (r.keepGroups used) (s.keepGroups used)
  | alt r s => alt (r.keepGroups used) (s.keepGroups used)
  | loop least most greedy keepsEmpty r => loop least most greedy keepsEmpty (r.keepGroups used)
  | group index r => if index ∈ used then group index (r.keepGroups used) else r.keepGroups used
  | atomic r => atomic (r.keepGroups used)
  | ahead positive r => ahead positive (r.keepGroups used)
  | behind positive width r => behind positive width (r.keepGroups used)
  | r => r

end Regex

end EquationPractice
