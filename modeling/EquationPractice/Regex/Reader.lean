import EquationPractice.Regex.Basic

/-!
# Reading patterns

The written form of patterns.  Reading either gives a pattern or fails; the reasons for failing are
not told apart.

```text
choice  = branch ('|' branch)*
branch  = piece*
piece   = atom ('?' | '*' | '+' | '{n}' | '{n,}' | '{,m}' | '{n,m}') ('?' | nothing) ('+' | nothing)
atom    = '.', '^', '$', an escape, a class in brackets, a group, or any other character
group   = '(' choice ')' with '?:' '?=' '?!' '?<=' '?<!' '?>' or flags after the parenthesis
```

A brace that does not begin a well-formed repetition stands for itself.  Nothing, a condition on the
place and a look-around cannot be repeated.  A flag holds to the end of the nearest enclosing group
that can set flags.  What a look-behind encloses must have one length, but the branches of its
outermost choice may have different ones.

## Strategy

As with expressions, each layer is a function of the reader for what stands inside a group, and
`choiceWithin` ties the knot by recursion on the depth of groups.
-/

namespace EquationPractice

namespace Regex

/-- Where the reading of a pattern stands: the rest of the text, whether letter case is ignored, and
how many groups have been opened. -/
structure Reading where
  rest : List Char
  anyCase : Bool
  groups : Nat

/-- Reads one part of a pattern. -/
abbrev PartReader := Reading → Option (Regex × Reading)

/-- The deepest nesting of groups, the outermost level included. -/
def maxDepth : Nat := 64

/-! ## Characters, escapes and classes -/

/-- A set in any case, if letter case is ignored. -/
def caseAware (anyCase : Bool) (set : CharSet) : CharSet :=
  if anyCase then .anyCase set else set

/-- What the escape of a letter stands for in a class and outside: a set or one character. -/
def letterEscape? : Char → Option CharSet
  | 'd' => some .digit
  | 'D' => some (.complement .digit)
  | 's' => some .blank
  | 'S' => some (.complement .blank)
  | 'w' => some .word
  | 'W' => some (.complement .word)
  | 'a' => some (.single '\x07')
  | 'e' => some (.single '\x1b')
  | 'f' => some (.single '\x0c')
  | 'n' => some (.single '\n')
  | 'r' => some (.single '\r')
  | 't' => some (.single '\t')
  | 'v' => some (.single '\x0b')
  | _ => none

/-- What the escape of a letter stands for outside classes only: a condition on the place. -/
def anchorEscape? : Char → Option Anchor
  | 'A' => some .start
  | 'z' => some .finish
  | 'b' => some .wordBoundary
  | 'B' => some .noWordBoundary
  | _ => none

/-- What the escape of a character stands for inside a class. -/
def classEscape? (c : Char) : Option CharSet :=
  if c == 'b' then some (.single '\x08')
  else if c.isAlphanum then letterEscape? c
  else some (.single c)

/-- Reads an item of a class: a character or an escape. -/
def classItem? : List Char → Option (CharSet × List Char)
  | '\\' :: c :: rest => (classEscape? c).map (·, rest)
  | '\\' :: [] => none
  | '[' :: _ => none
  | c :: rest => some (.single c, rest)
  | [] => none

/-- The range between two items, which must be characters in order. -/
def classRange? : CharSet → CharSet → Option CharSet
  | .single first, .single last => if first ≤ last then some (.range first last) else none
  | _, _ => none

/-- Reads an item of a class, or two with a hyphen between them.  Before the closing bracket and
before another hyphen, a hyphen stands for itself. -/
def classRangeOrItem? (cs : List Char) : Option (CharSet × List Char) := do
  let (first, rest) ← classItem? cs
  match rest with
  | '-' :: ']' :: _ | '-' :: '-' :: _ => some (first, rest)
  | '-' :: rest =>
      let (last, rest) ← classItem? rest
      return (← classRange? first last, rest)
  | rest => some (first, rest)

/-- Reads the items of a class up to its closing bracket, with the set so far. -/
def classItems? (anyCase : Bool) (set : CharSet) (cs : List Char) : Option (CharSet × List Char) :=
  match cs with
  | ']' :: rest => some (set, rest)
  | cs =>
      match classRangeOrItem? cs with
      | none => none
      | some (item, rest) =>
          if rest.length < cs.length then
            classItems? anyCase (.union set (caseAware anyCase item)) rest
          else none
termination_by cs.length

/-- Reads a class after its opening bracket.  Hyphens at the beginning stand for themselves, and so
does a closing bracket there. -/
def class? (anyCase : Bool) (cs : List Char) : Option (CharSet × List Char) := do
  let (negative, cs) := match cs with
    | '^' :: rest => (true, rest)
    | cs => (false, cs)
  let hyphens := cs.takeWhile (· == '-')
  let start : CharSet := if hyphens.isEmpty then .empty else .single '-'
  let (set, rest) ← match cs.dropWhile (· == '-') with
    | ']' :: rest =>
        if hyphens.isEmpty then classItems? anyCase (.single ']') rest else some (start, rest)
    | rest => classItems? anyCase start rest
  return (if negative then .complement set else set, rest)

/-! ## Repetitions -/

/-- The bounds of a repetition and whether it is greedy. -/
structure Bounds where
  least : Nat
  most : Option Nat

/-- Reads a number. -/
def number? (cs : List Char) : Option (Nat × List Char) :=
  let digits := cs.takeWhile Char.isDigit
  if digits.isEmpty then none
  else some (Nat.ofDigitChars 10 digits 0, cs.dropWhile Char.isDigit)

/-- Reads the bounds between braces, after the opening one. -/
def bracedBounds? (cs : List Char) : Option (Bounds × List Char) := do
  let (least, rest) ← match cs with
    | ',' :: _ => some (0, cs)
    | _ => number? cs
  match rest with
  | '\x7d' :: rest => some (⟨least, some least⟩, rest)
  | ',' :: '\x7d' :: rest => some (⟨least, none⟩, rest)
  | ',' :: rest =>
      match number? rest with
      | some (most, '\x7d' :: rest) => some (⟨least, some most⟩, rest)
      | _ => none
  | _ => none

/-- Reads the bounds of a repetition, if one follows. -/
def bounds? : List Char → Option (Bounds × List Char)
  | '?' :: rest => some (⟨0, some 1⟩, rest)
  | '*' :: rest => some (⟨0, none⟩, rest)
  | '+' :: rest => some (⟨1, none⟩, rest)
  | '\x7b' :: rest => bracedBounds? rest
  | _ => none

/-- Whether a pattern may be repeated. -/
def isRepeatable : Regex → Bool
  | empty | anchor _ | ahead _ _ | behind _ _ _ => false
  | _ => true

/-- Whether the bounds of a repetition are in order. -/
def Bounds.inOrder (bounds : Bounds) : Bool :=
  match bounds.most with
  | some most => bounds.least ≤ most
  | none => true

/-- Reads a repetition of the given pattern, if one follows.  A question mark makes it prefer fewer
rounds, a plus sign after that commits to the rounds taken. -/
def repeated? (r : Regex) (reading : Reading) : Option (Regex × Reading) :=
  match bounds? reading.rest with
  | none => some (r, reading)
  | some (bounds, rest) =>
      if !r.isRepeatable || !bounds.inOrder then none
      else
        let (greedy, rest) := match rest with
          | '?' :: rest => (false, rest)
          | rest => (true, rest)
        let repeated := loop bounds.least bounds.most greedy true r
        match rest with
        | '+' :: rest => some (atomic repeated, { reading with rest })
        | rest => some (repeated, { reading with rest })

/-! ## Groups -/

/-- The look-behind at a pattern, which must have one length or be a choice between such
patterns. -/
def behind? (positive : Bool) (r : Regex) : Option Regex :=
  match r.width? with
  | some width => some (behind positive width r)
  | none =>
      match r with
      | alt preferred other => do
          let first ← behind? positive preferred
          let second ← behind? positive other
          return if positive then alt first second else seq first second
      | _ => none

/-- Reads the closing parenthesis of a group. -/
def closing? (r : Regex) (reading : Reading) : Option (Regex × Reading) :=
  match reading.rest with
  | ')' :: rest => some (r, { reading with rest })
  | _ => none

/-- Reads flags up to a colon or a parenthesis.  Only `i`, which ignores letter case, has an effect,
and a hyphen turns it off; `u` may be given but not taken away.  A hyphen alone is no flag. -/
def flags? (negative fresh : Bool) (anyCase : Bool) : List Char → Option (Bool × List Char)
  | 'i' :: rest => flags? negative false (!negative) rest
  | 'u' :: rest => if negative then none else flags? negative false anyCase rest
  | '-' :: rest => if negative then none else flags? true fresh anyCase rest
  | ':' :: rest => if negative && fresh then none else some (anyCase, ':' :: rest)
  | ')' :: rest => if fresh then none else some (anyCase, ')' :: rest)
  | _ => none

/-- Reads a group after its opening parenthesis. -/
def group? (inner : PartReader) (reading : Reading) : Option (Regex × Reading) :=
  match reading.rest with
  | '?' :: '=' :: rest => do
      let (r, after) ← inner { reading with rest }
      closing? (ahead true r) after
  | '?' :: '!' :: rest => do
      let (r, after) ← inner { reading with rest }
      closing? (ahead false r) after
  | '?' :: '<' :: '=' :: rest => do
      let (r, after) ← inner { reading with rest }
      closing? (← behind? true r) after
  | '?' :: '<' :: '!' :: rest => do
      let (r, after) ← inner { reading with rest }
      closing? (← behind? false r) after
  | '?' :: '>' :: rest => do
      let (r, after) ← inner { reading with rest }
      closing? (atomic r) after
  | '?' :: rest => do
      match ← flags? false true reading.anyCase rest with
      | (anyCase, ':' :: rest) =>
          let (r, after) ← inner { reading with rest, anyCase }
          closing? r { after with anyCase := reading.anyCase }
      | (anyCase, rest) => closing? empty { reading with rest, anyCase }
  | rest => do
      let index := reading.groups + 1
      let (r, after) ← inner { reading with rest, groups := index }
      closing? (group index r) after

/-! ## Atoms, branches and choices -/

/-- Reads an escape outside classes, after the backslash. -/
def escape? (reading : Reading) (cs : List Char) : Option (Regex × Reading) :=
  match cs with
  | [] => none
  | c :: rest =>
      if c.isDigit then
        (number? cs).map fun (index, rest) => (backref index, { reading with rest })
      else
        match anchorEscape? c with
        | some condition => some (anchor condition, { reading with rest })
        | none =>
            match letterEscape? c with
            | some set => some (one (caseAware reading.anyCase set), { reading with rest })
            | none =>
                if c.isAlpha then none
                else some (one (caseAware reading.anyCase (.single c)), { reading with rest })

/-- Reads an atom.  A repetition without anything before it is refused. -/
def atom? (inner : PartReader) (reading : Reading) : Option (Regex × Reading) :=
  match reading.rest with
  | [] => none
  | c :: rest =>
      match c with
      | '.' => some (one .withinLine, { reading with rest })
      | '^' => some (anchor .start, { reading with rest })
      | '$' => some (anchor .finish, { reading with rest })
      | '(' => group? inner { reading with rest }
      | '\\' => escape? reading rest
      | '[' => (class? reading.anyCase rest).map fun (set, rest) => (one set, { reading with rest })
      | '?' | '*' | '+' => none
      | c => some (one (caseAware reading.anyCase (.single c)), { reading with rest })

/-- Reads an atom and its repetition. -/
def piece? (inner : PartReader) (reading : Reading) : Option (Regex × Reading) := do
  let (r, after) ← atom? inner reading
  repeated? r after

/-- Whether a branch ends here. -/
def endsBranch : List Char → Bool
  | [] => true
  | c :: _ => c == '|' || c == ')'

/-- Puts a pattern before another; nothing before or after a pattern leaves no trace. -/
def followedBy : Regex → Regex → Regex
  | empty, s => s
  | r, empty => r
  | r, s => seq r s

/-- Reads the pieces of a branch. -/
def branch? (inner : PartReader) (reading : Reading) : Option (Regex × Reading) :=
  if endsBranch reading.rest then some (empty, reading)
  else
    match piece? inner reading with
    | none => none
    | some (r, after) =>
        if after.rest.length < reading.rest.length then do
          let (s, last) ← branch? inner after
          return (followedBy r s, last)
        else none
termination_by reading.rest.length

/-- A branch as a part of a choice.  One that is itself a choice is set apart, so that the branches of
the choice around it can be told from its own. -/
def setApart : Regex → Regex
  | alt r s => seq empty (alt r s)
  | r => r

/-- The choice between branches, in order of preference. -/
def choiceOf : List Regex → Regex
  | [] => empty
  | [r] => r
  | [r, s] => alt r.setApart s.setApart
  | r :: rest => alt r.setApart (choiceOf rest)

/-- Reads branches with bars between them. -/
def branches? (inner : PartReader) (reading : Reading) : Option (List Regex × Reading) :=
  match branch? inner reading with
  | none => none
  | some (r, after) =>
      match after.rest with
      | '|' :: rest =>
          if rest.length < reading.rest.length then do
            let (later, last) ← branches? inner { after with rest }
            return (r :: later, last)
          else none
      | _ => some ([r], after)
termination_by reading.rest.length

/-- Reads a choice. -/
def choice? (inner : PartReader) (reading : Reading) : Option (Regex × Reading) := do
  let (branches, last) ← branches? inner reading
  return (choiceOf branches, last)

/-- Reads a choice with fewer levels of groups than given. -/
def choiceWithin : Nat → PartReader
  | 0 => fun _ => none
  | depth + 1 => choice? (choiceWithin depth)

/-! ## Whole patterns -/

/-- Whether every group that is referred to was opened. -/
def referencesWithin (groups : Nat) (r : Regex) : Bool :=
  r.references.all fun index => 1 ≤ index && index ≤ groups

/-- Reads a text as a pattern with at most `depth` levels, all groups recorded.  A pattern that looks
beyond the next character drops its empty rounds. -/
def readRecording? (depth : Nat) (text : List Char) : Option Regex := do
  let (r, last) ← choiceWithin depth ⟨text, false, 0⟩
  if last.rest.isEmpty && r.referencesWithin last.groups then
    some (if r.isContextual then r.dropEmptyRounds else r)
  else none

/-- Reads a text as a pattern with at most `depth` levels that records the groups it refers to. -/
def read? (depth : Nat) (text : List Char) : Option Regex :=
  (readRecording? depth text).map fun r => r.keepGroups r.references

end Regex

end EquationPractice
