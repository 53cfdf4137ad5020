import EquationPractice.Proofs.Reading.OpenedGroups
import EquationPractice.Proofs.Reading.Relations

/-!
# The limit of nesting

Before a text is read its parentheses are counted, without regard to what they enclose.  This bounds
how many groups are open at once at any time while the text is read: in every attempt, also one that
is given up later, and in texts whose parentheses do not match.

## Strategy

The groups that are open at some time form a chain, each opened while the one around it is read.
Between two parentheses of the chain stands a balanced text, so the count of open parentheses, which
never falls below zero, is at least the number of groups in the chain when it comes to the last of
them.  A reader that is limited to so many levels never comes to its limit then, and reads the same.

## Main definitions

* `GroupsOpen`: at some time of a reading, so many groups are open.
* `StatementStart`: the texts at which an expression is begun.
* `limited`: a reader that leaves whatever is nested too deeply to another one.
-/

namespace EquationPractice

open Text

variable {cs body rest : List Char} {count levels : ℕ}

/-! ## Levels of parentheses -/

/-- Each level of parentheses takes a character, so from one more level than there are characters on
their number does not matter. -/
theorem expression_congr {levels' : ℕ} (hlevels : cs.length < levels)
    (hlevels' : cs.length < levels') : expression levels cs = expression levels' cs := by
  induction hlength : cs.length using Nat.strong_induction_on generalizing cs levels levels' with
  | _ length ih =>
      obtain ⟨fewer, rfl⟩ := Nat.exists_eq_succ_of_ne_zero (Nat.ne_zero_of_lt hlevels)
      obtain ⟨fewer', rfl⟩ := Nat.exists_eq_succ_of_ne_zero (Nat.ne_zero_of_lt hlevels')
      refine sum_congr fun body hbody => ?_
      have hshorter := (opensIn_sum (takes_expression fewer) cs body hbody).length_lt
      exact ih body.length (hlength ▸ hshorter) (by omega) (by omega) rfl

/-- What stands in a group is read as the expression around it is, to any depth. -/
theorem readExpr_eq_sum (cs : List Char) : readExpr cs = sum readExpr cs := by
  refine sum_congr fun body hbody => ?_
  have hshorter := (opensIn_sum (takes_expression cs.length) cs body hbody).length_lt
  exact expression_congr hshorter (Nat.lt_succ_self _)

theorem opensIn_readExpr : OpensIn (openedBySum readExpr) :=
  opensIn_sum takes_readExpr

/-! ## Open groups -/

/-- At some time while an expression is read off the text, so many groups are open, and the innermost
one, or else the expression, was begun at the rest. -/
inductive GroupsOpen (cs : List Char) : ℕ → List Char → Prop
  | none : GroupsOpen cs 0 cs
  | enter {count : ℕ} {rest body : List Char} (hopen : GroupsOpen cs count rest)
      (hbody : body ∈ openedBySum readExpr rest) : GroupsOpen cs (count + 1) body

/-- The groups that are open in a group are so in the text around it. -/
theorem GroupsOpen.inside (hbody : body ∈ openedBySum readExpr cs)
    (hopen : GroupsOpen body count rest) : GroupsOpen cs (count + 1) rest := by
  induction hopen with
  | none => exact .enter .none hbody
  | enter _ hmem ih => exact .enter ih hmem

/-- The count of open parentheses keeps up with the groups that are open. -/
theorem GroupsOpen.nestsWithin {limit : ℕ} (hopen : GroupsOpen cs count rest)
    (hnests : nestsWithin limit 0 cs = true) :
    count ≤ limit ∧ EquationPractice.nestsWithin limit count rest = true := by
  induction hopen with
  | none => exact ⟨Nat.zero_le limit, hnests⟩
  | enter _ hbody ih =>
      obtain ⟨-, hrest⟩ := ih
      exact (opensIn_readExpr _ _ hbody).nestsWithin hrest

/-! ## Limited readers -/

/-- Reads an expression in which so many groups may be open at once.  What is nested more deeply is
left to another reader. -/
def limited (beyond : Reader Expr) : ℕ → Reader Expr
  | 0 => sum beyond
  | levels + 1 => sum (limited beyond levels)

/-- A limit that is never reached does not matter. -/
theorem limited_eq_readExpr {beyond : Reader Expr}
    (hopen : ∀ count rest, GroupsOpen cs count rest → count ≤ levels) :
    limited beyond levels cs = readExpr cs := by
  rw [readExpr_eq_sum]
  induction levels generalizing cs with
  | zero =>
      refine (sum_congr fun body hbody => ?_).symm
      exact absurd (hopen 1 body (.enter .none hbody)) (by decide)
  | succ levels ih =>
      refine (sum_congr fun body hbody => ?_).symm
      rw [readExpr_eq_sum]
      refine (ih fun count rest hinside => ?_).symm
      exact Nat.le_of_succ_le_succ (hopen _ rest (hinside.inside hbody))

/-! ## Whole texts -/

/-- An expression is begun at the second text while the first one is read as a statement: at the
whole text, for the left side of a relation and once more if it is no relation, and behind the sign,
if the left side and a sign are read. -/
inductive StatementStart (cs : List Char) : List Char → Prop
  | whole : StatementStart cs cs
  | right {lhs : Expr} {sign : Relation} {afterLeft afterSign : List Char}
      (hleft : readExpr cs = .ok (lhs, afterLeft))
      (hsign : relation afterLeft = .ok (sign, afterSign)) : StatementStart cs afterSign

/-- A sign between two sides does not change how deep they are nested. -/
theorem passes_relation {sign : Relation} (hread : relation cs = .ok (sign, rest)) :
    Passes cs rest := by
  obtain ⟨gaps, hgaps, rfl⟩ := exists_gaps_of_relation hread
  have hsign : Balanced sign.chars := balanced_of_plain (by cases sign <;> simp [Relation.chars])
  exact ⟨gaps ++ sign.chars, by simp, hgaps.balanced.append hsign⟩

/-- Wherever an expression is begun, no parenthesis is open. -/
theorem StatementStart.nestsWithin {limit : ℕ} {start : List Char}
    (hstart : StatementStart cs start) (hnests : nestsWithin limit 0 cs = true) :
    EquationPractice.nestsWithin limit 0 start = true := by
  cases hstart with
  | whole => exact hnests
  | right hleft hsign =>
      obtain ⟨taken, rfl, hbalanced⟩ :=
        (takes_readExpr.passesOver _ _ _ hleft).trans (passes_relation hsign)
      rw [hbalanced, Bool.and_eq_true] at hnests
      exact hnests.2

variable {reader : Reader Expr}

theorem parseBy_congr (hreader : reader cs = readExpr cs) : parseBy reader cs = parseChars cs := by
  rw [parseChars, parseBy, parseBy, hreader]

theorem readEquationBy_congr
    (hreader : ∀ start, StatementStart cs start → reader start = readExpr start) :
    readEquationBy reader cs = readEquation cs := by
  unfold readEquation readEquationBy
  rw [hreader cs .whole]
  cases hleft : readExpr cs with
  | error stuck => rfl
  | ok left =>
      cases hsign : relation left.2 with
      | error stuck => simp only [hsign]
      | ok behind => simp only [hsign, hreader behind.2 (.right hleft hsign)]

theorem parseStatementBy_congr
    (hreader : ∀ start, StatementStart cs start → reader start = readExpr start) :
    parseStatementBy reader cs = parseStatementChars cs := by
  have hwhole : wholeEquationBy? reader cs = wholeEquation? cs := by
    rw [wholeEquation?, wholeEquationBy?, wholeEquationBy?, readEquationBy_congr hreader]
    rfl
  rw [parseStatementChars, parseStatementBy, parseStatementBy, hwhole, hreader cs .whole]
  rfl

/-- **Nesting is bounded at all times.**  Of a text that is let in, whether its parentheses match or
not, an expression is never read with more than 64 groups open at once: neither when the text is read
as an expression, nor when it is read as a statement, which may begin three expressions, and in no
attempt on the way.  So a reader that may have 64 groups open, and does whatever it does with one that
is nested more deeply, gives the same result on the text. -/
theorem groupsOpen_le_maxNesting (text : String) (hcheck : checkText text.toList = .ok ()) :
    (∀ count rest, GroupsOpen text.toList count rest → count ≤ maxNesting) ∧
    (∀ start, StatementStart text.toList start → ∀ count rest, GroupsOpen start count rest →
      count ≤ maxNesting) ∧
    ∀ beyond, parseBy (limited beyond maxNesting) text.toList = parse text ∧
      parseStatementBy (limited beyond maxNesting) text.toList = parseStatement text := by
  obtain ⟨-, -, hnests⟩ := checkText_eq_ok.mp hcheck
  have hopen : ∀ start, StatementStart text.toList start → ∀ count rest,
      GroupsOpen start count rest → count ≤ maxNesting := fun start hstart count rest hopen =>
    (hopen.nestsWithin (hstart.nestsWithin hnests)).1
  refine ⟨hopen _ .whole, hopen, fun beyond => ⟨?_, ?_⟩⟩
  · exact parseBy_congr (limited_eq_readExpr (hopen _ .whole))
  · exact parseStatementBy_congr fun start hstart => limited_eq_readExpr (hopen start hstart)

/-- In `2*((x` the operation behind the number is given up, with two groups open. -/
theorem groupsOpen_le_maxNesting_unclosed :
    checkText "2*((x".toList = .ok () ∧ GroupsOpen "2*((x".toList 2 ['x'] ∧ 2 ≤ maxNesting ∧
      parseStatementBy (limited (fun cs => .error ⟨cs⟩) maxNesting) "2*((x".toList =
        .error (.unread "*((x".toList) := by
  have hcheck : checkText "2*((x".toList = .ok () := by decide +kernel
  have hfirst : "(x".toList ∈ openedBySum readExpr "2*((x".toList := by decide +kernel
  have hsecond : ['x'] ∈ openedBySum readExpr "(x".toList := by decide +kernel
  have hopen : GroupsOpen "2*((x".toList 2 ['x'] := .enter (.enter .none hfirst) hsecond
  obtain ⟨hbound, -, hlimited⟩ := groupsOpen_le_maxNesting "2*((x" hcheck
  refine ⟨hcheck, hopen, hbound 2 ['x'] hopen, (hlimited _).2.trans ?_⟩
  decide +kernel

end EquationPractice
