import EquationPractice.Proofs.Reading.Relations

/-!
# How deep a tree can be

Trees are walked through by recursion, so a deep tree needs as much room as a deeply nested text.
The limit on the nesting of parentheses does not bound it: signs, towers of exponents and chains of
operations make a tree deeper without any parenthesis.  The limit on the length of a text does.

## Strategy

The induction is on the derivation of the text.  A sign pays for the negation that it may become.
No other node has to be paid for, not even that of a product without an operator, for which there is
no character.  Of two operands only the deeper one counts, and the other one was read from a
character at least, which is left to pay for the node above both.

## Main definitions

* `Expr.depth`: the number of nodes on the longest way from the root of a tree to a leaf.
-/

namespace EquationPractice

variable {layer : Layer} {cs next run : List Char} {e f l r : Expr} {m n : ℕ}

/-! ## Depth -/

namespace Expr

/-- The number of nodes on the longest way from the root to a leaf. -/
def depth : Expr → ℕ
  | number _ | var _ => 1
  | add l r | sub l r | mul l r | div l r | pow l r => max l.depth r.depth + 1
  | neg e => e.depth + 1

theorem depth_pos (e : Expr) : 0 < e.depth := by
  cases e <;> simp [depth]

theorem depth_negate_le : (negate e).depth ≤ e.depth + 1 := by
  cases e with
  | number q => exact Nat.le_succ 1
  | var | add | sub | mul | div | pow | neg => exact le_rfl

/-- A node over two operands is not deeper than what bounds the operands together. -/
theorem depth_over_le (hleft : l.depth ≤ m) (hright : r.depth ≤ n) :
    max l.depth r.depth + 1 ≤ m + n := by
  have hl := l.depth_pos
  have hr := r.depth_pos
  omega

end Expr

/-! ## Texts -/

/-- A run of signs makes a tree no deeper than it is long. -/
theorem Signs.depth_le (hrun : Signs run e f) : f.depth ≤ run.length + e.depth := by
  induction hrun with
  | none => simp
  | plus hgaps hrun ih =>
      simp only [List.length_append, List.length_cons]
      omega
  | @minus gaps run e f hgaps hrun ih =>
      have hnegate := Expr.depth_negate_le (e := f)
      simp only [List.length_append, List.length_cons]
      omega

/-- What is derived from a text is at most as deep as the text is long. -/
theorem Derives.depth_le (hderives : Derives layer cs next e) : e.depth ≤ cs.length := by
  induction hderives with
  | literal hgaps hvalue hmaximal =>
      have hlength := List.length_pos_iff.mpr hvalue.ne_nil
      rw [List.length_append, Expr.depth]
      omega
  | name hgaps hmaximal =>
      have hlength := List.length_pos_iff.mpr hmaximal.isToken.ne_nil
      rw [List.length_append, Expr.depth]
      omega
  | group hbefore hafter hbody ih =>
      simp only [List.length_append, List.length_cons]
      omega
  | base _ ih | operand _ ih | product _ ih | summand _ ih => exact ih
  | signed hrun hpower ih =>
      have hsigns := hrun.depth_le
      rw [List.length_append]
      omega
  | pow hgaps hbase hrun hexponent ihb ihx =>
      -- the signs of the exponent are paid for by themselves
      have hsigns := hrun.depth_le
      have hnode := Expr.depth_over_le ihb (hsigns.trans (Nat.add_le_add_left ihx _))
      simp only [List.length_append, List.length_cons, Expr.depth]
      omega
  | mul hgaps _ _ ihl ihr | div hgaps _ _ ihl ihr | add hgaps _ _ ihl ihr | sub hgaps _ _ ihl ihr =>
      have hnode := Expr.depth_over_le ihl ihr
      simp only [List.length_append, List.length_cons, Expr.depth]
      omega
  | factor hleft hends hstart hfactor ihl ihr =>
      rw [List.length_append]
      exact Expr.depth_over_le ihl ihr

theorem depth_le_of_parseChars (hread : parseChars cs = .ok e) : e.depth ≤ cs.length := by
  obtain ⟨taken, blanks, rfl, -, hderives⟩ := exists_derives_of_parseChars hread
  rw [List.length_append]
  exact hderives.depth_le.trans (Nat.le_add_right _ _)

/-- **The length of a text bounds the depth of its tree.**  What a text is read as is at most as
deep as the text has characters, so never deeper than the longest text that is read.  The same holds
of the difference between the two sides of a relation. -/
theorem depth_le_length_of_parse (text : String) :
    (∀ e, parse text = .ok e → e.depth ≤ text.length ∧ e.depth ≤ 1024) ∧
    ∀ equation, parseEquation text = .ok equation →
      equation.difference.depth ≤ text.length := by
  constructor
  · intro e hparse
    obtain ⟨hcheck, -⟩ := parseChars_eq_ok_iff.mp hparse
    obtain ⟨-, hlength, -⟩ := checkText_eq_ok.mp hcheck
    have hdepth := depth_le_of_parseChars hparse
    rw [← String.length_toList]
    exact ⟨hdepth, hdepth.trans hlength⟩
  · intro equation hparse
    obtain ⟨left, right, htext, hleft, hright, -⟩ := exists_sides_of_parseEquationChars hparse
    calc equation.difference.depth
        = max equation.lhs.depth equation.rhs.depth + 1 := rfl
      _ ≤ left.length + right.length :=
        Expr.depth_over_le (depth_le_of_parseChars hleft) (depth_le_of_parseChars hright)
      _ ≤ text.length := by
        rw [← String.length_toList, htext]
        simp only [List.length_append]
        omega

/-- With signs only, a tree is as deep as its text is long.  In `2x=-y` no character stands for the
product. -/
theorem depth_le_length_of_parse_signs :
    let signed := Expr.neg (.neg (.neg (.var "x")))
    let equation : Equation := ⟨.mul (.number 2) (.var "x"), .equal, .neg (.var "y")⟩
    parse "---x" = .ok signed ∧ signed.depth = 4 ∧ signed.depth ≤ "---x".length ∧
      parseEquation "2x=-y" = .ok equation ∧ equation.difference.depth = 3 ∧
      equation.difference.depth ≤ "2x=-y".length := by
  intro signed equation
  have hparse : parse "---x" = .ok signed := by decide +kernel
  have hequation : parseEquation "2x=-y" = .ok equation := by decide +kernel
  exact ⟨hparse, rfl, ((depth_le_length_of_parse _).1 _ hparse).1, hequation, rfl,
    (depth_le_length_of_parse _).2 _ hequation⟩

end EquationPractice
