import EquationPractice.Proofs.Solution.LinearSolver

/-!
# Which expressions have a value

The evaluator gives up as soon as something is amiss in some operand.  Whether it will can be said
beforehand, by looking at every part of the expression for itself: no part may be a variable, no
divisor may be zero, and every exponent must be an integer that keeps both limits and does not invert
zero.  If nothing is amiss, the value is that of the expression in the field of rational numbers.

## Strategy

In the field every expression is given some number, also where it has no value (`fieldValue`), so
what makes a part admissible can be stated without asking whether its operands have values.  That
all parts are admissible then splits, along the constructors as the evaluator does, into the same for
the operands and one more condition for the node above them.

## Main definitions

* `Expr.parts`: an expression with its operands, at any depth.
* `Expr.fieldValue`: the number of an expression in the field.
* `Expr.Admissible`: nothing is amiss in a node itself.
-/

namespace EquationPractice

namespace Expr

/-- The expression itself and its operands, at any depth. -/
def parts : Expr → List Expr
  | number q => [number q]
  | var name => [var name]
  | add l r => add l r :: (l.parts ++ r.parts)
  | sub l r => sub l r :: (l.parts ++ r.parts)
  | mul l r => mul l r :: (l.parts ++ r.parts)
  | div l r => div l r :: (l.parts ++ r.parts)
  | pow b x => pow b x :: (b.parts ++ x.parts)
  | neg e => neg e :: e.parts

/-- The number of an expression in the field of rational numbers.  The power with exponent zero is
one, also of zero.  What has no value in the field is given some number nevertheless: a variable and
a quotient by zero count as zero. -/
def fieldValue : Expr → ℚ
  | number q => q
  | var _ => 0
  | add l r => l.fieldValue + r.fieldValue
  | sub l r => l.fieldValue - r.fieldValue
  | mul l r => l.fieldValue * r.fieldValue
  | div l r => l.fieldValue / r.fieldValue
  | pow b x => b.fieldValue ^ x.fieldValue.num
  | neg e => -e.fieldValue

/-- The exponent is an integer, it keeps its limit and with the base that of the power, and zero is
not inverted. -/
def WithinLimits (base exponent : ℚ) : Prop :=
  ∃ k : ℤ, exponent = k ∧ k.natAbs ≤ 64 ∧ bitSize base * k.natAbs ≤ 4096 ∧ ¬(base = 0 ∧ k < 0)

/-- The node itself keeps no expression from having a value. -/
def Admissible : Expr → Prop
  | var _ => False
  | div _ r => r.fieldValue ≠ 0
  | pow b x => WithinLimits b.fieldValue x.fieldValue
  | _ => True

/-! ## Parts -/

section parts

variable {e l r : Expr} {name : String}

theorem mem_parts_self : e ∈ e.parts := by
  cases e <;> exact List.mem_cons_self

theorem mentions_iff_mem_parts : e.mentions name = true ↔ var name ∈ e.parts := by
  induction e with
  | number q => simp [mentions, parts]
  | var other => simp [mentions, parts, @eq_comm _ name other]
  | add l r ihl ihr | sub l r ihl ihr | mul l r ihl ihr | div l r ihl ihr | pow l r ihl ihr =>
      simp [mentions, parts, ihl, ihr]
  | neg e ih => simp [mentions, parts, ih]

/-- What is admissible, part by part. -/
theorem forall_admissible_iff : (∀ part ∈ e.parts, part.Admissible) ↔
    e.variableNames = [] ∧ (∀ l r, div l r ∈ e.parts → r.fieldValue ≠ 0) ∧
      ∀ b x, pow b x ∈ e.parts → WithinLimits b.fieldValue x.fieldValue := by
  have hclosed : e.variableNames = [] ↔ ∀ name, var name ∉ e.parts := by
    simp only [List.eq_nil_iff_forall_not_mem, mem_variableNames, mentions_iff_mem_parts]
  rw [hclosed]
  constructor
  · intro hparts
    exact ⟨fun name hvar => hparts _ hvar, fun l r hdiv => hparts _ hdiv,
      fun b x hpow => hparts _ hpow⟩
  · rintro ⟨hvars, hdivs, hpows⟩ part hpart
    cases part with
    | var name => exact hvars name hpart
    | div l r => exact hdivs l r hpart
    | pow b x => exact hpows b x hpart
    | number q | add l r | sub l r | mul l r | neg e => trivial

end parts

/-! ## Values, node by node -/

section values

variable {e l r b x : Expr} {q : ℚ}

theorem value?_add_eq_some : (add l r).value? = some q ↔
    ∃ a, l.value? = some a ∧ ∃ c, r.value? = some c ∧ a + c = q := by
  simp [value?, Option.bind_eq_some_iff]

theorem value?_sub_eq_some : (sub l r).value? = some q ↔
    ∃ a, l.value? = some a ∧ ∃ c, r.value? = some c ∧ a - c = q := by
  simp [value?, Option.bind_eq_some_iff]

theorem value?_mul_eq_some : (mul l r).value? = some q ↔
    ∃ a, l.value? = some a ∧ ∃ c, r.value? = some c ∧ a * c = q := by
  simp [value?, Option.bind_eq_some_iff]

theorem value?_neg_eq_some : (neg e).value? = some q ↔ ∃ a, e.value? = some a ∧ -a = q := by
  simp [value?, Option.bind_eq_some_iff]

theorem value?_div_eq_some : (div l r).value? = some q ↔
    ∃ d, r.value? = some d ∧ d ≠ 0 ∧ ∃ a, l.value? = some a ∧ a / d = q := by
  simp only [value?, Option.bind_eq_bind, Option.bind_eq_some_iff]
  refine exists_congr fun d => and_congr_right fun _ => ?_
  by_cases hzero : d = 0 <;> simp [hzero, Option.bind_eq_some_iff]

theorem value?_pow_eq_some : (pow b x).value? = some q ↔
    ∃ k, x.value? = some k ∧ ∃ a, b.value? = some a ∧ exactPow? a k = some q := by
  simp only [value?, Option.bind_eq_bind, Option.bind_eq_some_iff]
  constructor
  · rintro ⟨a, ha, k, hk, hpower⟩
    exact ⟨k, hk, a, ha, hpower⟩
  · rintro ⟨k, hk, a, ha, hpower⟩
    exact ⟨a, ha, k, hk, hpower⟩

end values

/-! ## Values against the field -/

/-- A power is evaluated exactly when it is within the limits, and it is then the power in the
field. -/
theorem exactPow?_eq_some_iff {base exponent power : ℚ} :
    exactPow? base exponent = some power ↔
      WithinLimits base exponent ∧ base ^ exponent.num = power := by
  have hinteger : exponent.den = 1 ↔ exponent = exponent.num :=
    (Rat.den_eq_one_iff exponent).trans eq_comm
  have hsign : exponent < 0 ↔ exponent.num < 0 := Rat.num_neg.symm
  rw [exactPow?_eq_some]
  unfold fieldPow? WithinLimits maxExponent maxPowerBits
  constructor
  · rintro ⟨hexponent, hsize, hpower⟩
    split at hpower
    · simp at hpower
    · next hden =>
        split at hpower
        · simp at hpower
        · next hzero =>
            rw [hsign] at hzero
            exact ⟨⟨exponent.num, hinteger.mp (not_not.mp hden), hexponent, hsize, hzero⟩,
              Option.some.inj hpower⟩
  · rintro ⟨⟨k, rfl, hexponent, hsize, hzero⟩, hpower⟩
    rw [← Int.cast_lt_zero (R := ℚ)] at hzero
    refine ⟨hexponent, hsize, ?_⟩
    rw [if_neg (by simp), if_neg hzero, hpower]

/-- The evaluator gives a value exactly when all parts are admissible, and then that of the field. -/
theorem value?_eq_some_iff_admissible {e : Expr} {q : ℚ} :
    e.value? = some q ↔ (∀ part ∈ e.parts, part.Admissible) ∧ e.fieldValue = q := by
  induction e generalizing q with
  | number value => simp [value?, parts, fieldValue, Admissible]
  | var name => simp [value?, parts, Admissible]
  | add l r ihl ihr | sub l r ihl ihr | mul l r ihl ihr =>
      simp only [value?_add_eq_some, value?_sub_eq_some, value?_mul_eq_some, ihl, ihr, parts,
        fieldValue, Admissible, List.forall_mem_cons, List.forall_mem_append]
      constructor
      · rintro ⟨_, ⟨hleft, rfl⟩, _, ⟨hright, rfl⟩, rfl⟩
        exact ⟨⟨trivial, hleft, hright⟩, rfl⟩
      · rintro ⟨⟨-, hleft, hright⟩, rfl⟩
        exact ⟨_, ⟨hleft, rfl⟩, _, ⟨hright, rfl⟩, rfl⟩
  | div l r ihl ihr =>
      simp only [value?_div_eq_some, ihl, ihr, parts, fieldValue, Admissible, List.forall_mem_cons,
        List.forall_mem_append]
      constructor
      · rintro ⟨_, ⟨hright, rfl⟩, hne, _, ⟨hleft, rfl⟩, rfl⟩
        exact ⟨⟨hne, hleft, hright⟩, rfl⟩
      · rintro ⟨⟨hne, hleft, hright⟩, rfl⟩
        exact ⟨_, ⟨hright, rfl⟩, hne, _, ⟨hleft, rfl⟩, rfl⟩
  | pow b x ihb ihx =>
      simp only [value?_pow_eq_some, ihb, ihx, exactPow?_eq_some_iff, parts, fieldValue, Admissible,
        List.forall_mem_cons, List.forall_mem_append]
      constructor
      · rintro ⟨_, ⟨hexponent, rfl⟩, _, ⟨hbase, rfl⟩, hlimits, rfl⟩
        exact ⟨⟨hlimits, hbase, hexponent⟩, rfl⟩
      · rintro ⟨⟨hlimits, hbase, hexponent⟩, rfl⟩
        exact ⟨_, ⟨hexponent, rfl⟩, _, ⟨hbase, rfl⟩, hlimits, rfl⟩
  | neg e ih => simp [value?_neg_eq_some, ih, parts, fieldValue, Admissible]

/-- What has a value mentions no variable. -/
theorem not_mentions_of_value? {e : Expr} {q : ℚ} (hvalue : e.value? = some q) (name : String) :
    e.mentions name = false := by
  have hclosed := (forall_admissible_iff.mp (value?_eq_some_iff_admissible.mp hvalue).1).1
  rw [Bool.eq_false_iff, Ne, ← mem_variableNames, hclosed]
  exact List.not_mem_nil

example : (pow (number 0) (sub (number 2) (number 2))).value? = some 1 := by decide +kernel

end Expr

end EquationPractice
