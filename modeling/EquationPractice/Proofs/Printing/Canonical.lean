import EquationPractice.Proofs.Printing.RoundTrip

/-!
# Canonical expressions

Which expressions are read back from their own text as the very same tree?  Those that the reader
can build at all: it writes no fraction into a literal, folds the sign of a literal into it, and puts
the operations of a sum or a product one after the other on the left.  `Expr.IsCanonical` asks for
no more than that, and it is exact: every other tree changes.

## Strategy

`Expr.reread` is what is read back, so the question is when it changes nothing.  A right operand that
is a sum itself hands its operations over to the whole, and could only stand where it stood before
if it were a proper part of what it is read as.  The additions and multiplications are counted to
exclude that: reading back keeps their number.
-/

namespace EquationPractice

namespace Expr

variable {e l r t acc : Expr}

/-- A sum or a difference. -/
def isSum : Expr → Bool
  | add _ _ | sub _ _ => true
  | _ => false

/-- A product or a quotient. -/
def isProduct : Expr → Bool
  | mul _ _ | div _ _ => true
  | _ => false

/-- A literal. -/
def isNumber : Expr → Bool
  | number _ => true
  | _ => false

/-- Every literal is an integer, no sign stands before a literal, and no sum or product has its like
for its right operand. -/
def IsCanonical : Expr → Prop
  | number q => q.den = 1
  | var _ => True
  | add l r => l.IsCanonical ∧ r.IsCanonical ∧ r.isSum = false
  | mul l r => l.IsCanonical ∧ r.IsCanonical ∧ r.isProduct = false
  | sub l r | div l r | pow l r => l.IsCanonical ∧ r.IsCanonical
  | neg e => e.IsCanonical ∧ e.isNumber = false

instance decidableIsCanonical : (e : Expr) → Decidable e.IsCanonical
  | number q => inferInstanceAs (Decidable (q.den = 1))
  | var _ => inferInstanceAs (Decidable True)
  | add l r =>
      have := decidableIsCanonical l
      have := decidableIsCanonical r
      inferInstanceAs (Decidable (l.IsCanonical ∧ r.IsCanonical ∧ r.isSum = false))
  | mul l r =>
      have := decidableIsCanonical l
      have := decidableIsCanonical r
      inferInstanceAs (Decidable (l.IsCanonical ∧ r.IsCanonical ∧ r.isProduct = false))
  | sub l r | div l r | pow l r =>
      have := decidableIsCanonical l
      have := decidableIsCanonical r
      inferInstanceAs (Decidable (l.IsCanonical ∧ r.IsCanonical))
  | neg e =>
      have := decidableIsCanonical e
      inferInstanceAs (Decidable (e.IsCanonical ∧ e.isNumber = false))

/-! ## Canonical trees stay -/

theorem joinSum_of_not_isSum (ht : t.isSum = false) : joinSum acc t = add acc t := by
  cases t with
  | add | sub => simp [isSum] at ht
  | number | var | mul | div | pow | neg => rfl

theorem joinProduct_of_not_isProduct (ht : t.isProduct = false) :
    joinProduct acc t = mul acc t := by
  cases t with
  | mul | div => simp [isProduct] at ht
  | number | var | add | sub | pow | neg => rfl

theorem negate_of_not_isNumber (ht : t.isNumber = false) : negate t = neg t := by
  cases t with
  | number => simp [isNumber] at ht
  | var | add | sub | mul | div | pow | neg => rfl

theorem IsCanonical.reread (hcanonical : e.IsCanonical) : e.reread = e := by
  induction e with
  | number q => simp [Expr.reread, rereadNumber, show q.den = 1 from hcanonical]
  | var name => rfl
  | add l r ihl ihr =>
      obtain ⟨hl, hr, hsum⟩ := hcanonical
      rw [Expr.reread, ihl hl, ihr hr, joinSum_of_not_isSum hsum]
  | mul l r ihl ihr =>
      obtain ⟨hl, hr, hproduct⟩ := hcanonical
      rw [Expr.reread, ihl hl, ihr hr, joinProduct_of_not_isProduct hproduct, ite_self]
  | sub l r ihl ihr | div l r ihl ihr | pow l r ihl ihr =>
      rw [Expr.reread, ihl hcanonical.1, ihr hcanonical.2]
  | neg e ih => rw [Expr.reread, ih hcanonical.1, negate_of_not_isNumber hcanonical.2]

/-! ## Other trees change -/

/-- The number of additions and multiplications in an expression. -/
def joins : Expr → ℕ
  | number _ | var _ => 0
  | add l r | mul l r => l.joins + r.joins + 1
  | sub l r | div l r | pow l r => l.joins + r.joins
  | neg e => e.joins

attribute [local simp] joins

theorem joins_joinSum : (joinSum acc t).joins = acc.joins + t.joins + 1 := by
  induction t with
  | add l r ihl _ | sub l r ihl _ =>
      simp only [joinSum, joins, ihl]
      omega
  | number | var | mul | div | pow | neg => rfl

theorem joins_joinProduct : (joinProduct acc t).joins = acc.joins + t.joins + 1 := by
  induction t with
  | mul l r ihl _ | div l r ihl _ =>
      simp only [joinProduct, joins, ihl]
      omega
  | number | var | add | sub | pow | neg => rfl

theorem joins_negate : (negate t).joins = t.joins := by
  cases t <;> rfl

/-- Reading back keeps the number of additions and multiplications. -/
theorem joins_reread : e.reread.joins = e.joins := by
  induction e with
  | number q =>
      unfold reread rereadNumber
      split
      · rfl
      · rfl
  | var name => rfl
  | add l r ihl ihr => rw [reread, joins_joinSum, ihl, ihr, joins]
  | mul l r ihl ihr =>
      unfold reread
      split
      · rw [joins, ihl, ihr, joins]
      · rw [joins_joinProduct, ihl, ihr, joins]
  | sub l r ihl ihr | div l r ihl ihr | pow l r ihl ihr => rw [reread, joins, ihl, ihr, joins]
  | neg e ih => rw [reread, joins_negate, ih, joins]

theorem eq_of_joinSum_eq_add (hjoins : t.joins = r.joins) (heq : joinSum acc t = add l r) :
    acc = l ∧ t = r ∧ r.isSum = false := by
  cases t with
  | add a b =>
      -- the right operand would be a proper part of what it is read as
      obtain ⟨-, rfl⟩ := add.inj heq
      simp only [joins] at hjoins
      omega
  | sub a b => exact absurd heq (by simp [joinSum])
  | number | var | mul | div | pow | neg =>
      obtain ⟨rfl, rfl⟩ := add.inj heq
      exact ⟨rfl, rfl, rfl⟩

theorem eq_of_joinProduct_eq_mul (hjoins : t.joins = r.joins) (heq : joinProduct acc t = mul l r) :
    acc = l ∧ t = r ∧ r.isProduct = false := by
  cases t with
  | mul a b =>
      obtain ⟨-, rfl⟩ := mul.inj heq
      simp only [joins] at hjoins
      omega
  | div a b => exact absurd heq (by simp [joinProduct])
  | number | var | add | sub | pow | neg =>
      obtain ⟨rfl, rfl⟩ := mul.inj heq
      exact ⟨rfl, rfl, rfl⟩

theorem eq_of_negate_eq_neg (heq : negate t = neg e) : t = e ∧ e.isNumber = false := by
  cases t with
  | number q => exact absurd heq (by simp [negate])
  | var | add | sub | mul | div | pow | neg =>
      obtain rfl := neg.inj heq
      exact ⟨rfl, rfl⟩

/-- What stands in parentheses as the right operand of a product is not a product itself. -/
theorem not_isProduct_of_parenthesized
    (hwanted : (decide (r.strength < 2) || r.isSigned) = true) : r.isProduct = false := by
  cases r with
  | mul | div => simp [strength, isSigned] at hwanted
  | number | var | add | sub | pow | neg => rfl

theorem isCanonical_of_reread (hsame : e.reread = e) : e.IsCanonical := by
  induction e with
  | number q =>
      unfold reread rereadNumber at hsame
      split at hsame
      · next hden => exact hden
      · exact absurd hsame (by simp)
  | var name => exact trivial
  | add l r ihl ihr =>
      obtain ⟨hl, hr, hsum⟩ := eq_of_joinSum_eq_add joins_reread hsame
      exact ⟨ihl hl, ihr hr, hsum⟩
  | mul l r ihl ihr =>
      unfold reread at hsame
      split at hsame
      · next hwanted =>
          obtain ⟨hl, hr⟩ := mul.inj hsame
          exact ⟨ihl hl, ihr hr, not_isProduct_of_parenthesized hwanted⟩
      · obtain ⟨hl, hr, hproduct⟩ := eq_of_joinProduct_eq_mul joins_reread hsame
        exact ⟨ihl hl, ihr hr, hproduct⟩
  | sub l r ihl ihr =>
      obtain ⟨hl, hr⟩ := sub.inj hsame
      exact ⟨ihl hl, ihr hr⟩
  | div l r ihl ihr =>
      obtain ⟨hl, hr⟩ := div.inj hsame
      exact ⟨ihl hl, ihr hr⟩
  | pow l r ihl ihr =>
      obtain ⟨hl, hr⟩ := pow.inj hsame
      exact ⟨ihl hl, ihr hr⟩
  | neg e ih =>
      obtain ⟨he, hnumber⟩ := eq_of_negate_eq_neg hsame
      exact ⟨ih he, hnumber⟩

theorem reread_eq_self_iff : e.reread = e ↔ e.IsCanonical :=
  ⟨isCanonical_of_reread, IsCanonical.reread⟩

/-! ## Whole texts -/

/-- Exactly the canonical expressions are read back as they were.  For every expression whose
variables are names and whose text is neither too long nor nested too deeply, the text is read as
the very same tree if and only if the expression is canonical. -/
theorem parse_text_eq_self_iff (e : Expr) (hnames : ∀ name ∈ e.variableNames, IsName name.toList)
    (hlength : e.text.length ≤ maxLength)
    (hnesting : nestsWithin maxNesting 0 e.text.toList = true) :
    parse e.text = .ok e ↔ e.IsCanonical := by
  have hmentioned : ∀ name, e.mentions name = true → IsName name.toList :=
    fun name hmentions => hnames name (mem_variableNames.mpr hmentions)
  rw [parse_text hmentioned hlength hnesting, Except.ok.injEq, reread_eq_self_iff]

/-- The text `-2 * (-x) - (y + (-3))` is read as the tree it was printed from. -/
theorem parse_text_eq_self_signed_operands :
    (∀ name ∈ (sub (mul (number (-2)) (neg (var "x")))
        (add (var "y") (number (-3)))).variableNames, IsName name.toList) ∧
      (sub (mul (number (-2)) (neg (var "x"))) (add (var "y") (number (-3)))).text.length ≤
        maxLength ∧
      nestsWithin maxNesting 0
        (sub (mul (number (-2)) (neg (var "x"))) (add (var "y") (number (-3)))).text.toList =
          true ∧
      parse (sub (mul (number (-2)) (neg (var "x"))) (add (var "y") (number (-3)))).text =
        .ok (sub (mul (number (-2)) (neg (var "x"))) (add (var "y") (number (-3)))) :=
  ⟨by decide +kernel, by decide +kernel, by decide +kernel,
    (parse_text_eq_self_iff _ (by decide +kernel) (by decide +kernel) (by decide +kernel)).mpr
      (by decide +kernel)⟩

end Expr

end EquationPractice
