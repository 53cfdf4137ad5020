import EquationPractice.Expr.Printer
import EquationPractice.Expr.Value
import EquationPractice.Proofs.Reading.Phrases
import Mathlib.Algebra.Order.Field.Rat
import Mathlib.Data.Rat.Lemmas

/-!
# What becomes of an expression that is printed and read

A printed expression is not always read as the same tree.  Sums and products are read from left to
right, the sign of a literal is read into the literal, and a fraction is read as a quotient.
`Expr.reread` is the tree that results.  It mentions the same variables, and it has the same value
whatever numbers are put for them.

## Main definitions

* `Expr.reread`: an expression as it is read from its own text.
* `Expr.assign`: numbers put for the variables.
-/

namespace EquationPractice

open Text

namespace Expr

variable {name : String} {e acc t u : Expr}

/-- A number as it is read from its own text. -/
def rereadNumber (q : ℚ) : Expr :=
  if q.den = 1 then number q else div (number q.num) (number q.den)

/-- An expression as it is read from its own text. -/
def reread : Expr → Expr
  | number q => rereadNumber q
  | var name => var name
  | add l r => joinSum l.reread r.reread
  | sub l r => sub l.reread r.reread
  | mul l r =>
      if r.strength < 2 || r.isSigned then mul l.reread r.reread
      else joinProduct l.reread r.reread
  | div l r => div l.reread r.reread
  | pow b x => pow b.reread x.reread
  | neg e => negate e.reread

/-- Puts numbers for the variables. -/
def assign (assignment : String → ℚ) : Expr → Expr
  | number q => number q
  | var name => number (assignment name)
  | add l r => add (l.assign assignment) (r.assign assignment)
  | sub l r => sub (l.assign assignment) (r.assign assignment)
  | mul l r => mul (l.assign assignment) (r.assign assignment)
  | div l r => div (l.assign assignment) (r.assign assignment)
  | pow b x => pow (b.assign assignment) (x.assign assignment)
  | neg e => neg (e.assign assignment)

/-! ## Variables -/

/-- What holds of every number and of every name, and of an expression whenever it holds of the
operands, holds of all expressions whose variables are names. -/
theorem named_induction {motive : Expr → Prop} (hnumber : ∀ q, motive (number q))
    (hvar : ∀ {name : String}, IsName name.toList → motive (var name))
    (hadd : ∀ {l r}, motive l → motive r → motive (add l r))
    (hsub : ∀ {l r}, motive l → motive r → motive (sub l r))
    (hmul : ∀ {l r}, motive l → motive r → motive (mul l r))
    (hdiv : ∀ {l r}, motive l → motive r → motive (div l r))
    (hpow : ∀ {b x}, motive b → motive x → motive (pow b x))
    (hneg : ∀ {e}, motive e → motive (neg e))
    (hnames : ∀ name, e.mentions name = true → IsName name.toList) : motive e := by
  induction e with
  | number q => exact hnumber q
  | var name => exact hvar (hnames name (by simp [mentions]))
  | add l r ihl ihr =>
      exact hadd (ihl fun name h => hnames name (by simp [mentions, h]))
        (ihr fun name h => hnames name (by simp [mentions, h]))
  | sub l r ihl ihr =>
      exact hsub (ihl fun name h => hnames name (by simp [mentions, h]))
        (ihr fun name h => hnames name (by simp [mentions, h]))
  | mul l r ihl ihr =>
      exact hmul (ihl fun name h => hnames name (by simp [mentions, h]))
        (ihr fun name h => hnames name (by simp [mentions, h]))
  | div l r ihl ihr =>
      exact hdiv (ihl fun name h => hnames name (by simp [mentions, h]))
        (ihr fun name h => hnames name (by simp [mentions, h]))
  | pow b x ihb ihx =>
      exact hpow (ihb fun name h => hnames name (by simp [mentions, h]))
        (ihx fun name h => hnames name (by simp [mentions, h]))
  | neg e ih => exact hneg (ih fun name h => hnames name (by simp [mentions, h]))

@[simp] theorem mentions_joinSum :
    (joinSum acc t).mentions name = (acc.mentions name || t.mentions name) := by
  induction t with
  | add l r ihl _ => simp only [joinSum, mentions, ihl, Bool.or_assoc]
  | sub l r ihl _ => simp only [joinSum, mentions, ihl, Bool.or_assoc]
  | number | var | mul | div | pow | neg => rfl

@[simp] theorem mentions_joinProduct :
    (joinProduct acc t).mentions name = (acc.mentions name || t.mentions name) := by
  induction t with
  | mul l r ihl _ => simp only [joinProduct, mentions, ihl, Bool.or_assoc]
  | div l r ihl _ => simp only [joinProduct, mentions, ihl, Bool.or_assoc]
  | number | var | add | sub | pow | neg => rfl

@[simp] theorem mentions_negate : (negate e).mentions name = e.mentions name := by
  cases e <;> rfl

/-- An expression that was printed and read mentions the same variables. -/
@[simp] theorem mentions_reread : e.reread.mentions name = e.mentions name := by
  induction e with
  | number q =>
      unfold reread rereadNumber
      split
      · rfl
      · rfl
  | var other => rfl
  | add l r ihl ihr => simp [reread, mentions, ihl, ihr]
  | sub l r ihl ihr | div l r ihl ihr | pow l r ihl ihr => simp [reread, mentions, ihl, ihr]
  | mul l r ihl ihr =>
      unfold reread
      split
      · simp [mentions, ihl, ihr]
      · simp [mentions, ihl, ihr]
  | neg e ih => simp [reread, mentions, ih]

/-! ## Values -/

variable {assignment : String → ℚ}

theorem assign_joinSum : (joinSum acc t).assign assignment =
    joinSum (acc.assign assignment) (t.assign assignment) := by
  induction t with
  | add l r ihl _ => simp only [joinSum, assign, ihl]
  | sub l r ihl _ => simp only [joinSum, assign, ihl]
  | number | var | mul | div | pow | neg => rfl

theorem assign_joinProduct : (joinProduct acc t).assign assignment =
    joinProduct (acc.assign assignment) (t.assign assignment) := by
  induction t with
  | mul l r ihl _ => simp only [joinProduct, assign, ihl]
  | div l r ihl _ => simp only [joinProduct, assign, ihl]
  | number | var | add | sub | pow | neg => rfl

/-- Moving the operations of a sum to the left does not change the value. -/
theorem value?_joinSum : (joinSum acc t).value? = (add acc t).value? := by
  induction t with
  | add l r ihl _ =>
      simp only [joinSum, value?, ihl]
      cases acc.value? <;> cases l.value? <;> cases r.value? <;> simp [add_assoc]
  | sub l r ihl _ =>
      simp only [joinSum, value?, ihl]
      cases acc.value? <;> cases l.value? <;> cases r.value? <;> simp [add_sub_assoc]
  | number | var | mul | div | pow | neg => rfl

/-- Moving the operations of a product to the left does not change the value. -/
theorem value?_joinProduct : (joinProduct acc t).value? = (mul acc t).value? := by
  induction t with
  | mul l r ihl _ =>
      simp only [joinProduct, value?, ihl]
      cases acc.value? <;> cases l.value? <;> cases r.value? <;> simp [mul_assoc]
  | div l r ihl _ =>
      simp only [joinProduct, value?, ihl]
      cases hr : r.value? with
      | none => cases acc.value? <;> simp
      | some denominator =>
          by_cases hzero : denominator = 0
          · cases acc.value? <;> simp [hzero]
          · cases acc.value? <;> cases l.value? <;> simp [hzero, mul_div_assoc]
  | number | var | add | sub | pow | neg => rfl

theorem value?_assign_negate :
    ((negate e).assign assignment).value? = ((neg e).assign assignment).value? := by
  cases e <;> rfl

/-- An expression that was printed and read has the value it had, if it had one. -/
theorem value?_assign_reread :
    (e.reread.assign assignment).value? = (e.assign assignment).value? := by
  induction e with
  | number q =>
      unfold reread rereadNumber
      split
      · rfl
      · simp [assign, value?, Rat.num_div_den]
  | var name => rfl
  | add l r ihl ihr => simp only [reread, assign_joinSum, value?_joinSum, assign, value?, ihl, ihr]
  | sub l r ihl ihr | div l r ihl ihr | pow l r ihl ihr =>
      simp only [reread, assign, value?, ihl, ihr]
  | mul l r ihl ihr =>
      unfold reread
      split
      · simp only [assign, value?, ihl, ihr]
      · simp only [assign_joinProduct, value?_joinProduct, assign, value?, ihl, ihr]
  | neg e ih => simp only [reread, value?_assign_negate, assign, value?, ih]

/-! ## The outermost part -/

theorem joinSum_joinProduct : joinSum acc (joinProduct t u) = add acc (joinProduct t u) := by
  cases u <;> rfl

theorem joinProduct_joinSum : joinProduct acc (joinSum t u) = mul acc (joinSum t u) := by
  cases u <;> rfl

theorem joinSum_negate : joinSum acc (negate e) = add acc (negate e) := by
  cases e <;> rfl

theorem joinProduct_negate : joinProduct acc (negate e) = mul acc (negate e) := by
  cases e <;> rfl

theorem two_le_strength_number (q : ℚ) : 2 ≤ (number q).strength := by
  simp only [strength]
  split
  · omega
  · split <;> omega

theorem one_le_strength (e : Expr) : 1 ≤ e.strength := by
  cases e with
  | number q => exact le_trans (by omega) (two_le_strength_number q)
  | var | add | sub | mul | div | pow | neg => simp [strength]

theorem four_le_strength_of_isSigned (hsigned : e.isSigned = true) : 4 ≤ e.strength := by
  cases e with
  | number q =>
      have hneg : q < 0 := by simpa [isSigned] using hsigned
      simp [strength, hneg]
  | neg e => simp [strength]
  | var | add | sub | mul | div | pow => simp [isSigned] at hsigned

/-- What binds more strongly than a sign shows none of its own. -/
theorem isSigned_of_four_lt_strength (hstrength : 4 < e.strength) : e.isSigned = false := by
  cases e with
  | number q =>
      by_contra hsigned
      simp_all [strength, isSigned]
  | neg e => simp [strength] at hstrength
  | var | add | sub | mul | div | pow => rfl

/-- What binds at least as strongly as a product is not read as a sum. -/
theorem joinSum_reread (hstrength : 2 ≤ e.strength) : joinSum acc e.reread = add acc e.reread := by
  cases e with
  | number q =>
      unfold reread rereadNumber
      split
      · rfl
      · rfl
  | add l r | sub l r => simp [strength] at hstrength
  | mul l r =>
      unfold reread
      split
      · rfl
      · exact joinSum_joinProduct
  | neg e => exact joinSum_negate
  | var | div | pow => rfl

/-- What binds less strongly than a product is not read as one. -/
theorem joinProduct_reread (hstrength : e.strength < 2) :
    joinProduct acc e.reread = mul acc e.reread := by
  cases e with
  | number q => exact absurd hstrength (not_lt.mpr (two_le_strength_number q))
  | add l r => exact joinProduct_joinSum
  | sub l r => rfl
  | var | mul | div | pow | neg => simp [strength] at hstrength

end Expr

end EquationPractice
