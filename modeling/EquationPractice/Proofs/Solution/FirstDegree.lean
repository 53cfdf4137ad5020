import EquationPractice.Proofs.Evaluation.Constants

/-!
# What the solver never refuses

The reduction and the evaluation of constants are written independently of each other.  This file
holds them against each other where no variable occurs, and says of which trees with the unknown the
reduction is certain to succeed: those that are of first degree by the way they are built.

## Strategy

The reduction looks at values and not at trees, so a part without variables is to it the constant
that the evaluator gives.  Both give up on the same parts, although they look at divisors, exponents
and bases in different orders.  In a tree that is of first degree by construction, every product and
every quotient then has a factor or divisor in which the unknown has dropped out.

## Main definitions

* `Expr.FirstDegree`: trees that are of first degree by construction.
-/

namespace EquationPractice

namespace Expr

/-- The trees of first degree by construction: the unknown, constants that have a value, sums,
differences and opposites of such trees, their products with a constant, and their quotients by a
constant that is not zero.  What has a value mentions no variable. -/
inductive FirstDegree (unknownName : String) : Expr → Prop
  | unknown : FirstDegree unknownName (.var unknownName)
  | constant {c : Expr} {q : ℚ} (hvalue : c.value? = some q) : FirstDegree unknownName c
  | add {l r : Expr} (hleft : FirstDegree unknownName l) (hright : FirstDegree unknownName r) :
      FirstDegree unknownName (.add l r)
  | sub {l r : Expr} (hleft : FirstDegree unknownName l) (hright : FirstDegree unknownName r) :
      FirstDegree unknownName (.sub l r)
  | neg {e : Expr} (hinner : FirstDegree unknownName e) : FirstDegree unknownName (.neg e)
  | scaled {c e : Expr} {q : ℚ} (hvalue : c.value? = some q) (hfactor : FirstDegree unknownName e) :
      FirstDegree unknownName (.mul c e)
  | timed {c e : Expr} {q : ℚ} (hfactor : FirstDegree unknownName e) (hvalue : c.value? = some q) :
      FirstDegree unknownName (.mul e c)
  | div {c e : Expr} {q : ℚ} (hdividend : FirstDegree unknownName e) (hvalue : c.value? = some q)
      (hne : q ≠ 0) : FirstDegree unknownName (.div e c)

end Expr

namespace LinearForm

open EquationPractice.Expr

/-! ## Constant forms -/

section Constants

variable (a b : ℚ)

@[simp] theorem isConstant_ofConstant : (ofConstant a).isConstant = true := by
  simp [isConstant, ofConstant]

@[simp] theorem constant_ofConstant : (ofConstant a).constant = a := rfl

@[simp] theorem ofConstant_add_ofConstant : ofConstant a + ofConstant b = ofConstant (a + b) := by
  change LinearForm.mk (0 + 0) (a + b) = LinearForm.mk 0 (a + b)
  rw [add_zero]

@[simp] theorem ofConstant_sub_ofConstant : ofConstant a - ofConstant b = ofConstant (a - b) := by
  change LinearForm.mk (0 - 0) (a - b) = LinearForm.mk 0 (a - b)
  rw [sub_zero]

@[simp] theorem neg_ofConstant : -ofConstant a = ofConstant (-a) := by
  change LinearForm.mk (-0) (-a) = LinearForm.mk 0 (-a)
  rw [neg_zero]

@[simp] theorem scale_ofConstant : (ofConstant a).scale b = ofConstant (a * b) := by
  simp [scale, ofConstant]

@[simp] theorem ofConstant_mul? (g : LinearForm) : (ofConstant a).mul? g = some (g.scale a) := by
  simp [mul?]

@[simp] theorem ofConstant_pow? : (ofConstant a).pow? b = (exactPow? a b).map ofConstant := by
  simp [pow?]

/-- Any form can be multiplied by a constant, which may also stand behind it. -/
theorem exists_mul?_ofConstant (f : LinearForm) :
    ∃ product, f.mul? (ofConstant a) = some product := by
  unfold mul?
  split
  · exact ⟨_, rfl⟩
  · exact ⟨f.scale a, by simp⟩

end Constants

/-! ## Reduction and evaluation -/

section Reduction

variable {unknownName : String} {form : LinearForm} {e : Expr} {q : ℚ}

/-- Where no variable occurs, the reduction succeeds if and only if the evaluator does, with the
constant that it gives. -/
theorem ofExpr_eq_ok_iff_value? (hfree : ∀ name, e.mentions name = false) :
    ofExpr unknownName e = .ok form ↔ ∃ q, e.value? = some q ∧ ofConstant q = form := by
  induction e generalizing form with
  | number q => simp [ofExpr, value?]
  | var name => simp [mentions] at hfree
  | add l r ihl ihr =>
      simp only [mentions, Bool.or_eq_false_iff, forall_and] at hfree
      simp [ofExpr_add_eq_ok, ihl hfree.1, ihr hfree.2, value?_add_eq_some]
  | sub l r ihl ihr =>
      simp only [mentions, Bool.or_eq_false_iff, forall_and] at hfree
      simp [ofExpr_sub_eq_ok, ihl hfree.1, ihr hfree.2, value?_sub_eq_some]
  | mul l r ihl ihr =>
      simp only [mentions, Bool.or_eq_false_iff, forall_and] at hfree
      simp [ofExpr_mul_eq_ok, ihl hfree.1, ihr hfree.2, value?_mul_eq_some, mul_comm]
  | div l r ihl ihr =>
      simp only [mentions, Bool.or_eq_false_iff, forall_and] at hfree
      simp only [ofExpr_div_eq_ok, ihl hfree.1, ihr hfree.2, value?_div_eq_some]
      constructor
      · rintro ⟨_, ⟨d, hd, rfl⟩, -, hne, _, ⟨a, ha, rfl⟩, rfl⟩
        exact ⟨a / d, ⟨d, hd, hne, a, ha, rfl⟩, by simp [div_eq_mul_inv]⟩
      · rintro ⟨_, ⟨d, hd, hne, a, ha, rfl⟩, rfl⟩
        exact ⟨_, ⟨d, hd, rfl⟩, isConstant_ofConstant d, hne, _, ⟨a, ha, rfl⟩,
          by simp [div_eq_mul_inv]⟩
  | pow b x ihb ihx =>
      simp only [mentions, Bool.or_eq_false_iff, forall_and] at hfree
      simp only [ofExpr_pow_eq_ok, ihb hfree.1, ihx hfree.2, value?_pow_eq_some]
      constructor
      · rintro ⟨_, ⟨k, hk, rfl⟩, -, -, _, ⟨a, ha, rfl⟩, hpower⟩
        obtain ⟨q, hq, hform⟩ := Option.map_eq_some_iff.mp (ofConstant_pow? a k ▸ hpower)
        exact ⟨q, ⟨k, hk, a, ha, hq⟩, hform⟩
      · rintro ⟨q, ⟨k, hk, a, ha, hq⟩, rfl⟩
        -- the evaluator takes integers only as exponents, as the reduction does
        have hden : k.den = 1 := by
          by_contra hden
          simp [exactPow?, hden] at hq
        exact ⟨_, ⟨k, hk, rfl⟩, isConstant_ofConstant k, hden, _, ⟨a, ha, rfl⟩,
          by simp [hq]⟩
  | neg e ih => simp [ofExpr_neg_eq_ok, ih hfree, value?_neg_eq_some]

theorem ofExpr_of_value? (hvalue : e.value? = some q) :
    ofExpr unknownName e = .ok (ofConstant q) :=
  (ofExpr_eq_ok_iff_value? (not_mentions_of_value? hvalue)).mpr ⟨q, hvalue, rfl⟩

/-- No tree of first degree by construction is refused. -/
theorem exists_ofExpr_of_firstDegree (hdegree : e.FirstDegree unknownName) :
    ∃ form, ofExpr unknownName e = .ok form := by
  induction hdegree with
  | unknown => exact ⟨LinearForm.unknown, by simp [ofExpr]⟩
  | constant hvalue => exact ⟨_, ofExpr_of_value? hvalue⟩
  | add _ _ ihl ihr =>
      obtain ⟨f, hf⟩ := ihl
      obtain ⟨g, hg⟩ := ihr
      exact ⟨f + g, ofExpr_add_eq_ok.mpr ⟨f, hf, g, hg, rfl⟩⟩
  | sub _ _ ihl ihr =>
      obtain ⟨f, hf⟩ := ihl
      obtain ⟨g, hg⟩ := ihr
      exact ⟨f - g, ofExpr_sub_eq_ok.mpr ⟨f, hf, g, hg, rfl⟩⟩
  | neg _ ih =>
      obtain ⟨f, hf⟩ := ih
      exact ⟨-f, ofExpr_neg_eq_ok.mpr ⟨f, hf, rfl⟩⟩
  | scaled hvalue _ ih =>
      obtain ⟨f, hf⟩ := ih
      exact ⟨_, ofExpr_mul_eq_ok.mpr ⟨_, ofExpr_of_value? hvalue, f, hf, ofConstant_mul? _ f⟩⟩
  | @timed c e q _ hvalue ih =>
      obtain ⟨f, hf⟩ := ih
      obtain ⟨product, hproduct⟩ := exists_mul?_ofConstant q f
      exact ⟨product, ofExpr_mul_eq_ok.mpr ⟨f, hf, _, ofExpr_of_value? hvalue, hproduct⟩⟩
  | div _ hvalue hne ih =>
      obtain ⟨f, hf⟩ := ih
      exact ⟨_, ofExpr_div_eq_ok.mpr ⟨_, ofExpr_of_value? hvalue, isConstant_ofConstant _, hne, f,
        hf, rfl⟩⟩

end Reduction

/-- **The solver refuses nothing that is of first degree by construction.**  Where no variable
occurs, the reduction succeeds if and only if the evaluator gives a value, and the form then has the
coefficient zero and that value as its constant.  Every tree of first degree by construction is
reduced, so an equation between two of them is solved. -/
theorem ofExpr_complete (unknownName : String) :
    (∀ e : Expr, e.variableNames = [] → ∀ form,
      ofExpr unknownName e = .ok form ↔ ∃ q, e.value? = some q ∧ form = ⟨0, q⟩) ∧
    (∀ e : Expr, e.FirstDegree unknownName → ∃ form, ofExpr unknownName e = .ok form) ∧
    ∀ l r : Expr, l.FirstDegree unknownName → r.FirstDegree unknownName →
      ∃ outcome, Equation.solve ⟨l, .equal, r⟩ unknownName = .ok outcome := by
  refine ⟨?_, fun e hdegree => exists_ofExpr_of_firstDegree hdegree, ?_⟩
  · intro e hnames form
    have hfree : ∀ name, e.mentions name = false := by
      intro name
      rw [Bool.eq_false_iff, Ne, ← mem_variableNames, hnames]
      exact List.not_mem_nil
    rw [ofExpr_eq_ok_iff_value? hfree]
    exact exists_congr fun q => and_congr_right fun _ => eq_comm
  · intro l r hleft hright
    obtain ⟨f, hf⟩ := exists_ofExpr_of_firstDegree hleft
    obtain ⟨g, hg⟩ := exists_ofExpr_of_firstDegree hright
    exact ⟨(f - g).zeros, Equation.solve_eq_ok.mpr ⟨rfl, f, hf, g, hg, rfl⟩⟩

/-- `x * (1/2)^-3 - 2 = -(x / (3 - 5))`: a power of a fraction stands in a factor, and a difference
in a divisor. -/
theorem ofExpr_complete_constant_parts :
    (Expr.pow (.number (1 / 2)) (.number (-3))).variableNames = [] ∧
    ofExpr "x" (.pow (.number (1 / 2)) (.number (-3))) = .ok ⟨0, 8⟩ ∧
    (Expr.sub (.mul (.var "x") (.pow (.number (1 / 2)) (.number (-3)))) (.number 2)).FirstDegree
      "x" ∧
    (Expr.neg (.div (.var "x") (.sub (.number 3) (.number 5)))).FirstDegree "x" ∧
    (∃ form, ofExpr "x" (.neg (.div (.var "x") (.sub (.number 3) (.number 5)))) = .ok form) ∧
    ∃ outcome, Equation.solve ⟨.sub (.mul (.var "x") (.pow (.number (1 / 2)) (.number (-3))))
      (.number 2), .equal, .neg (.div (.var "x") (.sub (.number 3) (.number 5)))⟩ "x" =
        .ok outcome := by
  have hpower : (Expr.pow (.number (1 / 2)) (.number (-3))).value? = some 8 := by decide +kernel
  have hdivisor : (Expr.sub (.number 3) (.number 5)).value? = some (-2) := by decide +kernel
  have hleft : (Expr.sub (.mul (.var "x") (.pow (.number (1 / 2)) (.number (-3))))
      (.number 2)).FirstDegree "x" :=
    .sub (.timed .unknown hpower) (.constant (c := .number 2) (q := 2) rfl)
  have hright : (Expr.neg (.div (.var "x") (.sub (.number 3) (.number 5)))).FirstDegree "x" :=
    .neg (.div .unknown hdivisor (by decide))
  obtain ⟨hconstants, hdegree, hequations⟩ := ofExpr_complete "x"
  exact ⟨rfl, (hconstants _ rfl _).mpr ⟨8, hpower, rfl⟩, hleft, hright, hdegree _ hright,
    hequations _ _ hleft hright⟩

end LinearForm

end EquationPractice
