import EquationPractice.Exercise.Question
import EquationPractice.Proofs.Reading.Literals
import EquationPractice.Proofs.Solution.LinearSolver

/-!
# The text of a question

Terms are written out, read back as expressions and solved.  Whatever the terms are, the text of a
question that is not too long is read as an equation, and the outcome admits exactly the numbers at
which the terms of the two sides have the same sum.

## Strategy

A negative term behind another one is not read as a signed literal but as a difference with the term
without its sign.  So the expression that a side is read as is built from the left by
`Wording.addTo`, in the way in which the reader builds it.  What is said about sides holds for every
way of writing terms, as long as single terms are read and reduced as they should be.

## Main definitions

* `Term.valueAt`, `Question.HoldsAt`: what the terms say about a number put for the unknown.
* `LinearForm.Reduces`: an expression reduces to a form with given values.
* `Wording`: a way of writing terms, and `Wording.sideExpr`: the expression that a side is read as.
-/

namespace EquationPractice

open Text

/-- The value of a term at a number put for the unknown. -/
def Term.valueAt (v : ℚ) (term : Term) : ℚ :=
  if term.ofUnknown then term.coefficient * v else term.coefficient

/-- The equation that the terms write holds at a number: the two sides have the same sum. -/
def Question.HoldsAt (question : Question) (v : ℚ) : Prop :=
  (question.left.map (Term.valueAt v)).sum = (question.right.map (Term.valueAt v)).sum

theorem Question.holdsAt_linear {question : Question} {a b : ℤ}
    (hquestion : question = ⟨[⟨a, true⟩, ⟨b, false⟩], []⟩) (v : ℚ) :
    question.HoldsAt v ↔ a * v + b = 0 := by
  simp [hquestion, Question.HoldsAt, Term.valueAt]

/-- Where the constant is a multiple of the coefficient, the root is an integer. -/
theorem Question.holdsAt_multiple {question : Question} {a n : ℤ} (ha : a ≠ 0)
    (hquestion : question = ⟨[⟨a, true⟩, ⟨-n * a, false⟩], []⟩) (v : ℚ) :
    question.HoldsAt v ↔ v = n := by
  have hfactor : (a : ℚ) * v + ((-n * a : ℤ) : ℚ) = a * (v - n) := by
    push_cast
    ring
  rw [Question.holdsAt_linear hquestion, hfactor, mul_eq_zero, sub_eq_zero]
  exact or_iff_right (Int.cast_ne_zero.mpr ha)

/-! ## Signs and magnitudes -/

/-- A term without its sign. -/
def Term.magnitude (term : Term) : Term :=
  ⟨term.coefficient.natAbs, term.ofUnknown⟩

theorem intChars_natCast (n : Nat) : intChars n = natChars n := by
  rw [intChars, if_neg (by omega), Int.natAbs_natCast]

theorem intChars_of_neg {n : Int} (hneg : n < 0) : intChars n = '-' :: intChars n.natAbs := by
  rw [intChars_natCast, intChars, if_pos hneg]

namespace Term

variable {term : Term} {name : List Char}

theorem chars_of_neg (hneg : term.coefficient < 0) :
    term.chars name = '-' :: term.magnitude.chars name := by
  unfold Term.chars
  rw [intChars_of_neg hneg]
  split
  · next hunknown => simp [magnitude, hunknown]
  · next hconstant => simp [magnitude, hconstant]

theorem magnitude_of_nonneg (hnonneg : ¬term.coefficient < 0) : term.magnitude = term := by
  simp only [magnitude, Int.natAbs_of_nonneg (not_lt.mp hnonneg)]

theorem chars_of_nonneg (hnonneg : ¬term.coefficient < 0) :
    term.chars name = term.magnitude.chars name := by
  rw [magnitude_of_nonneg hnonneg]

theorem valueAt_of_neg (hneg : term.coefficient < 0) (v : ℚ) :
    term.valueAt v = -term.magnitude.valueAt v := by
  have hvalue : ((term.coefficient.natAbs : ℤ) : ℚ) = -term.coefficient := by
    rw [Int.ofNat_natAbs_of_nonpos (le_of_lt hneg)]
    simp
  unfold valueAt magnitude
  rw [hvalue]
  split
  · ring
  · ring

end Term

/-! ## Reading -/

/-- The expression that a term is read as. -/
def Term.expr (name : List Char) (term : Term) : Expr :=
  if term.ofUnknown then .mul (.number term.coefficient) (.var (String.ofList name))
  else .number term.coefficient

section Reading

variable {inner : Reader Expr} {name : List Char}

theorem Term.spells (hname : IsName name) (t : Term) :
    Spells (term inner) productOperators (t.chars name) (t.expr name) := by
  have hliteral : SpellsProduct inner (intChars t.coefficient) (.number t.coefficient) :=
    SpellsProduct.of_signed (spells_intChars _) fun _ => rfl
  unfold Term.chars Term.expr
  split
  · have hunknown : SpellsAtom inner name _ := SpellsAtom.name hname
    exact (hliteral.mul (spellsOperator_plain (by decide) (by decide)) hunknown.tower.signed).term
  · exact hliteral.term

theorem Term.joinSum_expr (acc : Expr) (t : Term) :
    joinSum acc (t.expr name) = .add acc (t.expr name) := by
  unfold Term.expr
  split <;> rfl

end Reading

/-! ## Reducing -/

namespace LinearForm

/-- The expression is reduced to a form with these values. -/
def Reduces (unknownName : String) (e : Expr) (value : ℚ → ℚ) : Prop :=
  ∃ form, ofExpr unknownName e = .ok form ∧ ∀ v, form.valueAt v = value v

variable {unknownName : String} {l r : Expr} {f g : ℚ → ℚ}

theorem Reduces.add (hl : Reduces unknownName l f) (hr : Reduces unknownName r g) :
    Reduces unknownName (.add l r) fun v => f v + g v := by
  obtain ⟨left, hleft, hf⟩ := hl
  obtain ⟨right, hright, hg⟩ := hr
  exact ⟨_, ofExpr_add_eq_ok.mpr ⟨left, hleft, right, hright, rfl⟩, fun v => by
    rw [valueAt_add, hf, hg]⟩

theorem Reduces.sub (hl : Reduces unknownName l f) (hr : Reduces unknownName r g) :
    Reduces unknownName (.sub l r) fun v => f v - g v := by
  obtain ⟨left, hleft, hf⟩ := hl
  obtain ⟨right, hright, hg⟩ := hr
  exact ⟨_, ofExpr_sub_eq_ok.mpr ⟨left, hleft, right, hright, rfl⟩, fun v => by
    rw [valueAt_sub, hf, hg]⟩

variable {name : List Char}

theorem reduces_term (t : Term) :
    Reduces (String.ofList name) (t.expr name) fun v => t.valueAt v := by
  unfold Term.expr Term.valueAt
  split
  · have hmul : (ofConstant t.coefficient).mul? unknown = some (unknown.scale t.coefficient) := rfl
    refine ⟨_, ofExpr_mul_eq_ok.mpr ⟨_, rfl, _, if_pos rfl, hmul⟩, fun v => ?_⟩
    rw [valueAt_scale, valueAt_unknown, mul_comm]
  · exact ⟨_, rfl, fun v => valueAt_ofConstant _ v⟩

end LinearForm

/-! ## Wordings -/

/-- A way of writing terms, and what the terms are read as when they are written that way.  A
negative term is written with a minus sign in front of its magnitude, and no term is read as a
sum. -/
structure Wording (name : List Char) where
  chars : Term → List Char
  expr : Term → Expr
  spells : ∀ inner t, Spells (term inner) productOperators (chars t) (expr t)
  joinSum_expr : ∀ acc t, joinSum acc (expr t) = .add acc (expr t)
  chars_of_neg : ∀ t, t.coefficient < 0 → chars t = '-' :: chars t.magnitude
  reduces : ∀ t, LinearForm.Reduces (String.ofList name) (expr t) fun v => t.valueAt v

namespace Wording

variable {name : List Char} (wording : Wording name) {inner : Reader Expr} {cs : List Char}
  {acc : Expr} {f : ℚ → ℚ}

/-- A term as it is written after another one. -/
def laterChars (t : Term) : List Char :=
  if t.coefficient < 0 then wording.chars t else '+' :: wording.chars t

/-- A side as it is written. -/
def sideChars : List Term → List Char
  | [] => ['0']
  | first :: rest => wording.chars first ++ rest.flatMap wording.laterChars

/-- A question as it is written. -/
def questionChars (question : Question) : List Char :=
  wording.sideChars question.left ++ '=' :: wording.sideChars question.right

/-- The expression that a sum becomes when a term is read on behind it. -/
def addTo (acc : Expr) (t : Term) : Expr :=
  if t.coefficient < 0 then .sub acc (wording.expr t.magnitude) else .add acc (wording.expr t)

/-- The expression that a side is read as. -/
def sideExpr : List Term → Expr
  | [] => .number 0
  | first :: rest => rest.foldl wording.addTo (wording.expr first)

theorem spellsSum_addTo (hacc : SpellsSum inner cs acc) (t : Term) :
    SpellsSum inner (cs ++ wording.laterChars t) (wording.addTo acc t) := by
  unfold laterChars addTo
  split
  · next hneg =>
      rw [wording.chars_of_neg t hneg]
      exact hacc.sub (spellsOperator_plain (by decide) (by decide)) (wording.spells inner _)
  · exact hacc.add (spellsOperator_plain (by decide) (by decide)) (wording.spells inner _)

/-- A side is read as its expression. -/
theorem spellsSum_side (terms : List Term) :
    SpellsSum inner (wording.sideChars terms) (wording.sideExpr terms) := by
  cases terms with
  | nil =>
      have hzero : SpellsProduct inner ['0'] (.number 0) :=
        SpellsProduct.of_signed (spells_intChars 0) fun _ => rfl
      exact SpellsSum.of_term hzero.term fun _ => rfl
  | cons first rest =>
      have hfirst : SpellsSum inner (wording.chars first) (wording.expr first) :=
        SpellsSum.of_term (wording.spells inner first) fun acc => wording.joinSum_expr acc first
      -- the terms behind the first one extend any sum
      have hlater : ∀ cs acc, SpellsSum inner cs acc →
          SpellsSum inner (cs ++ rest.flatMap wording.laterChars)
            (rest.foldl wording.addTo acc) := by
        induction rest with
        | nil =>
            intro cs acc hacc
            simpa using hacc
        | cons next rest ih =>
            intro cs acc hacc
            have hnext := ih _ _ (wording.spellsSum_addTo hacc next)
            rwa [List.append_assoc] at hnext
      exact hlater _ _ hfirst

theorem reduces_addTo (hacc : LinearForm.Reduces (String.ofList name) acc f) (t : Term) :
    LinearForm.Reduces (String.ofList name) (wording.addTo acc t)
      fun v => f v + t.valueAt v := by
  unfold addTo
  split
  · next hneg =>
      simp only [Term.valueAt_of_neg hneg, ← sub_eq_add_neg]
      exact hacc.sub (wording.reduces _)
  · exact hacc.add (wording.reduces t)

/-- A side is reduced to the sum of its terms. -/
theorem reduces_side (terms : List Term) :
    LinearForm.Reduces (String.ofList name) (wording.sideExpr terms)
      fun v => (terms.map (Term.valueAt v)).sum := by
  cases terms with
  | nil => exact ⟨_, rfl, fun v => LinearForm.valueAt_ofConstant 0 v⟩
  | cons first rest =>
      -- the terms behind the first one add their values to any sum
      have hlater : ∀ acc f, LinearForm.Reduces (String.ofList name) acc f →
          LinearForm.Reduces (String.ofList name) (rest.foldl wording.addTo acc)
            fun v => f v + (rest.map (Term.valueAt v)).sum := by
        induction rest with
        | nil =>
            intro acc f hacc
            simpa using hacc
        | cons next rest ih =>
            intro acc f hacc
            have hnext := ih _ _ (wording.reduces_addTo hacc next)
            simpa [add_assoc] using hnext
      exact hlater _ _ (wording.reduces first)

/-- However its terms are written, a question that is let in is read and solved as they say. -/
theorem solve_questionChars (question : Question)
    (hcheck : checkText (wording.questionChars question) = .ok ()) :
    ∃ equation outcome, parseEquationChars (wording.questionChars question) = .ok equation ∧
      equation.solve (String.ofList name) = .ok outcome ∧
      ∀ v, outcome.admits v ↔ question.HoldsAt v := by
  obtain ⟨left, hleft, hleftValue⟩ := wording.reduces_side question.left
  obtain ⟨right, hright, hrightValue⟩ := wording.reduces_side question.right
  have hread := parseEquationChars_of_sums hcheck (wording.spellsSum_side question.left)
    (wording.spellsSum_side question.right)
  refine ⟨_, (left - right).zeros, hread,
    Equation.solve_eq_ok.mpr ⟨rfl, left, hleft, right, hright, rfl⟩, fun v => ?_⟩
  rw [LinearForm.zeros_admits, LinearForm.valueAt_sub, hleftValue, hrightValue, sub_eq_zero]
  exact Iff.rfl

/-- The wording in which a question is asked: with a star between coefficient and name. -/
def starred (hname : IsName name) : Wording name where
  chars := Term.chars name
  expr := Term.expr name
  spells := fun _ => Term.spells hname
  joinSum_expr := Term.joinSum_expr
  chars_of_neg := fun _ => Term.chars_of_neg
  reduces := LinearForm.reduces_term

theorem questionChars_starred (hname : IsName name) (question : Question) :
    (starred hname).questionChars question = question.chars name := by
  have hside : ∀ terms, (starred hname).sideChars terms = EquationPractice.sideChars name terms := by
    intro terms
    cases terms <;> rfl
  rw [questionChars, hside, hside, Question.chars]

end Wording

/-! ## Letting in -/

section LettingIn

variable {name : List Char}

/-- The characters of a term without its sign. -/
theorem Term.mem_magnitude (hname : IsName name) {t : Term} {c : Char}
    (hc : c ∈ t.magnitude.chars name) : c = '*' ∨ continuesName c = true := by
  simp only [Term.chars, Term.magnitude, intChars_natCast] at hc
  split at hc
  · rcases List.mem_append.mp hc with hdigit | hmem
    · exact Or.inr (continuesName_of_isDigit (isDigit_of_mem_natChars c hdigit))
    · rcases List.mem_cons.mp hmem with hstar | hmem
      · exact Or.inl hstar
      · exact Or.inr (hname.continuesName c hmem)
  · exact Or.inr (continuesName_of_isDigit (isDigit_of_mem_natChars c hc))

/-- The characters of a term. -/
theorem Term.mem_chars (hname : IsName name) {t : Term} {c : Char} (hc : c ∈ t.chars name) :
    c = '-' ∨ c = '*' ∨ continuesName c = true := by
  by_cases hneg : t.coefficient < 0
  · rw [Term.chars_of_neg hneg] at hc
    rcases List.mem_cons.mp hc with hminus | hmem
    · exact Or.inl hminus
    · exact Or.inr (Term.mem_magnitude hname hmem)
  · rw [Term.chars_of_nonneg hneg] at hc
    exact Or.inr (Term.mem_magnitude hname hc)

/-- The characters of a side. -/
theorem mem_sideChars (hname : IsName name) {terms : List Term} {c : Char}
    (hc : c ∈ sideChars name terms) :
    c = '+' ∨ c = '-' ∨ c = '*' ∨ continuesName c = true := by
  cases terms with
  | nil =>
      obtain rfl := List.mem_singleton.mp hc
      decide
  | cons first rest =>
      rcases List.mem_append.mp hc with hmem | hmem
      · exact Or.inr (Term.mem_chars hname hmem)
      · obtain ⟨next, -, hmem⟩ := List.mem_flatMap.mp hmem
        unfold Term.laterChars at hmem
        split at hmem
        · exact Or.inr (Term.mem_chars hname hmem)
        · rcases List.mem_cons.mp hmem with hplus | hmem
          · exact Or.inl hplus
          · exact Or.inr (Term.mem_chars hname hmem)

/-- No parenthesis stands in a side. -/
theorem plain_of_mem_side (hname : IsName name) {terms : List Term} :
    ∀ c ∈ sideChars name terms, c ≠ '(' ∧ c ≠ ')' := by
  intro c hc
  rcases mem_sideChars hname hc with rfl | rfl | rfl | hword
  · decide
  · decide
  · decide
  · constructor
    · rintro rfl
      exact absurd hword (by decide)
    · rintro rfl
      exact absurd hword (by decide)

theorem Question.plain_of_mem (hname : IsName name) {question : Question} :
    ∀ c ∈ question.chars name, c ≠ '(' ∧ c ≠ ')' := by
  intro c hc
  rcases List.mem_append.mp hc with hmem | hmem
  · exact plain_of_mem_side hname c hmem
  · rcases List.mem_cons.mp hmem with rfl | hmem
    · decide
    · exact plain_of_mem_side hname c hmem

/-- The text of a question that is not too long is let in. -/
theorem Question.checkText_chars (hname : IsName name) {question : Question}
    (hlength : (question.chars name).length ≤ maxLength) :
    checkText (question.chars name) = .ok () :=
  checkText_of_plain ⟨'=', by simp [Question.chars], by decide⟩ hlength (plain_of_mem hname)

end LettingIn

/-! ## Solving -/

/-- **A question is read and solved as its terms say.**  Whatever the terms are, the text of a
question that is not too long is read as an equation whose outcome admits exactly the numbers at
which the terms of both sides have the same sum. -/
theorem Question.solve_chars {name : List Char} (hname : IsName name) {question : Question}
    (hlength : (question.chars name).length ≤ maxLength) :
    ∃ equation outcome, parseEquationChars (question.chars name) = .ok equation ∧
      equation.solve (String.ofList name) = .ok outcome ∧
      ∀ v, outcome.admits v ↔ question.HoldsAt v := by
  have hcheck := Question.checkText_chars hname hlength
  rw [← Wording.questionChars_starred hname] at hcheck ⊢
  exact (Wording.starred hname).solve_questionChars question hcheck

/-! ## Length -/

section Length

variable (name : List Char)

theorem Term.length_magnitude_le {t : Term} (hsmall : |t.coefficient| < 100) :
    (t.magnitude.chars name).length ≤ name.length + 3 := by
  have hdigits : (natChars t.coefficient.natAbs).length ≤ 2 :=
    Nat.toDigits_length 10 t.coefficient.natAbs 2 (by decide) (by rw [abs_lt] at hsmall; omega)
  simp only [Term.chars, Term.magnitude, intChars_natCast]
  split
  · rw [List.length_append, List.length_cons]
    omega
  · omega

/-- With its sign, a term with a coefficient of two digits takes four characters besides the name.
-/
theorem Term.length_laterChars_le {t : Term} (hsmall : |t.coefficient| < 100) :
    (t.laterChars name).length ≤ name.length + 4 := by
  have hmagnitude := Term.length_magnitude_le name hsmall
  unfold Term.laterChars
  split
  · next hneg =>
      rw [Term.chars_of_neg hneg, List.length_cons]
      omega
  · next hnonneg =>
      rw [Term.chars_of_nonneg hnonneg, List.length_cons]
      omega

theorem Term.length_chars_le_later (t : Term) :
    (t.chars name).length ≤ (t.laterChars name).length := by
  unfold Term.laterChars
  split
  · exact le_rfl
  · exact Nat.le_succ _

theorem length_side_le {terms : List Term} (hsmall : ∀ t ∈ terms, |t.coefficient| < 100) :
    (sideChars name terms).length ≤ terms.length * (name.length + 4) + 1 := by
  -- all terms count as later ones here: the first is no longer without its plus sign
  have hlater : ∀ rest : List Term, (∀ t ∈ rest, |t.coefficient| < 100) →
      (rest.flatMap (Term.laterChars name)).length ≤ rest.length * (name.length + 4) := by
    intro rest hrest
    induction rest with
    | nil => simp
    | cons next rest ih =>
        have hnext := Term.length_laterChars_le name (hrest next List.mem_cons_self)
        have htail := ih fun t ht => hrest t (List.mem_cons_of_mem _ ht)
        rw [List.flatMap_cons, List.length_append, List.length_cons, Nat.succ_mul]
        omega
  cases terms with
  | nil => simp [sideChars]
  | cons first rest =>
      have hall := hlater (first :: rest) hsmall
      rw [List.flatMap_cons, List.length_append] at hall
      have hfirst := first.length_chars_le_later name
      rw [sideChars, List.length_append]
      omega

/-- The text of a question whose coefficients have two digits at most. -/
theorem Question.length_chars_le {question : Question}
    (hsmall : ∀ t ∈ question.left ++ question.right, |t.coefficient| < 100) :
    (question.chars name).length ≤
      (question.left ++ question.right).length * (name.length + 4) + 3 := by
  have hleft := length_side_le name fun t ht => hsmall t (List.mem_append_left _ ht)
  have hright := length_side_le name fun t ht => hsmall t (List.mem_append_right _ ht)
  rw [Question.chars, List.length_append, List.length_cons, List.length_append, Nat.add_mul]
  omega

end Length

end EquationPractice
