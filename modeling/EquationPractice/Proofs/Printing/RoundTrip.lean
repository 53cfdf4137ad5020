import EquationPractice.Proofs.Printing.Reread
import EquationPractice.Proofs.Reading.Literals

/-!
# Printing and reading back

The text of an expression is read back whenever it is short and shallow enough to be read at all and
its variables are names.  What is read mentions the same variables and has the same value.

## Strategy

The printer puts an operand in parentheses when it binds too weakly for its place, so a text must be
known to stand in the layers of the reader up to the strength of its outermost part: `Readable`
collects these facts.  They are shown by induction on the expression.  A pair of parentheses makes
the text longer, so the levels of parentheses left to the reader never run out.

## Main definitions

* `Readable`: how the text of an expression may stand in each layer.
* `Rereads`: the text is readable with as many levels of parentheses as it has characters.
-/

namespace EquationPractice

open Text EquationPractice.Expr

/-! ## Groups -/

/-- The text is a sum for every reader with as many levels of groups as the text has characters. -/
def SpellsGrouped (cs : List Char) (e : Expr) : Prop :=
  ∀ levels, cs.length ≤ levels → SpellsSum (expression levels) cs e

section SpellsGrouped

variable {cs : List Char} {t : Expr} {levels : Nat}

theorem SpellsGrouped.enclosed (hcs : SpellsGrouped cs t) (hlength : cs.length < levels) :
    SpellsAtom (expression levels) ('(' :: cs ++ [')']) t := by
  obtain ⟨fewer, rfl⟩ := Nat.exists_eq_succ_of_ne_zero (Nat.ne_zero_of_lt hlength)
  exact SpellsAtom.group (hcs fewer (Nat.le_of_lt_succ hlength)).sum

/-- A text that is either an atom as it stands or put in parentheses. -/
theorem SpellsGrouped.operand {wanted : Bool} (hcs : SpellsGrouped cs t)
    (hlength : (parenthesized wanted cs).length ≤ levels)
    (hplain : wanted = false → cs.length ≤ levels → SpellsAtom (expression levels) cs t) :
    SpellsAtom (expression levels) (parenthesized wanted cs) t := by
  cases wanted with
  | false => exact hplain rfl hlength
  | true =>
      refine hcs.enclosed ?_
      simp only [parenthesized, if_true, List.cons_append, List.length_cons,
        List.length_append] at hlength
      omega

end SpellsGrouped

/-! ## Readable texts -/

/-- The text of an expression is read in every layer that its outermost part is strong enough for.
-/
structure Readable (inner : Reader Expr) (e : Expr) : Prop where
  sum : SpellsSum inner e.chars e.reread
  product : 2 ≤ e.strength → SpellsProduct inner e.chars e.reread
  tower : 3 ≤ e.strength → e.isSigned = false → SpellsTower inner e.chars e.reread
  atom : 4 ≤ e.strength → e.isSigned = false → SpellsAtom inner e.chars e.reread

/-- The text of an expression is readable with as many levels of parentheses as it has characters.
-/
def Rereads (e : Expr) : Prop :=
  ∀ levels, e.chars.length ≤ levels → Readable (expression levels) e

section Readable

variable {inner : Reader Expr} {e : Expr} {levels : Nat}

theorem Readable.of_sum (hstrength : e.strength < 2) (hsum : SpellsSum inner e.chars e.reread) :
    Readable inner e :=
  ⟨hsum, fun h => absurd h (by omega), fun h => absurd h (by omega), fun h => absurd h (by omega)⟩

theorem Readable.of_product (hstrength : 2 ≤ e.strength)
    (hproduct : SpellsProduct inner e.chars e.reread)
    (htower : 3 ≤ e.strength → e.isSigned = false → SpellsTower inner e.chars e.reread)
    (hatom : 4 ≤ e.strength → e.isSigned = false → SpellsAtom inner e.chars e.reread) :
    Readable inner e :=
  ⟨SpellsSum.of_term hproduct.term fun _ => joinSum_reread hstrength, fun _ => hproduct, htower,
    hatom⟩

theorem Readable.of_atom (hstrength : 2 ≤ e.strength)
    (hjoin : ∀ acc, joinProduct acc e.reread = mul acc e.reread)
    (hatom : SpellsAtom inner e.chars e.reread) : Readable inner e :=
  .of_product hstrength (SpellsProduct.of_signed hatom.tower.signed hjoin)
    (fun _ _ => hatom.tower) fun _ _ => hatom

/-! ## Operands -/

theorem Rereads.grouped (hreads : Rereads e) : SpellsGrouped e.chars e.reread :=
  fun levels hlength => (hreads levels hlength).sum

/-- An operand that is either strong enough for an atom or put in parentheses. -/
theorem Rereads.atom_operand {wanted : Bool} (hreads : Rereads e)
    (hlength : (parenthesized wanted e.chars).length ≤ levels)
    (hplain : wanted = false → 4 ≤ e.strength ∧ e.isSigned = false) :
    SpellsAtom (expression levels) (parenthesized wanted e.chars) e.reread :=
  hreads.grouped.operand hlength fun hwanted hchars =>
    (hreads levels hchars).atom (hplain hwanted).1 (hplain hwanted).2

/-- An operand that is either strong enough for a tower or put in parentheses. -/
theorem Rereads.tower_operand {wanted : Bool} (hreads : Rereads e)
    (hlength : (parenthesized wanted e.chars).length ≤ levels)
    (hplain : wanted = false → 3 ≤ e.strength ∧ e.isSigned = false) :
    SpellsTower (expression levels) (parenthesized wanted e.chars) e.reread := by
  cases wanted with
  | false =>
      obtain ⟨hstrength, hunsigned⟩ := hplain rfl
      exact (hreads levels hlength).tower hstrength hunsigned
  | true => exact (hreads.atom_operand hlength (by simp)).tower

/-- The left operand of a product. -/
theorem Rereads.product_operand (hreads : Rereads e)
    (hlength : (parenthesized (e.strength < 2) e.chars).length ≤ levels) :
    SpellsProduct (expression levels) (parenthesized (e.strength < 2) e.chars) e.reread := by
  by_cases hweak : e.strength < 2
  · have hatom := hreads.atom_operand hlength (by simp [hweak])
    exact SpellsProduct.of_signed hatom.tower.signed fun _ => joinProduct_reread hweak
  · simp only [hweak, decide_false, parenthesized] at hlength ⊢
    exact (hreads levels hlength).product (not_lt.mp hweak)

/-- The right operand of a difference, and of a sum where it shows a sign. -/
theorem Rereads.term_operand {wanted : Bool} (hreads : Rereads e)
    (hlength : (parenthesized wanted e.chars).length ≤ levels)
    (hplain : wanted = false → 2 ≤ e.strength) :
    Spells (term (expression levels)) productOperators (parenthesized wanted e.chars) e.reread := by
  cases wanted with
  | false => exact ((hreads levels hlength).product (hplain rfl)).term
  | true => exact (hreads.atom_operand hlength (by simp)).tower.signed.term_of_signed

/-! ## One constructor at a time -/

/-- A number is read back as an integer or as a quotient of two. -/
theorem spellsProduct_number (q : ℚ) :
    SpellsProduct inner (number q).chars (number q).reread := by
  change SpellsProduct inner (ratChars q) (rereadNumber q)
  unfold ratChars rereadNumber
  -- the numerator carries the sign, and the denominator may follow a slash
  have hnumerator : SpellsProduct inner (intChars q.num) (number q.num) :=
    SpellsProduct.of_signed (spells_intChars q.num) fun _ => rfl
  split
  · next hden => rwa [Rat.coe_int_num_of_den_eq_one hden] at hnumerator
  · exact hnumerator.div (spellsOperator_plain (by decide) (by decide))
      (SpellsAtom.natChars q.den).tower.signed

theorem readable_number (q : ℚ) : Readable inner (number q) := by
  by_cases hnatural : q.den = 1 ∧ 0 ≤ q
  · obtain ⟨hden, hnonneg⟩ := hnatural
    have hreread : (number q).reread = number q := by simp [reread, rereadNumber, hden]
    have hchars : (number q).chars = intChars q.num := by simp [chars, ratChars, hden]
    refine Readable.of_atom (two_le_strength_number q) ?_ ?_
    · rw [hreread]
      exact fun _ => rfl
    · rw [hchars, hreread]
      exact SpellsAtom.wholeNumber hden hnonneg
  · -- a sign or a slash shows, so the text never stands where a tower is wanted
    have hshows : 3 ≤ (number q).strength → (number q).isSigned = false → False := by
      intro hstrength hunsigned
      have hnonneg : ¬q < 0 := by simpa [isSigned] using hunsigned
      by_cases hden : q.den = 1
      · exact hnatural ⟨hden, not_lt.mp hnonneg⟩
      · simp [strength, hnonneg, hden] at hstrength
    exact Readable.of_product (two_le_strength_number q) (spellsProduct_number q)
      (fun hstrength hunsigned => (hshows hstrength hunsigned).elim)
      fun hstrength hunsigned => (hshows (by omega) hunsigned).elim

theorem Readable.var {name : String} (hname : IsName name.toList) : Readable inner (var name) := by
  have hatom : SpellsAtom inner name.toList _ := SpellsAtom.name hname
  rw [String.ofList_toList] at hatom
  exact Readable.of_atom (by simp [strength]) (fun _ => rfl) hatom

end Readable

section Rereads

variable {l r e : Expr}

attribute [local simp] chars strength

/-- An operand without parentheses binds more strongly than its place and shows no sign. -/
theorem strong_of_plain {limit : Nat}
    (hplain : (decide (e.strength ≤ limit) || e.isSigned) = false) :
    limit < e.strength ∧ e.isSigned = false := by
  simpa only [Bool.or_eq_false_iff, decide_eq_false_iff_not, not_le] using hplain

/-- The left operand of a sum or a difference never stands in parentheses. -/
theorem parenthesized_summand (e : Expr) : parenthesized (e.strength < 1) e.chars = e.chars := by
  have hstrength : ¬e.strength < 1 := not_lt.mpr (one_le_strength e)
  simp only [parenthesized, hstrength, decide_false, Bool.false_eq_true, if_false]

theorem Rereads.add (hl : Rereads l) (hr : Rereads r) : Rereads (add l r) := by
  intro levels hlength
  have hchars : (Expr.add l r).chars = l.chars ++ ([' ', '+', ' '] ++
      parenthesized (r.strength < 1 || r.isSigned) r.chars) := by
    rw [chars, parenthesized_summand, List.append_assoc]
  simp only [hchars, List.length_append] at hlength
  have hlengthr : (parenthesized (r.strength < 1 || r.isSigned) r.chars).length ≤ levels := by
    omega
  have hleft := (hl levels (by omega)).sum
  have hplus : SpellsOperator '+' [' ', '+', ' '] :=
    spellsOperator_spaced (by decide) (by decide)
  refine Readable.of_sum (by simp) ?_
  rw [hchars]
  by_cases hsigned : r.isSigned = true
  · have hright := hr.term_operand hlengthr (by simp [hsigned])
    rw [reread, joinSum_reread (le_trans (by omega) (four_le_strength_of_isSigned hsigned))]
    exact hleft.add hplus hright
  · have hplain : parenthesized (r.strength < 1 || r.isSigned) r.chars = r.chars := by
      rw [Bool.eq_false_iff.mpr hsigned, Bool.or_false, parenthesized_summand]
    rw [hplain] at hlengthr ⊢
    exact hleft.add_sum hplus (hr levels hlengthr).sum

theorem Rereads.sub (hl : Rereads l) (hr : Rereads r) : Rereads (sub l r) := by
  intro levels hlength
  have hchars : (Expr.sub l r).chars = l.chars ++ ([' ', '-', ' '] ++
      parenthesized (r.strength ≤ 1 || r.isSigned) r.chars) := by
    rw [chars, parenthesized_summand, List.append_assoc]
  simp only [hchars, List.length_append] at hlength
  have hlengthr : (parenthesized (r.strength ≤ 1 || r.isSigned) r.chars).length ≤ levels := by
    omega
  have hright := hr.term_operand hlengthr (by simp; omega)
  refine Readable.of_sum (by simp) ?_
  rw [hchars]
  exact (hl levels (by omega)).sum.sub (spellsOperator_spaced (by decide) (by decide)) hright

theorem Rereads.mul (hl : Rereads l) (hr : Rereads r) : Rereads (mul l r) := by
  intro levels hlength
  have hchars : (Expr.mul l r).chars = parenthesized (l.strength < 2) l.chars ++
      ([' ', '*', ' '] ++ parenthesized (r.strength < 2 || r.isSigned) r.chars) := by
    rw [chars, List.append_assoc]
  simp only [hchars, List.length_append] at hlength
  have hlengthr : (parenthesized (r.strength < 2 || r.isSigned) r.chars).length ≤ levels := by
    omega
  have hlengthl : (parenthesized (l.strength < 2) l.chars).length ≤ levels := by omega
  have hleft := hl.product_operand hlengthl
  have htimes : SpellsOperator '*' [' ', '*', ' '] :=
    spellsOperator_spaced (by decide) (by decide)
  refine Readable.of_product (by simp) ?_ (by simp) (by simp)
  rw [hchars, reread]
  by_cases hwanted : (decide (r.strength < 2) || r.isSigned) = true
  · have hright := hr.atom_operand hlengthr fun hplain =>
      absurd (hplain.symm.trans hwanted) Bool.false_ne_true
    rw [if_pos hwanted]
    exact hleft.mul htimes hright.tower.signed
  · have hstrength : 2 ≤ r.strength := by
      simp only [Bool.or_eq_true, decide_eq_true_eq, not_or] at hwanted
      omega
    have hplain : parenthesized (r.strength < 2 || r.isSigned) r.chars = r.chars := by
      rw [parenthesized, if_neg hwanted]
    rw [if_neg hwanted, hplain]
    rw [hplain] at hlengthr
    exact hleft.mul_product htimes ((hr levels hlengthr).product hstrength)

theorem Rereads.div (hl : Rereads l) (hr : Rereads r) : Rereads (div l r) := by
  intro levels hlength
  have hchars : (Expr.div l r).chars = parenthesized (l.strength < 2) l.chars ++
      ([' ', '/', ' '] ++ parenthesized (r.strength ≤ 2 || r.isSigned) r.chars) := by
    rw [chars, List.append_assoc]
  simp only [hchars, List.length_append] at hlength
  have hlengthr : (parenthesized (r.strength ≤ 2 || r.isSigned) r.chars).length ≤ levels := by
    omega
  have hright := hr.tower_operand hlengthr strong_of_plain
  refine Readable.of_product (by simp) ?_ (by simp) (by simp)
  rw [hchars]
  exact (hl.product_operand (by omega)).div (spellsOperator_spaced (by decide) (by decide))
    hright.signed

theorem Rereads.pow (hl : Rereads l) (hr : Rereads r) : Rereads (pow l r) := by
  intro levels hlength
  have hchars : (Expr.pow l r).chars = parenthesized (l.strength ≤ 3 || l.isSigned) l.chars ++
      '^' :: parenthesized (r.strength < 3 || r.isSigned) r.chars := by
    rw [chars, List.append_assoc]
    rfl
  simp only [hchars, List.length_append, List.length_cons] at hlength
  have hlengthl : (parenthesized (l.strength ≤ 3 || l.isSigned) l.chars).length ≤ levels := by
    omega
  have hlengthr : (parenthesized (r.strength < 3 || r.isSigned) r.chars).length ≤ levels := by
    omega
  have hbase := hl.atom_operand hlengthl strong_of_plain
  have hexponent := hr.tower_operand hlengthr (by simp)
  have htower := SpellsTower.pow hbase hexponent
  rw [← hchars] at htower
  exact Readable.of_product (by simp)
    (SpellsProduct.of_signed htower.signed fun _ => rfl) (fun _ _ => htower) (by simp)

theorem Rereads.neg (he : Rereads e) : Rereads (neg e) := by
  intro levels hlength
  have hchars : (Expr.neg e).chars = '-' :: parenthesized (e.strength ≤ 4) e.chars := rfl
  simp only [hchars, List.length_cons] at hlength
  have hplain : decide (e.strength ≤ 4) = false → 4 ≤ e.strength ∧ e.isSigned = false := by
    intro hstrong
    rw [decide_eq_false_iff_not, not_le] at hstrong
    exact ⟨hstrong.le, isSigned_of_four_lt_strength hstrong⟩
  have hlengthe : (parenthesized (e.strength ≤ 4) e.chars).length ≤ levels := by omega
  have hminus := (he.atom_operand hlengthe hplain).tower.minus
  exact Readable.of_product (by simp)
    (SpellsProduct.of_signed hminus fun _ => joinProduct_negate) (by simp [isSigned])
    (by simp [isSigned])

/-- The text of every expression whose variables are names is readable. -/
theorem rereads (hnames : ∀ name, e.mentions name = true → IsName name.toList) : Rereads e :=
  named_induction (fun q _ _ => readable_number q) (fun hname _ _ => Readable.var hname)
    Rereads.add Rereads.sub Rereads.mul Rereads.div Rereads.pow Rereads.neg hnames

end Rereads

/-! ## Whole texts -/

/-- The text of an expression is not blank. -/
theorem exists_mem_chars {e : Expr}
    (hnames : ∀ name, e.mentions name = true → IsName name.toList) :
    ∃ c ∈ e.chars, isBlank c = false := by
  cases e with
  | number q =>
      obtain ⟨c, hc, hblank⟩ := exists_mem_intChars q.num
      refine ⟨c, ?_, hblank⟩
      simp only [chars, ratChars]
      split
      · exact hc
      · exact List.mem_append_left _ hc
  | var name =>
      have hname := hnames name (by simp [mentions])
      cases hcs : name.toList with
      | nil => exact absurd hname (by simp [hcs, IsName])
      | cons c rest =>
          rw [hcs] at hname
          exact ⟨c, by simp [chars, hcs],
            not_isBlank_of_continuesName (continuesName_of_startsName hname.1)⟩
  | add l r => exact ⟨'+', by simp [chars], by decide⟩
  | sub l r | neg e => exact ⟨'-', by simp [chars], by decide⟩
  | mul l r => exact ⟨'*', by simp [chars], by decide⟩
  | div l r => exact ⟨'/', by simp [chars], by decide⟩
  | pow b x => exact ⟨'^', by simp [chars], by decide⟩

/-- The text of an expression is read as the expression it becomes. -/
theorem parse_text {e : Expr} (hnames : ∀ name, e.mentions name = true → IsName name.toList)
    (hlength : e.text.length ≤ maxLength)
    (hnesting : nestsWithin maxNesting 0 e.text.toList = true) :
    parse e.text = .ok e.reread := by
  unfold text at *
  rw [String.length_ofList] at hlength
  rw [String.toList_ofList] at hnesting
  unfold parse
  rw [String.toList_ofList]
  exact parseChars_of_sum (checkText_eq_ok.mpr ⟨exists_mem_chars hnames, hlength, hnesting⟩)
    (rereads hnames _ le_rfl).sum

/-- Printing and reading back keeps the variables and the value.  For every expression whose
variables are names and whose text is neither too long nor nested too deeply, the text is read as an
expression that mentions the same variables and that, whatever numbers are put for them, has the
same value, or none if there was none. -/
theorem Expr.parse_text_value (e : Expr) (hnames : ∀ name ∈ e.variableNames, IsName name.toList)
    (hlength : e.text.length ≤ maxLength)
    (hnesting : nestsWithin maxNesting 0 e.text.toList = true) :
    ∃ e', parse e.text = .ok e' ∧ (∀ name, name ∈ e'.variableNames ↔ name ∈ e.variableNames) ∧
      ∀ assignment : String → ℚ, (e'.assign assignment).value? = (e.assign assignment).value? := by
  have hmentioned : ∀ name, e.mentions name = true → IsName name.toList :=
    fun name hmentions => hnames name (mem_variableNames.mpr hmentions)
  refine ⟨e.reread, parse_text hmentioned hlength hnesting, fun name => ?_, fun assignment => ?_⟩
  · rw [mem_variableNames, mem_variableNames, mentions_reread]
  · exact value?_assign_reread

/-- The text `x_1 - (-3/4)` is read as another tree than it was printed from. -/
theorem Expr.parse_text_value_fraction :
    parse (sub (var "x_1") (number (mkRat (-3) 4))).text ≠
        .ok (sub (var "x_1") (number (mkRat (-3) 4))) ∧
      ∃ e', parse (sub (var "x_1") (number (mkRat (-3) 4))).text = .ok e' ∧
        (∀ name, name ∈ e'.variableNames ↔
          name ∈ (sub (var "x_1") (number (mkRat (-3) 4))).variableNames) ∧
        ∀ assignment : String → ℚ, (e'.assign assignment).value? =
          ((sub (var "x_1") (number (mkRat (-3) 4))).assign assignment).value? :=
  ⟨by decide +kernel, Expr.parse_text_value _ (by decide +kernel) (by decide +kernel)
    (by decide +kernel)⟩

end EquationPractice
