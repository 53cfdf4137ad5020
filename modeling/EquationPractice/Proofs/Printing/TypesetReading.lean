import EquationPractice.Proofs.Printing.RoundTrip
import EquationPractice.Proofs.Printing.TypesetLine

/-!
# Reading typeset expressions back

The LaTeX form of an expression can always be read, and it keeps the grouping of the expression with
one exception.  Where the base of a power is a negation or a negative number, no parentheses are put
around it, and as the exponent binds more tightly than the sign, the sign is read as that of the whole
power: `(-2)^2` is typeset as `-2^{2}`, which is `-4`.

## Strategy

As for printing, a text must be known to stand in the layers of the reader up to the strength of its
outermost part.  A fraction is a group by itself, so unlike in the infix form only factors are read on
from left to right.  A text of strength four is a minus sign and an atom, and an exponent behind it is
that of the atom; so `LineReadable` has a field for the two parts.

## Main definitions

* `Expr.signsInFront`: an expression with the signs of bases in front of the powers.
* `Expr.shown`: the expression that the LaTeX form is read as.
* `LineReadable`: how the line of an expression may stand in each layer.
-/

namespace EquationPractice

open Text EquationPractice.Expr

/-! ## What is read -/

/-- Multiplies an expression by the first factor of a product and goes on with the others. -/
def joinFactors (acc : Expr) : Expr → Expr
  | .mul l r => .mul (joinFactors acc l) r
  | e => .mul acc e

namespace Expr

/-- The expression with the sign of every fraction in front of the fraction, and the sign of every
base in front of the power. -/
def signsInFront : Expr → Expr
  | number q => if q < 0 ∧ q.den ≠ 1 then neg (number (-q)) else number q
  | var name => var name
  | add l r => add l.signsInFront r.signsInFront
  | sub l r => sub l.signsInFront r.signsInFront
  | mul l r => mul l.signsInFront r.signsInFront
  | div l r => div l.signsInFront r.signsInFront
  | pow (neg b) x => neg (pow b.signsInFront x.signsInFront)
  | pow (number q) x =>
      if q < 0 then neg (pow (number (-q)) x.signsInFront) else pow (number q) x.signsInFront
  | pow b x => pow b.signsInFront x.signsInFront
  | neg e => neg e.signsInFront

/-- The expression with its sums and products from left to right and its fractions as quotients. -/
def regrouped : Expr → Expr
  | number q => rereadNumber q
  | var name => var name
  | add l r => joinSum l.regrouped r.regrouped
  | sub l r => sub l.regrouped r.regrouped
  | mul l r => joinFactors l.regrouped r.regrouped
  | div l r => div l.regrouped r.regrouped
  | pow b x => pow b.regrouped x.regrouped
  | neg e => negate e.regrouped

/-- The expression that the LaTeX form is read as. -/
def shown (e : Expr) : Expr :=
  e.signsInFront.regrouped

/-- Whether the base of some power is a negation or a negative number. -/
def hasSignedBase : Expr → Bool
  | number _ | var _ => false
  | add l r | sub l r | mul l r | div l r => l.hasSignedBase || r.hasSignedBase
  | pow b x => b.isSigned || b.hasSignedBase || x.hasSignedBase
  | neg e => e.hasSignedBase

variable {e acc t u b x : Expr} {q : ℚ} {assignment : String → ℚ}

/-! ## Values -/

theorem assign_joinFactors : (joinFactors acc t).assign assignment =
    joinFactors (acc.assign assignment) (t.assign assignment) := by
  induction t with
  | mul l r ihl _ => simp only [joinFactors, assign, ihl]
  | number | var | add | sub | div | pow | neg => rfl

/-- Moving the factors of a product to the left does not change the value. -/
theorem value?_joinFactors : (joinFactors acc t).value? = (mul acc t).value? := by
  induction t with
  | mul l r ihl _ =>
      simp only [joinFactors, value?, ihl]
      cases acc.value? <;> cases l.value? <;> cases r.value? <;> simp [mul_assoc]
  | number | var | add | sub | div | pow | neg => rfl

theorem value?_assign_regrouped :
    (e.regrouped.assign assignment).value? = (e.assign assignment).value? := by
  induction e with
  | number q =>
      unfold regrouped rereadNumber
      split
      · rfl
      · simp [assign, value?, Rat.num_div_den]
  | var name => rfl
  | add l r ihl ihr =>
      simp only [regrouped, assign_joinSum, value?_joinSum, assign, value?, ihl, ihr]
  | mul l r ihl ihr =>
      simp only [regrouped, assign_joinFactors, value?_joinFactors, assign, value?, ihl, ihr]
  | sub l r ihl ihr | div l r ihl ihr | pow l r ihl ihr =>
      simp only [regrouped, assign, value?, ihl, ihr]
  | neg e ih => simp only [regrouped, value?_assign_negate, assign, value?, ih]

theorem signsInFront_pow (hunsigned : b.isSigned = false) :
    (pow b x).signsInFront = pow b.signsInFront x.signsInFront := by
  cases b with
  | number q =>
      have hnonneg : ¬q < 0 := by simpa [isSigned] using hunsigned
      simp [signsInFront, hnonneg]
  | neg b => exact absurd hunsigned (by simp [isSigned])
  | var | add | sub | mul | div | pow => rfl

/-- Without signed bases, only the signs of fractions are moved. -/
theorem value?_assign_signsInFront (hbases : e.hasSignedBase = false) :
    (e.signsInFront.assign assignment).value? = (e.assign assignment).value? := by
  induction e with
  | number q =>
      unfold signsInFront
      split
      · simp [assign, value?]
      · rfl
  | var name => rfl
  | add l r ihl ihr | sub l r ihl ihr | mul l r ihl ihr | div l r ihl ihr =>
      rw [hasSignedBase, Bool.or_eq_false_iff] at hbases
      simp only [signsInFront, assign, value?, ihl hbases.1, ihr hbases.2]
  | pow b x ihb ihx =>
      simp only [hasSignedBase, Bool.or_eq_false_iff] at hbases
      rw [signsInFront_pow hbases.1.1]
      simp only [assign, value?, ihb hbases.1.2, ihx hbases.2]
  | neg e ih => simp only [signsInFront, assign, value?, ih hbases]

/-! ## The outermost part -/

theorem joinFactors_joinFactors (acc t u : Expr) :
    joinFactors acc (joinFactors t u) = joinFactors (joinFactors acc t) u := by
  induction u with
  | mul l r ihl _ => simp only [joinFactors, ihl]
  | number | var | add | sub | div | pow | neg => rfl

theorem joinSum_joinFactors : joinSum acc (joinFactors t u) = add acc (joinFactors t u) := by
  cases u <;> rfl

theorem joinFactors_joinSum : joinFactors acc (joinSum t u) = mul acc (joinSum t u) := by
  cases u <;> rfl

theorem joinFactors_negate : joinFactors acc (negate e) = mul acc (negate e) := by
  cases e <;> rfl

theorem joinFactors_rereadNumber :
    joinFactors acc (rereadNumber q) = mul acc (rereadNumber q) := by
  unfold rereadNumber
  split <;> rfl

/-- What binds less strongly than a product is not read as one. -/
theorem joinFactors_shown (hweak : e.strength < 2) : joinFactors acc e.shown = mul acc e.shown := by
  cases e with
  | number q => exact absurd hweak (not_lt.mpr (two_le_strength_number q))
  | add l r => exact joinFactors_joinSum
  | sub l r => rfl
  | var | mul | div | pow | neg => simp [strength] at hweak

/-- What binds at least as strongly as a product is not read as a sum. -/
theorem joinSum_shown (hstrong : 2 ≤ e.strength) : joinSum acc e.shown = add acc e.shown := by
  cases e with
  | number q =>
      unfold shown signsInFront
      split
      · exact joinSum_negate
      · simp only [regrouped, rereadNumber]
        split <;> rfl
  | add l r | sub l r => simp [strength] at hstrong
  | mul l r => exact joinSum_joinFactors
  | neg e => exact joinSum_negate
  | pow b x =>
      -- a sign of the base is read as that of the whole power, which is no sum either
      cases b with
      | number q =>
          unfold shown signsInFront
          split <;> rfl
      | neg b | var | add | sub | mul | div | pow => rfl
  | var | div => rfl

end Expr

/-! ## Groups -/

/-- The text is a factor or a product of factors. -/
def SpellsFactors (inner : Reader Expr) : List Char → Expr → Prop :=
  SpellsChain (signed inner) ['*', '/'] towerOperators '*' extendProduct joinFactors

section SpellsGrouped

variable {inner : Reader Expr} {cs ds sep : List Char} {t u : Expr} {levels : Nat} {q : ℚ}

theorem Spells.quotient (hleft : Spells (signed inner) towerOperators cs t)
    (hsep : SpellsOperator '/' sep) (hright : Spells (signed inner) towerOperators ds u) :
    Spells (term inner) productOperators (cs ++ (sep ++ ds)) (.div t u) := by
  have hfirst : Opens (signed inner) (operation ['*', '/'] (signed inner)) towerOperators cs t [] :=
    Opens.of_head hleft
  have hopens := hfirst.append (fun e => ('/', e)) (Opens.of_head hright) hsep.ne_nil
    (hsep.stops (by decide)) fun tail value mid hread =>
      hsep.operation (by decide) (signed_skipGaps inner) hread
  exact fun rest hrest => term_of_opens hopens hrest

/-- A fraction is a group by itself, whatever stands above and below the bar. -/
theorem SpellsGrouped.fraction (hcs : SpellsGrouped cs t) (hds : SpellsGrouped ds u)
    (hlength : (lineFraction cs ds).length ≤ levels) :
    SpellsAtom (expression levels) (lineFraction cs ds) (.div t u) := by
  have hline : lineFraction cs ds =
      '(' :: (('(' :: cs ++ [')']) ++ (['/'] ++ ('(' :: ds ++ [')']))) ++ [')'] := by
    simp [lineFraction]
  have hquotient : SpellsGrouped (('(' :: cs ++ [')']) ++ (['/'] ++ ('(' :: ds ++ [')'])))
      (.div t u) := by
    intro fewer hfewer
    simp only [List.length_append, List.length_cons] at hfewer
    have htop := hcs.enclosed (show cs.length < fewer by omega)
    have hbottom := hds.enclosed (show ds.length < fewer by omega)
    exact SpellsSum.of_term (htop.tower.signed.quotient
      (spellsOperator_plain (by decide) (by decide)) hbottom.tower.signed) fun _ => rfl
  rw [hline] at hlength ⊢
  refine hquotient.enclosed ?_
  simp only [List.length_append, List.length_cons] at hlength ⊢
  omega

theorem spellsGrouped_natChars (n : Nat) : SpellsGrouped (natChars n) (.number n) := by
  intro levels _
  have hatom : SpellsAtom (expression levels) (natChars n) (.number n) := SpellsAtom.natChars n
  exact SpellsSum.of_term hatom.tower.signed.term_of_signed fun _ => rfl

/-- A number without a sign is an atom, be it a fraction or not. -/
theorem spellsAtom_lineRat (hnonneg : 0 ≤ q) (hlength : (lineRat q).length ≤ levels) :
    SpellsAtom (expression levels) (lineRat q) (rereadNumber q) := by
  unfold lineRat rereadNumber at *
  split
  · next hden => exact SpellsAtom.wholeNumber hden hnonneg
  · next hden =>
      have hnum : ((q.num.natAbs : ℕ) : ℤ) = q.num :=
        Int.natAbs_of_nonneg (Rat.num_nonneg.mpr hnonneg)
      rw [if_neg hden, if_neg (not_lt.mpr hnonneg), List.nil_append] at hlength
      rw [if_neg (not_lt.mpr hnonneg), List.nil_append]
      have hfraction := (spellsGrouped_natChars q.num.natAbs).fraction
        (spellsGrouped_natChars q.den) hlength
      rwa [← Int.cast_natCast q.num.natAbs, hnum] at hfraction

/-- The sign of a number stands in front of it, also of a fraction. -/
theorem lineRat_of_neg (hneg : q < 0) : lineRat q = '-' :: lineRat (-q) := by
  have hnum : q.num < 0 := Rat.num_neg.mpr hneg
  have hpositive : ¬-q < 0 := by
    rw [not_lt, Left.nonneg_neg_iff]
    exact hneg.le
  unfold lineRat intChars
  simp only [Rat.neg_num, Rat.neg_den, Int.natAbs_neg, if_pos hneg, if_pos hnum, if_neg hpositive,
    if_neg (show ¬-q.num < 0 by omega)]
  split
  · rfl
  · rfl

end SpellsGrouped

/-! ## Readable lines -/

/-- A text that shows its own sign is a minus sign and an atom, and an exponent behind the text is
that of the atom. -/
structure SpellsSigned (inner : Reader Expr) (e : Expr) (cs : List Char) (core : Expr) : Prop where
  line : e.lineChars = '-' :: cs
  atom : SpellsAtom inner cs core
  shown : e.shown = negate core
  shown_pow : ∀ x, (pow e x).shown = neg (pow core x.shown)

/-- The line of an expression is read in every layer that its outermost part is strong enough for. -/
structure LineReadable (inner : Reader Expr) (e : Expr) : Prop where
  sum : SpellsSum inner e.lineChars e.shown
  factors : 2 ≤ e.strength → SpellsFactors inner e.lineChars e.shown
  atom : 4 ≤ e.strength → e.isSigned = false → SpellsAtom inner e.lineChars e.shown
  signed : e.isSigned = true → ∃ cs core, SpellsSigned inner e cs core

/-- The line of an expression is readable with as many levels of groups as it has characters. -/
def ReadsOnLine (e : Expr) : Prop :=
  ∀ levels, e.lineChars.length ≤ levels → LineReadable (expression levels) e

section LineReadable

variable {inner : Reader Expr} {e : Expr} {cs : List Char} {t core : Expr} {levels : Nat}

theorem SpellsFactors.of_signed (hsigned : Spells (EquationPractice.signed inner) towerOperators cs t)
    (hjoin : ∀ acc, joinFactors acc t = .mul acc t) : SpellsFactors inner cs t :=
  SpellsChain.of_operand hsigned hjoin

theorem SpellsSigned.spells (hsigned : SpellsSigned inner e cs core) :
    Spells (signed inner) towerOperators e.lineChars e.shown := by
  rw [hsigned.line, hsigned.shown]
  exact hsigned.atom.tower.minus

theorem LineReadable.of_sum (hstrength : e.strength < 2)
    (hsum : SpellsSum inner e.lineChars e.shown) (hunsigned : e.isSigned = false) :
    LineReadable inner e :=
  ⟨hsum, fun h => absurd h (by omega), fun h => absurd h (by omega),
    fun h => absurd (h.symm.trans hunsigned) (by decide)⟩

theorem LineReadable.of_factors (hstrength : 2 ≤ e.strength)
    (hfactors : SpellsFactors inner e.lineChars e.shown)
    (hatom : 4 ≤ e.strength → e.isSigned = false → SpellsAtom inner e.lineChars e.shown)
    (hsigned : e.isSigned = true → ∃ cs core, SpellsSigned inner e cs core) :
    LineReadable inner e :=
  ⟨SpellsSum.of_term hfactors.term fun _ => joinSum_shown hstrength, fun _ => hfactors, hatom,
    hsigned⟩

theorem LineReadable.of_atom (hstrength : 2 ≤ e.strength) (hunsigned : e.isSigned = false)
    (hjoin : ∀ acc, joinFactors acc e.shown = mul acc e.shown)
    (hatom : SpellsAtom inner e.lineChars e.shown) : LineReadable inner e :=
  .of_factors hstrength (.of_signed hatom.tower.signed hjoin) (fun _ _ => hatom)
    fun h => absurd (h.symm.trans hunsigned) (by decide)

theorem LineReadable.of_signed (hstrength : 2 ≤ e.strength) (hshows : e.isSigned = true)
    (hsigned : SpellsSigned inner e cs core) : LineReadable inner e := by
  refine .of_factors hstrength (.of_signed hsigned.spells fun acc => ?_)
    (fun _ hunsigned => absurd (hshows.symm.trans hunsigned) (by decide))
    fun _ => ⟨cs, core, hsigned⟩
  rw [hsigned.shown]
  exact joinFactors_negate

/-! ## Operands on a line -/

theorem ReadsOnLine.grouped (hreads : ReadsOnLine e) : SpellsGrouped e.lineChars e.shown :=
  fun levels hlength => (hreads levels hlength).sum

/-- An operand that is either strong enough for an atom or put in parentheses. -/
theorem ReadsOnLine.atom_operand {wanted : Bool} (hreads : ReadsOnLine e)
    (hlength : (parenthesized wanted e.lineChars).length ≤ levels)
    (hplain : wanted = false → 4 ≤ e.strength ∧ e.isSigned = false) :
    SpellsAtom (expression levels) (parenthesized wanted e.lineChars) e.shown :=
  hreads.grouped.operand hlength fun hwanted hline =>
    (hreads levels hline).atom (hplain hwanted).1 (hplain hwanted).2

/-- An operand of a product. -/
theorem ReadsOnLine.factors_operand (hreads : ReadsOnLine e)
    (hlength : (parenthesized (e.strength < 2) e.lineChars).length ≤ levels) :
    SpellsFactors (expression levels) (parenthesized (e.strength < 2) e.lineChars) e.shown := by
  by_cases hweak : e.strength < 2
  · have hatom := hreads.atom_operand hlength (by simp [hweak])
    exact .of_signed hatom.tower.signed fun _ => joinFactors_shown hweak
  · simp only [hweak, decide_false, parenthesized] at hlength ⊢
    exact (hreads levels hlength).factors (not_lt.mp hweak)

/-- The right operand of a difference. -/
theorem ReadsOnLine.term_operand (hreads : ReadsOnLine e)
    (hlength : (parenthesized (e.strength ≤ 1) e.lineChars).length ≤ levels) :
    Spells (term (expression levels)) productOperators
      (parenthesized (e.strength ≤ 1) e.lineChars) e.shown := by
  by_cases hweak : e.strength ≤ 1
  · have hatom := hreads.atom_operand hlength (by simp [hweak])
    exact hatom.tower.signed.term_of_signed
  · simp only [hweak, decide_false, parenthesized] at hlength ⊢
    exact ((hreads levels hlength).factors (by omega)).term

end LineReadable

/-! ## One constructor at a time -/

section ReadsOnLine

variable {l r b x e : Expr} {q : ℚ}

theorem shown_number_of_nonneg (hnonneg : ¬q < 0) : (number q).shown = rereadNumber q := by
  simp [shown, signsInFront, hnonneg, regrouped]

theorem shown_number_of_neg (hneg : q < 0) : (number q).shown = negate (rereadNumber (-q)) := by
  unfold shown signsInFront
  by_cases hden : q.den = 1
  · simp [hden, regrouped, rereadNumber, negate]
  · rw [if_pos ⟨hneg, hden⟩]
    rfl

/-- The sign of a number is the sign of the line, and the sign of any power of the number. -/
theorem ReadsOnLine.number (q : ℚ) : ReadsOnLine (number q) := by
  intro levels hlength
  by_cases hneg : q < 0
  · have hline : (Expr.number q).lineChars = '-' :: lineRat (-q) := lineRat_of_neg hneg
    rw [hline, List.length_cons] at hlength
    have hlengthq : (lineRat (-q)).length ≤ levels := by omega
    have hcore := spellsAtom_lineRat (neg_nonneg.mpr hneg.le) hlengthq
    refine .of_signed (two_le_strength_number q) (by simpa [isSigned] using hneg)
      ⟨hline, hcore, shown_number_of_neg hneg, fun x => ?_⟩
    simp only [shown, signsInFront, if_pos hneg, regrouped, negate]
  · have hshown := shown_number_of_nonneg hneg
    refine .of_atom (two_le_strength_number q) (by simpa [isSigned] using hneg) ?_ ?_
    · rw [hshown]
      exact fun _ => joinFactors_rereadNumber
    · rw [hshown]
      exact spellsAtom_lineRat (not_lt.mp hneg) hlength

theorem ReadsOnLine.var {name : String} (hname : IsName name.toList) : ReadsOnLine (var name) := by
  intro levels _
  have hatom : SpellsAtom (expression levels) name.toList _ := SpellsAtom.name hname
  rw [String.ofList_toList] at hatom
  exact .of_atom (by simp [strength]) rfl (fun _ => rfl) hatom

theorem ReadsOnLine.add (hl : ReadsOnLine l) (hr : ReadsOnLine r) : ReadsOnLine (add l r) := by
  intro levels hlength
  have hweak : ¬r.strength < 1 := not_lt.mpr (one_le_strength r)
  have hline : (Expr.add l r).lineChars = l.lineChars ++ ([' ', '+', ' '] ++ r.lineChars) := by
    simp [lineChars, parenthesized, hweak]
  simp only [hline, List.length_append] at hlength
  have hsum := (hl levels (by omega)).sum.add_sum
    (spellsOperator_spaced (by decide) (by decide)) (hr levels (by omega)).sum
  refine .of_sum (by simp [strength]) ?_ rfl
  rwa [hline]

theorem ReadsOnLine.sub (hl : ReadsOnLine l) (hr : ReadsOnLine r) : ReadsOnLine (sub l r) := by
  intro levels hlength
  have hline : (Expr.sub l r).lineChars = l.lineChars ++ ([' ', '-', ' '] ++
      parenthesized (r.strength ≤ 1) r.lineChars) := by
    rw [lineChars, List.append_assoc]
  simp only [hline, List.length_append] at hlength
  have hsum := (hl levels (by omega)).sum.sub (spellsOperator_spaced (by decide) (by decide))
    (hr.term_operand (by omega))
  refine .of_sum (by simp [strength]) ?_ rfl
  rwa [hline]

theorem ReadsOnLine.mul (hl : ReadsOnLine l) (hr : ReadsOnLine r) : ReadsOnLine (mul l r) := by
  intro levels hlength
  have hline : (Expr.mul l r).lineChars = parenthesized (l.strength < 2) l.lineChars ++
      ([' ', '*', ' '] ++ parenthesized (r.strength < 2) r.lineChars) := by
    rw [lineChars, List.append_assoc]
  simp only [hline, List.length_append] at hlength
  have hfactors : SpellsFactors (expression levels) (parenthesized (l.strength < 2) l.lineChars ++
      ([' ', '*', ' '] ++ parenthesized (r.strength < 2) r.lineChars))
      (joinFactors l.shown r.shown) :=
    SpellsChain.append (signed_skipGaps _) (by simp) (by decide) joinFactors_joinFactors
      (hl.factors_operand (by omega)) (spellsOperator_spaced (by decide) (by decide))
      (hr.factors_operand (by omega))
  refine .of_factors (by simp [strength]) ?_ (by simp [strength]) (by simp [isSigned])
  rwa [hline]

theorem ReadsOnLine.div (hl : ReadsOnLine l) (hr : ReadsOnLine r) : ReadsOnLine (div l r) :=
  fun _ hlength => .of_atom (by simp [strength]) rfl (fun _ => rfl)
    (hl.grouped.fraction hr.grouped hlength)

/-- The exponent is a group.  A base that shows a sign stands without parentheses, and then the sign
is that of the power. -/
theorem ReadsOnLine.pow (hb : ReadsOnLine b) (hx : ReadsOnLine x) : ReadsOnLine (pow b x) := by
  intro levels hlength
  have hline : (Expr.pow b x).lineChars = parenthesized (b.strength ≤ 3) b.lineChars ++
      '^' :: ('(' :: x.lineChars ++ [')']) := rfl
  simp only [hline, List.length_append, List.length_cons] at hlength
  have hexponent := hx.grouped.enclosed (show x.lineChars.length < levels by omega)
  refine .of_factors (by simp [strength]) ?_ (by simp [strength]) (by simp [isSigned])
  by_cases hsigned : b.isSigned = true
  · have hstrength := four_le_strength_of_isSigned hsigned
    have hplain : parenthesized (b.strength ≤ 3) b.lineChars = b.lineChars := by
      simp [parenthesized, show ¬b.strength ≤ 3 by omega]
    rw [hplain] at hline hlength
    obtain ⟨cs, core, hcore⟩ := (hb levels (by omega)).signed hsigned
    have hpower := (SpellsTower.pow hcore.atom hexponent.tower).minus
    rw [hline, hcore.line, hcore.shown_pow]
    exact .of_signed hpower fun _ => rfl
  · have hunsigned := Bool.eq_false_iff.mpr hsigned
    have hlengthb : (parenthesized (b.strength ≤ 3) b.lineChars).length ≤ levels := by omega
    have hbase := hb.atom_operand hlengthb fun hplain =>
      ⟨not_le.mp (of_decide_eq_false hplain), hunsigned⟩
    have hshown : (Expr.pow b x).shown = Expr.pow b.shown x.shown := by
      rw [shown, signsInFront_pow hunsigned]
      rfl
    rw [hline, hshown]
    exact .of_signed (SpellsTower.pow hbase hexponent.tower).signed fun _ => rfl

theorem ReadsOnLine.neg (he : ReadsOnLine e) : ReadsOnLine (neg e) := by
  intro levels hlength
  have hline : (Expr.neg e).lineChars = '-' :: parenthesized (e.strength ≤ 4) e.lineChars := rfl
  simp only [hline, List.length_cons] at hlength
  have hplain : decide (e.strength ≤ 4) = false → 4 ≤ e.strength ∧ e.isSigned = false := by
    intro hstrong
    rw [decide_eq_false_iff_not, not_le] at hstrong
    exact ⟨hstrong.le, isSigned_of_four_lt_strength hstrong⟩
  have hlengthe : (parenthesized (e.strength ≤ 4) e.lineChars).length ≤ levels := by omega
  have hcore := he.atom_operand hlengthe hplain
  exact .of_signed (by simp [strength]) rfl ⟨hline, hcore, rfl, fun _ => rfl⟩

/-- The line of every expression whose variables are names is readable. -/
theorem readsOnLine (hnames : ∀ name, e.mentions name = true → IsName name.toList) :
    ReadsOnLine e :=
  named_induction ReadsOnLine.number ReadsOnLine.var ReadsOnLine.add ReadsOnLine.sub
    ReadsOnLine.mul ReadsOnLine.div ReadsOnLine.pow ReadsOnLine.neg hnames

end ReadsOnLine

/-! ## Whole expressions -/

/-- The LaTeX form of every expression whose variables are names is read as an expression again.
Whatever numbers are put for the variables, it has the same value as the expression with the signs of
bases in front of the powers, or none if that has none.  So where no base shows a sign, it has the
same value as the expression itself. -/
theorem Expr.readTypeset_latex_value (e : Expr)
    (hnames : ∀ name ∈ e.variableNames, IsName name.toList) :
    ∃ e', readTypeset e.latex = some e' ∧
      (∀ assignment : String → ℚ,
        (e'.assign assignment).value? = (e.signsInFront.assign assignment).value?) ∧
      (e.hasSignedBase = false → ∀ assignment : String → ℚ,
        (e'.assign assignment).value? = (e.assign assignment).value?) := by
  have hmentioned : ∀ name, e.mentions name = true → IsName name.toList :=
    fun name hmentions => hnames name (mem_variableNames.mpr hmentions)
  have hread : readExpr e.lineChars = .ok (e.shown, []) :=
    readExpr_of_sum (readsOnLine hmentioned _ le_rfl).sum
  refine ⟨e.shown, readTypeset_latex hmentioned hread, fun assignment => ?_,
    fun hbases assignment => ?_⟩
  · exact value?_assign_regrouped
  · rw [shown, value?_assign_regrouped, value?_assign_signsInFront hbases]

/-- In `\frac{\text{speed}^{2}}{-\frac{3}{4}} - (x_{12} - y)` no base shows a sign. -/
theorem Expr.readTypeset_latex_value_fraction :
    (∀ name ∈ (sub (div (pow (var "speed") (number 2)) (number (mkRat (-3) 4)))
        (sub (var "x12") (var "y"))).variableNames, IsName name.toList) ∧
      (sub (div (pow (var "speed") (number 2)) (number (mkRat (-3) 4)))
        (sub (var "x12") (var "y"))).hasSignedBase = false ∧
      ∃ e', readTypeset (sub (div (pow (var "speed") (number 2)) (number (mkRat (-3) 4)))
        (sub (var "x12") (var "y"))).latex = some e' ∧
        ∀ assignment : String → ℚ, (e'.assign assignment).value? =
          ((sub (div (pow (var "speed") (number 2)) (number (mkRat (-3) 4)))
            (sub (var "x12") (var "y"))).assign assignment).value? := by
  have hbases : (sub (div (pow (var "speed") (number 2)) (number (mkRat (-3) 4)))
      (sub (var "x12") (var "y"))).hasSignedBase = false := by decide +kernel
  have hnames : ∀ name ∈ (sub (div (pow (var "speed") (number 2)) (number (mkRat (-3) 4)))
      (sub (var "x12") (var "y"))).variableNames, IsName name.toList := by decide +kernel
  obtain ⟨e', hread, -, hvalue⟩ := Expr.readTypeset_latex_value _ hnames
  exact ⟨hnames, hbases, e', hread, hvalue hbases⟩

/-- A negative base stands without parentheses: the LaTeX form of `(-2)^2` is read as `-2^2`. -/
theorem Expr.readTypeset_latex_signed_base :
    ∃ e', readTypeset (pow (number (-2)) (number 2)).latex = some e' ∧ e'.value? = some (-4) ∧
      (pow (number (-2)) (number 2)).value? = some 4 :=
  ⟨neg (pow (number 2) (number 2)), by decide +kernel, by decide +kernel, by decide +kernel⟩

end EquationPractice
