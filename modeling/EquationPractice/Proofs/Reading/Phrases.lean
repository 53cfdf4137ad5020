import EquationPractice.Proofs.Reading.Layers

/-!
# Phrases

A phrase is a text that is read as a whole wherever it stands.  This file puts phrases together:
from atoms to towers of exponents, from signed powers to products, from products to sums.  Sums and
products are read from left to right, so the operations of a right operand that stands without
parentheses become operations of the whole; `joinSum` and `joinProduct` are the trees that result.

## Main definitions

* `Spells`: a reader takes a text off the front and stops right behind it.
* `SpellsAtom`, `SpellsTower`, `SpellsProduct`, `SpellsSum`: how a text may stand in each layer.
* `joinSum`, `joinProduct`: a tree put to the left of all operations of another one.
-/

namespace EquationPractice

open Text

/-- The reader takes the text whole, unless something stands behind it that goes on. -/
def Spells {α : Type} (reader : Reader α) (operators cs : List Char) (value : α) : Prop :=
  ∀ rest, Stops operators rest → reader (cs ++ rest) = .ok (value, rest)

/-- An operator between gaps. -/
structure SpellsOperator (operator : Char) (cs : List Char) : Prop where
  gap : isGap operator = false
  token : (continuesName operator || operator == '.' || operator == '(') = false
  text : ∃ before after : List Char, (∀ c ∈ before, isGap c = true) ∧
    (∀ c ∈ after, isGap c = true) ∧ cs = before ++ operator :: after

section SpellsOperator

variable {operator : Char} {operators cs ds mid : List Char} {operand : Reader Expr} {e : Expr}

theorem SpellsOperator.ne_nil (hoperator : SpellsOperator operator cs) : cs ≠ [] := by
  obtain ⟨before, after, -, -, rfl⟩ := hoperator.text
  simp

theorem SpellsOperator.stops (hoperator : SpellsOperator operator cs) (hnot : operator ∉ operators)
    (tail : List Char) : Stops operators (cs ++ tail) := by
  obtain ⟨before, after, hbefore, -, rfl⟩ := hoperator.text
  rw [List.append_assoc]
  exact stops_append hbefore (stops_cons hoperator.gap hoperator.token hnot)

/-- An operation is read off its text when the operand is read off the rest. -/
theorem SpellsOperator.operation (hoperator : SpellsOperator operator cs)
    (hmem : operator ∈ operators) (hgaps : ∀ ds, operand (skipGaps ds) = operand ds)
    (hoperand : operand ds = .ok (e, mid)) :
    operation operators operand (cs ++ ds) = .ok ((operator, e), mid) := by
  obtain ⟨before, after, hbefore, hafter, rfl⟩ := hoperator.text
  have hskip : operand (after ++ ds) = .ok (e, mid) := by
    rw [← hgaps, skipGaps_append hafter, hgaps, hoperand]
  rw [List.append_assoc, ← operation_skipGaps, skipGaps_append hbefore, operation_skipGaps]
  exact operation_cons hmem hoperator.gap hskip

theorem spellsOperator_spaced (hgap : isGap operator = false)
    (htoken : (continuesName operator || operator == '.' || operator == '(') = false) :
    SpellsOperator operator [' ', operator, ' '] :=
  ⟨hgap, htoken, [' '], [' '], by simp [isGap], by simp [isGap], rfl⟩

theorem spellsOperator_plain (hgap : isGap operator = false)
    (htoken : (continuesName operator || operator == '.' || operator == '(') = false) :
    SpellsOperator operator [operator] :=
  ⟨hgap, htoken, [], [], by simp, by simp, rfl⟩

end SpellsOperator

variable {inner : Reader Expr} {cs ds sep : List Char} {t u : Expr}

/-! ## Atoms -/

/-- The text is an atom, and no sign can be read off its front. -/
structure SpellsAtom (inner : Reader Expr) (cs : List Char) (e : Expr) : Prop where
  unsigned : ∀ rest, Unsigned (cs ++ rest)
  reads : Spells (atom inner) [] cs e

theorem unsigned_cons {c : Char} {rest : List Char} (hgap : isGap c = false)
    (hsign : c ∉ ['-', '+']) : Unsigned (c :: rest) := by
  unfold Unsigned
  rw [skipGaps_cons_of_not_isGap hgap, headFree_cons]
  simpa using hsign

theorem unsigned_of_continuesName {c : Char} {rest : List Char} (hname : continuesName c = true) :
    Unsigned (c :: rest) := by
  refine unsigned_cons (not_isGap_of_continuesName hname) ?_
  intro hsign
  rw [List.mem_cons, List.mem_singleton] at hsign
  rcases hsign with rfl | rfl
  · exact absurd hname (by decide)
  · exact absurd hname (by decide)

theorem unsigned_digits {digits rest : List Char} (hne : digits ≠ [])
    (hdigits : ∀ c ∈ digits, c.isDigit = true) : Unsigned (digits ++ rest) := by
  cases digits with
  | nil => exact absurd rfl hne
  | cons c tail =>
      exact unsigned_of_continuesName (continuesName_of_isDigit (hdigits c List.mem_cons_self))

theorem SpellsAtom.digits {digits : List Char} (hne : digits ≠ [])
    (hdigits : ∀ c ∈ digits, c.isDigit = true) :
    SpellsAtom inner digits (.number (decimalValue digits [])) :=
  ⟨fun _ => unsigned_digits hne hdigits, fun _ hrest => atom_digits hne hdigits hrest⟩

theorem SpellsAtom.point {whole fraction : List Char} (hne : whole ≠ [])
    (hwhole : ∀ c ∈ whole, c.isDigit = true) (hfraction : ∀ c ∈ fraction, c.isDigit = true) :
    SpellsAtom inner (whole ++ '.' :: fraction) (.number (decimalValue whole fraction)) := by
  refine ⟨fun rest => ?_, fun rest hrest => ?_⟩
  · rw [List.append_assoc]
    exact unsigned_digits hne hwhole
  · rw [List.append_assoc, List.cons_append]
    exact atom_point hne hwhole hfraction hrest

theorem SpellsAtom.name {name : List Char} (hname : IsName name) :
    SpellsAtom inner name (.var (String.ofList name)) := by
  refine ⟨fun rest => ?_, fun rest hrest => atom_name hname hrest⟩
  cases name with
  | nil => exact hname.elim
  | cons c tail => exact unsigned_of_continuesName (continuesName_of_startsName hname.1)

theorem SpellsAtom.group (hinner : Spells inner sumOperators cs t) :
    SpellsAtom inner ('(' :: cs ++ [')']) t := by
  refine ⟨fun rest => unsigned_cons (by decide) (by decide), fun rest _ => ?_⟩
  have hclose : Stops sumOperators (')' :: rest) :=
    stops_cons (by decide) (by decide) (by decide)
  simpa using atom_group (hinner _ hclose) (skipGaps_cons_of_not_isGap (by decide))

/-! ## Towers of exponents -/

/-- The text is an atom with its tower of exponents, and no sign can be read off its front. -/
structure SpellsTower (inner : Reader Expr) (cs : List Char) (e : Expr) : Prop where
  unsigned : ∀ rest, Unsigned (cs ++ rest)
  opens : ∃ base tower, Opens (atom inner) (storey inner) [] cs base tower ∧ raise base tower = e

theorem SpellsAtom.tower (hatom : SpellsAtom inner cs t) : SpellsTower inner cs t :=
  ⟨hatom.unsigned, t, [], Opens.of_head hatom.reads, rfl⟩

theorem SpellsTower.pow (hbase : SpellsAtom inner cs t) (hexponent : SpellsTower inner ds u) :
    SpellsTower inner (cs ++ '^' :: ds) (.pow t u) := by
  obtain ⟨base, tower, hopens, rfl⟩ := hexponent.opens
  refine ⟨fun rest => ?_, t, (0, base) :: tower, ?_, rfl⟩
  · rw [List.append_assoc]
    exact hbase.unsigned _
  · have hcaret : ∀ tail, Stops [] (['^'] ++ tail) :=
      fun tail => stops_cons (by decide) (by decide) (by simp)
    exact (Opens.of_head hbase.reads).append (fun e => (0, e)) hopens (by simp) hcaret
      fun tail value mid hatom => storey_caret (hexponent.unsigned tail) hatom

theorem SpellsTower.power (htower : SpellsTower inner cs t) :
    Spells (power inner) towerOperators cs t := by
  obtain ⟨base, tower, hopens, rfl⟩ := htower.opens
  exact fun rest hrest => power_of_opens hopens hrest

/-! ## Signed powers -/

theorem SpellsTower.signed (htower : SpellsTower inner cs t) :
    Spells (signed inner) towerOperators cs t := by
  intro rest hrest
  rw [signed_of_unsigned (htower.unsigned rest), htower.power rest hrest]

theorem SpellsTower.minus (htower : SpellsTower inner cs t) :
    Spells (EquationPractice.signed inner) towerOperators ('-' :: cs) (negate t) :=
  fun rest hrest => signed_cons (by simp) (htower.unsigned rest) (htower.power rest hrest)

theorem SpellsTower.plus (htower : SpellsTower inner cs t) :
    Spells (EquationPractice.signed inner) towerOperators ('+' :: cs) t :=
  fun rest hrest => signed_cons (by simp) (htower.unsigned rest) (htower.power rest hrest)

/-! ## Chains of operations -/

/-- The text is a first operand and operations that `extend` carries out one after the other.
Behind another chain and `joiner`, it is read as more operations of that one. -/
def SpellsChain (operand : Reader Expr) (operators tighter : List Char) (joiner : Char)
    (extend : Expr → Char × Expr → Expr) (join : Expr → Expr → Expr) (cs : List Char) (e : Expr) :
    Prop :=
  ∃ first operations, Opens operand (operation operators operand) tighter cs first operations ∧
    operations.foldl extend first = e ∧
    ∀ acc, operations.foldl extend (extend acc (joiner, first)) = join acc e

section SpellsChain

variable {operand : Reader Expr} {operators tighter : List Char} {joiner operator : Char}
  {extend : Expr → Char × Expr → Expr} {join : Expr → Expr → Expr}

theorem SpellsChain.of_operand (hoperand : Spells operand tighter cs t)
    (hjoin : ∀ acc, join acc t = extend acc (joiner, t)) :
    SpellsChain operand operators tighter joiner extend join cs t :=
  ⟨t, [], Opens.of_head hoperand, rfl, fun acc => (hjoin acc).symm⟩

theorem SpellsChain.append (hgaps : ∀ ds, operand (skipGaps ds) = operand ds)
    (hmem : joiner ∈ operators) (hnot : joiner ∉ tighter)
    (hassoc : ∀ acc t u, join acc (join t u) = join (join acc t) u)
    (hleft : SpellsChain operand operators tighter joiner extend join cs t)
    (hsep : SpellsOperator joiner sep)
    (hright : SpellsChain operand operators tighter joiner extend join ds u) :
    SpellsChain operand operators tighter joiner extend join (cs ++ (sep ++ ds)) (join t u) := by
  obtain ⟨first, operations, hopens, rfl, hjoin⟩ := hleft
  obtain ⟨next, more, hopens', rfl, hjoin'⟩ := hright
  have hfold : ∀ start, (operations ++ (joiner, next) :: more).foldl extend start =
      more.foldl extend (extend (operations.foldl extend start) (joiner, next)) := by
    simp
  refine ⟨first, operations ++ (joiner, next) :: more, ?_, ?_, fun acc => ?_⟩
  · exact hopens.append (fun e => (joiner, e)) hopens' hsep.ne_nil (hsep.stops hnot)
      fun tail value mid hread => hsep.operation hmem hgaps hread
  · rw [hfold, hjoin']
  · rw [hfold, hjoin, hjoin', hassoc]

theorem SpellsChain.operation (hgaps : ∀ ds, operand (skipGaps ds) = operand ds)
    (hmem : operator ∈ operators) (hnot : operator ∉ tighter)
    (hjoin : ∀ acc, join acc (extend t (operator, u)) = extend (join acc t) (operator, u))
    (hleft : SpellsChain operand operators tighter joiner extend join cs t)
    (hsep : SpellsOperator operator sep) (hright : Spells operand tighter ds u) :
    SpellsChain operand operators tighter joiner extend join (cs ++ (sep ++ ds))
      (extend t (operator, u)) := by
  obtain ⟨first, operations, hopens, rfl, hleft⟩ := hleft
  have hfold : ∀ start, (operations ++ [(operator, u)]).foldl extend start =
      extend (operations.foldl extend start) (operator, u) := by
    simp
  refine ⟨first, operations ++ [(operator, u)], ?_, hfold first, fun acc => ?_⟩
  · exact hopens.append (fun e => (operator, e)) (Opens.of_head hright) hsep.ne_nil
      (hsep.stops hnot) fun tail value mid hread => hsep.operation hmem hgaps hread
  · rw [hfold, hleft, hjoin]

end SpellsChain

/-! ## Products -/

/-- Multiplies an expression by the first operand of a product and goes on with its operations. -/
def joinProduct (acc : Expr) : Expr → Expr
  | .mul l r => .mul (joinProduct acc l) r
  | .div l r => .div (joinProduct acc l) r
  | e => .mul acc e

theorem joinProduct_joinProduct (acc t u : Expr) :
    joinProduct acc (joinProduct t u) = joinProduct (joinProduct acc t) u := by
  induction u with
  | mul l r ihl _ => simp only [joinProduct, ihl]
  | div l r ihl _ => simp only [joinProduct, ihl]
  | number | var | add | sub | pow | neg => rfl

/-- The text is a product. -/
def SpellsProduct (inner : Reader Expr) : List Char → Expr → Prop :=
  SpellsChain (signed inner) ['*', '/'] towerOperators '*' extendProduct joinProduct

theorem Spells.term_of_signed (hsigned : Spells (signed inner) towerOperators cs t) :
    Spells (term inner) productOperators cs t :=
  fun _ hrest => term_of_opens (Opens.of_head hsigned) hrest

theorem SpellsProduct.of_signed (hsigned : Spells (signed inner) towerOperators cs t)
    (hjoin : ∀ acc, joinProduct acc t = .mul acc t) : SpellsProduct inner cs t :=
  SpellsChain.of_operand hsigned hjoin

theorem SpellsChain.term {join : Expr → Expr → Expr}
    (hchain : SpellsChain (signed inner) ['*', '/'] towerOperators '*' extendProduct join cs t) :
    Spells (term inner) productOperators cs t := by
  obtain ⟨first, operations, hopens, rfl, -⟩ := hchain
  exact fun rest hrest => term_of_opens hopens hrest

/-- A product read on behind another one. -/
theorem SpellsProduct.mul_product (hleft : SpellsProduct inner cs t)
    (hsep : SpellsOperator '*' sep) (hright : SpellsProduct inner ds u) :
    SpellsProduct inner (cs ++ (sep ++ ds)) (joinProduct t u) :=
  SpellsChain.append (signed_skipGaps inner) (by simp) (by decide) joinProduct_joinProduct hleft
    hsep hright

theorem SpellsProduct.mul (hleft : SpellsProduct inner cs t) (hsep : SpellsOperator '*' sep)
    (hright : Spells (signed inner) towerOperators ds u) :
    SpellsProduct inner (cs ++ (sep ++ ds)) (.mul t u) :=
  SpellsChain.operation (signed_skipGaps inner) (by simp) (by decide) (fun _ => rfl) hleft hsep
    hright

theorem SpellsProduct.div (hleft : SpellsProduct inner cs t) (hsep : SpellsOperator '/' sep)
    (hright : Spells (signed inner) towerOperators ds u) :
    SpellsProduct inner (cs ++ (sep ++ ds)) (.div t u) :=
  SpellsChain.operation (signed_skipGaps inner) (by simp) (by decide) (fun _ => rfl) hleft hsep
    hright

/-! ## Sums -/

/-- Adds the first operand of a sum to an expression and goes on with its operations. -/
def joinSum (acc : Expr) : Expr → Expr
  | .add l r => .add (joinSum acc l) r
  | .sub l r => .sub (joinSum acc l) r
  | e => .add acc e

theorem joinSum_joinSum (acc t u : Expr) :
    joinSum acc (joinSum t u) = joinSum (joinSum acc t) u := by
  induction u with
  | add l r ihl _ => simp only [joinSum, ihl]
  | sub l r ihl _ => simp only [joinSum, ihl]
  | number | var | mul | div | pow | neg => rfl

/-- The text is a sum. -/
def SpellsSum (inner : Reader Expr) : List Char → Expr → Prop :=
  SpellsChain (term inner) ['+', '-'] productOperators '+' extendSum joinSum

theorem SpellsSum.of_term (hterm : Spells (term inner) productOperators cs t)
    (hjoin : ∀ acc, joinSum acc t = .add acc t) : SpellsSum inner cs t :=
  SpellsChain.of_operand hterm hjoin

theorem SpellsSum.sum (hsum : SpellsSum inner cs t) : Spells (sum inner) sumOperators cs t := by
  obtain ⟨first, operations, hopens, rfl, -⟩ := hsum
  exact fun rest hrest => sum_of_opens hopens hrest

/-- A sum read on behind another one. -/
theorem SpellsSum.add_sum (hleft : SpellsSum inner cs t) (hsep : SpellsOperator '+' sep)
    (hright : SpellsSum inner ds u) : SpellsSum inner (cs ++ (sep ++ ds)) (joinSum t u) :=
  SpellsChain.append (term_skipGaps inner) (by simp) (by decide) joinSum_joinSum hleft hsep hright

theorem SpellsSum.add (hleft : SpellsSum inner cs t) (hsep : SpellsOperator '+' sep)
    (hright : Spells (EquationPractice.term inner) productOperators ds u) :
    SpellsSum inner (cs ++ (sep ++ ds)) (.add t u) :=
  SpellsChain.operation (term_skipGaps inner) (by simp) (by decide) (fun _ => rfl) hleft hsep hright

theorem SpellsSum.sub (hleft : SpellsSum inner cs t) (hsep : SpellsOperator '-' sep)
    (hright : Spells (EquationPractice.term inner) productOperators ds u) :
    SpellsSum inner (cs ++ (sep ++ ds)) (.sub t u) :=
  SpellsChain.operation (term_skipGaps inner) (by simp) (by decide) (fun _ => rfl) hleft hsep hright

end EquationPractice
