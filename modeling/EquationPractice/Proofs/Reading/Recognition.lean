import EquationPractice.Proofs.Reading.Derivations
import EquationPractice.Proofs.Reading.Texts

/-!
# What is derived is read

The grammar does not say where a repetition ends; the reader takes whatever it can.  Nothing is lost
by that: a text that the grammar derives is read as a whole, and with the tree of the derivation.
Together with `Derivations.lean` this shows that the reader accepts exactly its grammar.

## Strategy

Behind a phrase stands what the grammar lets follow it, and none of that is an item of the
repetition that the phrase ends with: an operator binds less tightly, a parenthesis closes, or the
text is over.  `ReadAs` says for each layer how far the reader gets with a phrase, and under which
condition on what follows it stops right behind the phrase.  The induction is on the derivation; the
operands of a chain join by `OpensBefore.append`.

## Main definitions

* `OpensChain`: a chain of operations, with any operands and any operators.
* `ReadAs`: how the reader takes a phrase of each layer off a text.
-/

namespace EquationPractice

open Text

variable {inner : Reader Expr} {layer : Layer} {cs ds gaps run next : List Char} {e f : Expr}

/-- A text opens a chain of operations before a given continuation: once `extend` has carried out the
operations that are read off the text, their value is `e`. -/
def OpensChain (operand : Reader Expr) (operators : List Char)
    (extend : Expr → Char × Expr → Expr) (cs next : List Char) (e : Expr) : Prop :=
  ∃ first operations, OpensBefore operand (operation operators operand) cs next first operations ∧
    operations.foldl extend first = e

/-- How the reader takes a phrase of each layer off a text: whole, or with the rest of the chain
that it begins. -/
def ReadAs (inner : Reader Expr) : Layer → List Char → List Char → Expr → Prop
  | .atom, cs, next, e => atom inner (cs ++ next) = .ok (e, next)
  | .power, cs, next, e => ∃ base tower,
      OpensBefore (atom inner) (storey inner) cs next base tower ∧ raise base tower = e
  | .signed, cs, next, e => NoneAhead towerOperators next → signed inner (cs ++ next) = .ok (e, next)
  | .product, cs, next, e => NoneAhead towerOperators next →
      OpensChain (signed inner) ['*', '/'] extendProduct cs next e
  | .term, cs, next, e => NoneAhead productOperators next →
      term inner (cs ++ next) = .ok (implicitFactors inner e next)
  | .sum, cs, next, e => NoneAhead productOperators next → startsFactor next = false →
      OpensChain (term inner) ['+', '-'] extendSum cs next e

/-! ## Beginnings -/

theorem Unsigned.behind_gaps (hunsigned : Unsigned next) (hgaps : Gaps gaps) :
    Unsigned (gaps ++ next) := by
  unfold Unsigned at hunsigned ⊢
  rw [skipGaps_append hgaps]
  exact hunsigned

theorem unsigned_literal {q : ℚ} (hgaps : Gaps gaps) (hvalue : IsLiteral cs q) :
    Unsigned (gaps ++ cs ++ next) := by
  cases cs with
  | nil => exact absurd rfl hvalue.ne_nil
  | cons c tail =>
      rw [List.append_assoc]
      rcases hvalue.digit_or_point c List.mem_cons_self with hdigit | rfl
      · have hunsigned : Unsigned (c :: (tail ++ next)) :=
          unsigned_of_continuesName (continuesName_of_isDigit hdigit)
        exact hunsigned.behind_gaps hgaps
      · exact hgaps.noneAhead (by decide) (by decide)

theorem unsigned_name (hgaps : Gaps gaps) (hname : IsName cs) : Unsigned (gaps ++ cs ++ next) := by
  cases cs with
  | nil => exact hname.elim
  | cons c tail =>
      rw [List.append_assoc]
      have hunsigned : Unsigned (c :: (tail ++ next)) :=
        unsigned_of_continuesName (continuesName_of_startsName hname.1)
      exact hunsigned.behind_gaps hgaps

theorem Derives.unsigned_atom (hatom : Derives .atom cs next e) : Unsigned (cs ++ next) := by
  cases hatom with
  | literal hgaps hvalue hmaximal => exact unsigned_literal hgaps hvalue
  | name hgaps hmaximal => exact unsigned_name hgaps hmaximal.isToken
  | group hbefore hafter hbody =>
      rw [List.append_assoc, List.cons_append]
      exact hbefore.noneAhead (by decide) (by decide)

/-- No sign can be read off the front of a power. -/
theorem Derives.unsigned_power (hpower : Derives .power cs next e) : Unsigned (cs ++ next) := by
  cases hpower with
  | base hatom => exact hatom.unsigned_atom
  | pow hgaps hbase hrun hexponent =>
      have hunsigned := hbase.unsigned_atom
      simpa using hunsigned

/-! ## Ends -/

theorem not_startsFactor_of_isBlank {c : Char} {rest : List Char} (hblank : isBlank c = true) :
    startsFactor (c :: rest) = false := by
  have hname : startsName c = false := by
    rw [Bool.eq_false_iff]
    intro hname
    rw [not_isBlank_of_continuesName (continuesName_of_startsName hname)] at hblank
    exact absurd hblank Bool.false_ne_true
  have hopen : c ≠ '(' := by
    rintro rfl
    exact absurd hblank (by decide)
  simp [startsFactor, hname, hopen]

theorem Gaps.not_startsFactor {c : Char} {rest : List Char} (hgaps : Gaps gaps)
    (hc : startsName c = false ∧ c ≠ '(') : startsFactor (gaps ++ c :: rest) = false := by
  cases gaps with
  | nil => simp [startsFactor, hc]
  | cons d tail => exact not_startsFactor_of_isBlank (isBlank_of_isGap (hgaps d List.mem_cons_self))

theorem noneAhead_factor {c : Char} {rest : List Char} (hstart : startsName c = true ∨ c = '(') :
    NoneAhead productOperators (c :: rest) := by
  have hc : isGap c = false ∧ c ∉ productOperators := by
    rcases hstart with hname | rfl
    · refine ⟨not_isGap_of_continuesName (continuesName_of_startsName hname), ?_⟩
      intro hmem
      simp only [List.mem_cons, List.not_mem_nil, or_false] at hmem
      rcases hmem with rfl | rfl | rfl
      all_goals exact absurd hname (by decide)
    · exact ⟨by decide, by decide⟩
  exact gaps_nil.noneAhead hc.1 hc.2

/-- An operator of a product is no gap, and no tower goes on with it. -/
theorem plain_of_mem_operations {operator : Char} (hmem : operator ∈ ['*', '/']) :
    isGap operator = false ∧ operator ∉ towerOperators := by
  simp only [List.mem_cons, List.not_mem_nil, or_false] at hmem
  rcases hmem with rfl | rfl
  all_goals decide

/-- A sign is no gap, no product goes on with it, and it starts no factor. -/
theorem plain_of_mem_signs {operator : Char} (hmem : operator ∈ ['+', '-']) :
    isGap operator = false ∧ operator ∉ productOperators ∧
      startsName operator = false ∧ operator ≠ '(' := by
  simp only [List.mem_cons, List.not_mem_nil, or_false] at hmem
  rcases hmem with rfl | rfl
  all_goals decide

/-! ## One production at a time -/

theorem readAs_literal {q : ℚ} (hgaps : Gaps gaps) (hvalue : IsLiteral cs q)
    (hmaximal : Maximal (fun token => ∃ value, IsLiteral token value) cs next) :
    ReadAs inner .atom (gaps ++ cs) next (.number q) := by
  have hskip : skipGaps (cs ++ next) = cs ++ next := by
    cases cs with
    | nil => exact absurd rfl hvalue.ne_nil
    | cons c tail =>
        rcases hvalue.digit_or_point c List.mem_cons_self with hdigit | rfl
        · have hname := continuesName_of_isDigit hdigit
          exact skipGaps_cons_of_not_isGap (not_isGap_of_continuesName hname)
        · exact skipGaps_cons_of_not_isGap (by decide)
  rw [ReadAs, List.append_assoc, atom_gaps hgaps]
  unfold atom
  rw [hskip, decimal?_of_maximal hvalue hmaximal]

theorem readAs_name (hgaps : Gaps gaps) (hmaximal : Maximal IsName cs next) :
    ReadAs inner .atom (gaps ++ cs) next (.var (String.ofList cs)) := by
  have hread := name?_of_maximal hmaximal
  rw [ReadAs, List.append_assoc, atom_gaps hgaps]
  cases cs with
  | nil => exact hmaximal.isToken.elim
  | cons c tail =>
      have hstart := hmaximal.isToken.1
      have hgap := not_isGap_of_continuesName (continuesName_of_startsName hstart)
      have hpoint : c ≠ '.' := by
        rintro rfl
        exact absurd hstart (by decide)
      have hliteral : decimal? (c :: tail ++ next) = none := by
        refine decimal?_eq_none (headFree_cons.mpr ?_)
        simp [not_isDigit_of_startsName hstart, hpoint]
      unfold atom
      rw [List.cons_append, skipGaps_cons_of_not_isGap hgap, ← List.cons_append, hliteral, hread]

theorem readAs_group {before body after : List Char} (hbefore : Gaps before) (hafter : Gaps after)
    (hbody : inner (body ++ (after ++ ')' :: next)) = .ok (e, after ++ ')' :: next)) :
    ReadAs inner .atom (before ++ '(' :: (body ++ (after ++ [')']))) next e := by
  have htext : before ++ '(' :: (body ++ (after ++ [')'])) ++ next =
      before ++ '(' :: (body ++ (after ++ ')' :: next)) := by
    simp
  rw [ReadAs, htext, atom_gaps hbefore]
  exact atom_group hbody (hafter.skipGaps_cons (by decide))

theorem ReadAs.base (hatom : ReadAs inner .atom cs next e) : ReadAs inner .power cs next e :=
  ⟨e, [], OpensBefore.of_head hatom, rfl⟩

theorem ReadAs.pow {x : Expr} (hgaps : Gaps gaps)
    (hbase : ReadAs inner .atom cs (gaps ++ '^' :: (run ++ (ds ++ next))) e)
    (hrun : Signs run f x) (hunsigned : Unsigned (ds ++ next))
    (hexponent : ReadAs inner .power ds next f) :
    ReadAs inner .power (cs ++ (gaps ++ '^' :: (run ++ ds))) next (.pow e x) := by
  obtain ⟨base, tower, hopens, rfl⟩ := hexponent
  obtain ⟨minus, hsigns, rfl⟩ := hrun.signs_append hunsigned
  have hcaret : oneOf ['^'] (gaps ++ '^' :: (run ++ (ds ++ next))) =
      .ok ('^', run ++ (ds ++ next)) :=
    oneOf_eq_ok.mpr ⟨hgaps.skipGaps_cons (by decide), by simp⟩
  have hsep : ∀ rest, gaps ++ '^' :: (run ++ rest) = (gaps ++ '^' :: run) ++ rest := by simp
  have hhead : OpensBefore (atom inner) (storey inner) cs ((gaps ++ '^' :: run) ++ (ds ++ next)) e
      [] := by
    rw [← hsep]
    exact OpensBefore.of_head hbase
  refine ⟨e, (minus, base) :: tower, ?_, rfl⟩
  rw [hsep]
  refine hhead.append hopens (by simp) ?_
  intro mid hatom
  rw [← hsep]
  simp only [storey, hcaret, hsigns, hatom]

theorem ReadAs.power (hread : ReadAs inner .power cs next e) (hnext : NoneAhead towerOperators next) :
    power inner (cs ++ next) = .ok (e, next) := by
  obtain ⟨base, tower, hopens, rfl⟩ := hread
  have hstorey : storey inner next = .error ⟨skipGaps next⟩ := by
    simp only [storey, oneOf_eq_error hnext]
  obtain ⟨mid, hatom, hmany⟩ := hopens.close hstorey
  simp only [EquationPractice.power, hatom, hmany]

theorem ReadAs.signed (hrun : Signs run e f) (hunsigned : Unsigned (cs ++ next))
    (hpower : ReadAs inner .power cs next e) : ReadAs inner .signed (run ++ cs) next f := by
  intro hnext
  obtain ⟨minus, hsigns, rfl⟩ := hrun.signs_append hunsigned
  rw [List.append_assoc]
  simp only [EquationPractice.signed, hsigns, hpower.power hnext]

/-- A chain of operations is made longer by one. -/
theorem OpensBefore.operation {operand : Reader Expr} {operators : List Char} {operator : Char}
    {first : Expr} {operations : List (Char × Expr)} (hgaps : Gaps gaps)
    (hmem : operator ∈ operators) (hgap : isGap operator = false)
    (hleft : OpensBefore operand (operation operators operand) cs
      (gaps ++ operator :: (ds ++ next)) first operations)
    (hright : operand (ds ++ next) = .ok (f, next)) :
    OpensBefore operand (EquationPractice.operation operators operand)
      (cs ++ (gaps ++ operator :: ds)) next first (operations ++ [(operator, f)]) := by
  have hsep : ∀ rest, gaps ++ operator :: rest = (gaps ++ [operator]) ++ rest := by simp
  have hread : oneOf operators (gaps ++ operator :: (ds ++ next)) = .ok (operator, ds ++ next) :=
    oneOf_eq_ok.mpr ⟨hgaps.skipGaps_cons hgap, hmem⟩
  rw [hsep] at hleft ⊢
  refine hleft.append (OpensBefore.of_head hright) (by simp) ?_
  intro mid hoperand
  rw [← hsep]
  simp only [EquationPractice.operation, hread, hoperand]

/-- A chain of operations goes on with any operation that can be read behind it. -/
theorem OpensBefore.many_operation {operand : Reader Expr} {operators rest : List Char}
    {operator : Char} {first : Expr} {operations : List (Char × Expr)} (hgaps : Gaps gaps)
    (hmem : operator ∈ operators) (hgap : isGap operator = false)
    (hopens : OpensBefore operand (EquationPractice.operation operators operand) cs
      (gaps ++ operator :: ds) first operations)
    (hoperand : operand ds = .ok (f, rest)) (hlength : rest.length ≤ ds.length) :
    ∃ mid, operand (cs ++ (gaps ++ operator :: ds)) = .ok (first, mid) ∧
      many (EquationPractice.operation operators operand) mid =
        (operations ++ (operator, f) ::
          (many (EquationPractice.operation operators operand) rest).1,
          (many (EquationPractice.operation operators operand) rest).2) := by
  obtain ⟨mid, hhead, -, hmany⟩ := hopens
  have hread : oneOf operators (gaps ++ operator :: ds) = .ok (operator, ds) :=
    oneOf_eq_ok.mpr ⟨hgaps.skipGaps_cons hgap, hmem⟩
  have hitem : EquationPractice.operation operators operand (gaps ++ operator :: ds) =
      .ok ((operator, f), rest) :=
    operation_eq_ok.mpr ⟨ds, hread, hoperand⟩
  have hshorter : rest.length < (gaps ++ operator :: ds).length := by
    simp only [List.length_append, List.length_cons]
    omega
  exact ⟨mid, hhead, by rw [hmany, many_cons hitem hshorter]⟩

section OpensChain

variable {operand : Reader Expr} {operators : List Char} {operator : Char}
  {extend : Expr → Char × Expr → Expr}

/-- A single operand is a chain. -/
theorem OpensChain.of_operand (hoperand : operand (cs ++ next) = .ok (e, next)) :
    OpensChain operand operators extend cs next e :=
  ⟨e, [], OpensBefore.of_head hoperand, rfl⟩

/-- A chain is carried on by an operation. -/
theorem OpensChain.snoc (hgaps : Gaps gaps) (hmem : operator ∈ operators)
    (hgap : isGap operator = false)
    (hleft : OpensChain operand operators extend cs (gaps ++ operator :: (ds ++ next)) e)
    (hright : operand (ds ++ next) = .ok (f, next)) :
    OpensChain operand operators extend (cs ++ (gaps ++ operator :: ds)) next
      (extend e (operator, f)) := by
  obtain ⟨first, operations, hopens, rfl⟩ := hleft
  refine ⟨first, operations ++ [(operator, f)], hopens.operation hgaps hmem hgap hright, ?_⟩
  rw [List.foldl_append]
  rfl

/-- A chain is over where no operation follows. -/
theorem OpensChain.close (hchain : OpensChain operand operators extend cs next e)
    (hnext : NoneAhead operators next) :
    ∃ first mid, operand (cs ++ next) = .ok (first, mid) ∧
      (many (operation operators operand) mid).1.foldl extend first = e ∧
      (many (operation operators operand) mid).2 = next := by
  obtain ⟨first, operations, hopens, rfl⟩ := hchain
  obtain ⟨mid, hfirst, hmany⟩ := hopens.close (operation_stuck hnext)
  exact ⟨first, mid, hfirst, by rw [hmany], by rw [hmany]⟩

/-- A sum of any operands is read whole where no sign follows. -/
theorem sumOf_of_opensChain (hchain : OpensChain operand ['+', '-'] extendSum cs next e)
    (hnext : NoneAhead ['+', '-'] next) : sumOf operand (cs ++ next) = .ok (e, next) :=
  sumOf_eq_ok.mpr (hchain.close hnext)

end OpensChain

theorem ReadAs.operand (hsigned : ReadAs inner .signed cs next e) :
    ReadAs inner .product cs next e :=
  fun hnext => .of_operand (hsigned hnext)

theorem ReadAs.extend_product {operator : Char} (hmem : operator ∈ ['*', '/']) (hgaps : Gaps gaps)
    (hleft : ReadAs inner .product cs (gaps ++ operator :: (ds ++ next)) e)
    (hright : ReadAs inner .signed ds next f) :
    ReadAs inner .product (cs ++ (gaps ++ operator :: ds)) next (extendProduct e (operator, f)) := by
  obtain ⟨hgap, hnot⟩ := plain_of_mem_operations hmem
  intro hnext
  exact OpensChain.snoc hgaps hmem hgap (hleft (hgaps.noneAhead hgap hnot)) (hright hnext)

/-- A product is read whole where no operation follows. -/
theorem product_of_readAs (hproduct : ReadAs inner .product cs next e)
    (hnext : NoneAhead productOperators next) : product inner (cs ++ next) = .ok (e, next) :=
  product_eq_ok.mpr (OpensChain.close (hproduct (hnext.subset (by simp))) (hnext.subset (by simp)))

theorem ReadAs.product (hproduct : ReadAs inner .product cs next e) :
    ReadAs inner .term cs next e := by
  intro hnext
  rw [term_eq_product, product_of_readAs hproduct hnext]
  rfl

theorem ReadAs.factor {c : Char} (hleft : ReadAs inner .term cs (c :: (ds ++ next)) e)
    (hends : EndsInNumber e) (hstart : startsName c = true ∨ c = '(')
    (hfactor : ReadAs inner .power (c :: ds) next f) :
    ReadAs inner .term (cs ++ c :: ds) next (.mul e f) := by
  intro hnext
  have hpower := hfactor.power (hnext.subset (by simp))
  have hstarts : (startsFactor (c :: (ds ++ next)) && takesFactor e) = true := by
    simpa [startsFactor, takesFactor_iff.mpr hends] using hstart
  have hread := hleft (noneAhead_factor hstart)
  rw [implicitFactors, if_pos hstarts] at hread
  rw [List.cons_append] at hpower
  rw [List.append_assoc, List.cons_append, hread, hpower]
  have hlength : next.length < (c :: (ds ++ next)).length := by
    simp only [List.length_cons, List.length_append]
    omega
  simp only [hlength, if_true]

/-- A term is read whole where no factor follows. -/
theorem ReadAs.term (hterm : ReadAs inner .term cs next e) (hnext : NoneAhead productOperators next)
    (hfactor : startsFactor next = false) :
    EquationPractice.term inner (cs ++ next) = .ok (e, next) := by
  have hstop : implicitFactors inner e next = (e, next) := by
    rw [implicitFactors, hfactor]
    simp
  rw [hterm hnext, hstop]

theorem ReadAs.summand (hterm : ReadAs inner .term cs next e) : ReadAs inner .sum cs next e :=
  fun hnext hfactor => .of_operand (hterm.term hnext hfactor)

theorem ReadAs.extend_sum {operator : Char} (hmem : operator ∈ ['+', '-']) (hgaps : Gaps gaps)
    (hleft : ReadAs inner .sum cs (gaps ++ operator :: (ds ++ next)) e)
    (hright : ReadAs inner .term ds next f) :
    ReadAs inner .sum (cs ++ (gaps ++ operator :: ds)) next (extendSum e (operator, f)) := by
  obtain ⟨hgap, hnot, hstart⟩ := plain_of_mem_signs hmem
  intro hnext hfactor
  have hchain := hleft (hgaps.noneAhead hgap hnot) (hgaps.not_startsFactor hstart)
  exact OpensChain.snoc hgaps hmem hgap hchain (hright.term hnext hfactor)

theorem ReadAs.sum (hread : ReadAs inner .sum cs next e) (hnext : NoneAhead sumOperators next)
    (hfactor : startsFactor next = false) :
    EquationPractice.sum inner (cs ++ next) = .ok (e, next) :=
  sumOf_of_opensChain (hread (hnext.subset (by simp)) hfactor) (hnext.subset (by simp))

/-! ## Whole texts -/

/-- A phrase is read with as many levels of parentheses as it has characters. -/
theorem Derives.readAs (hderives : Derives layer cs next e) {levels : ℕ}
    (hlevels : cs.length ≤ levels) : ReadAs (expression levels) layer cs next e := by
  induction hderives generalizing levels with
  | literal hgaps hvalue hmaximal => exact readAs_literal hgaps hvalue hmaximal
  | name hgaps hmaximal => exact readAs_name hgaps hmaximal
  | group hbefore hafter hbody ih =>
      -- a pair of parentheses makes up for the level that it takes
      simp only [List.length_append, List.length_cons] at hlevels
      obtain ⟨fewer, rfl⟩ := Nat.exists_eq_succ_of_ne_zero (show levels ≠ 0 by omega)
      have hread := ih (show _ ≤ fewer by omega)
      exact readAs_group hbefore hafter (hread.sum (hafter.noneAhead (by decide) (by decide))
        (hafter.not_startsFactor ⟨by decide, by decide⟩))
  | base hatom ih => exact (ih hlevels).base
  | pow hgaps hbase hrun hexponent ihbase ihexponent =>
      simp only [List.length_append, List.length_cons] at hlevels
      exact (ihbase (by omega)).pow hgaps hrun hexponent.unsigned_power (ihexponent (by omega))
  | signed hrun hpower ih =>
      simp only [List.length_append] at hlevels
      exact (ih (by omega)).signed hrun hpower.unsigned_power
  | operand hsigned ih => exact (ih hlevels).operand
  | mul hgaps hleft hright ihl ihr =>
      simp only [List.length_append, List.length_cons] at hlevels
      exact (ihl (by omega)).extend_product (by simp) hgaps (ihr (by omega))
  | div hgaps hleft hright ihl ihr =>
      simp only [List.length_append, List.length_cons] at hlevels
      exact (ihl (by omega)).extend_product (by simp) hgaps (ihr (by omega))
  | product hproduct ih => exact (ih hlevels).product
  | factor hleft hends hstart hfactor ihl ihr =>
      simp only [List.length_append, List.length_cons] at hlevels
      exact (ihl (by omega)).factor hends hstart (ihr (by simp only [List.length_cons]; omega))
  | summand hterm ih => exact (ih hlevels).summand
  | add hgaps hleft hright ihl ihr =>
      simp only [List.length_append, List.length_cons] at hlevels
      exact (ihl (by omega)).extend_sum (by simp) hgaps (ihr (by omega))
  | sub hgaps hleft hright ihl ihr =>
      simp only [List.length_append, List.length_cons] at hlevels
      exact (ihl (by omega)).extend_sum (by simp) hgaps (ihr (by omega))

/-- What is derived as an expression is read as one, where nothing goes on behind it. -/
theorem Derives.readExpr (hderives : Derives .sum cs next e) (hnext : NoneAhead sumOperators next)
    (hfactor : startsFactor next = false) :
    EquationPractice.readExpr (cs ++ next) = .ok (e, next) := by
  have hlevels : cs.length ≤ (cs ++ next).length := by simp
  exact (hderives.readAs hlevels).sum hnext hfactor

/-- Nothing goes on behind an expression in a run of blanks. -/
theorem noneAhead_blanks {blanks : List Char} (hblanks : ∀ c ∈ blanks, isBlank c = true) :
    NoneAhead sumOperators blanks := by
  intro c hc
  have hmem : c ∈ skipGaps blanks := List.mem_of_mem_head? hc
  have hblank := hblanks c ((List.dropWhile_sublist isGap).subset hmem)
  refine decide_eq_false ?_
  intro hoperator
  simp only [List.mem_cons, List.not_mem_nil, or_false] at hoperator
  rcases hoperator with rfl | rfl | rfl | rfl | rfl
  all_goals exact absurd hblank (by decide)

theorem not_startsFactor_blanks {blanks : List Char} (hblanks : ∀ c ∈ blanks, isBlank c = true) :
    startsFactor blanks = false := by
  cases blanks with
  | nil => rfl
  | cons c tail => exact not_startsFactor_of_isBlank (hblanks c List.mem_cons_self)

/-- The reader accepts exactly its grammar.  A text that is not blank, not too long and not nested
too deeply is read as an expression if and only if the grammar derives it from a sum with that tree,
blanks at its end aside. -/
theorem parse_eq_ok_iff_derives (text : String) (e : Expr)
    (hblank : ∃ c ∈ text.toList, isBlank c = false) (hlength : text.length ≤ maxLength)
    (hnesting : nestsWithin maxNesting 0 text.toList = true) :
    parse text = .ok e ↔ ∃ cs blanks, text.toList = cs ++ blanks ∧
      (∀ c ∈ blanks, isBlank c = true) ∧ Derives .sum cs blanks e := by
  have hcheck : checkText text.toList = .ok () :=
    checkText_eq_ok.mpr ⟨hblank, by rwa [String.length_toList], hnesting⟩
  unfold parse parseChars parseBy
  rw [hcheck]
  constructor
  · intro hparse
    simp only at hparse
    split at hparse
    · exact absurd hparse (by simp)
    · next e' rest hread =>
        split at hparse
        · next hrest =>
            obtain rfl := Except.ok.inj hparse
            obtain ⟨taken, htext, hderives⟩ := takes_readExpr _ _ _ hread
            exact ⟨taken, rest, htext, List.all_eq_true.mp hrest, hderives⟩
        · exact absurd hparse (by simp)
  · intro hderived
    obtain ⟨cs, blanks, htext, hblanks, hderives⟩ := hderived
    have hread := hderives.readExpr (noneAhead_blanks hblanks) (not_startsFactor_blanks hblanks)
    rw [htext, hread]
    simp only [List.all_eq_true.mpr hblanks, if_true]

/-- A power is multiplied onto a signed number and a group onto a decimal fraction, and a no-break
space at the end does no harm. -/
theorem derives_implicit_factors :
    (∃ c ∈ "-2x^-2 - .5(y+1)\u00a0".toList, isBlank c = false) ∧
      "-2x^-2 - .5(y+1)\u00a0".length ≤ maxLength ∧
      nestsWithin maxNesting 0 "-2x^-2 - .5(y+1)\u00a0".toList = true ∧
      ∃ cs blanks, "-2x^-2 - .5(y+1)\u00a0".toList = cs ++ blanks ∧
        (∀ c ∈ blanks, isBlank c = true) ∧
        Derives .sum cs blanks
          (.sub (.mul (.number (-2)) (.pow (.var "x") (.number (-2))))
            (.mul (.number (mkRat 1 2)) (.add (.var "y") (.number 1)))) := by
  have hblank : ∃ c ∈ "-2x^-2 - .5(y+1)\u00a0".toList, isBlank c = false :=
    ⟨'2', by decide +kernel, by decide +kernel⟩
  have hlength : "-2x^-2 - .5(y+1)\u00a0".length ≤ maxLength := by decide +kernel
  have hnests : nestsWithin maxNesting 0 "-2x^-2 - .5(y+1)\u00a0".toList = true := by
    decide +kernel
  refine ⟨hblank, hlength, hnests, ?_⟩
  exact (parse_eq_ok_iff_derives _ _ hblank hlength hnests).mp (by decide +kernel)

end EquationPractice
