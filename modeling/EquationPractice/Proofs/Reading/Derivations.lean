import EquationPractice.Proofs.Reading.Lexemes
import EquationPractice.Proofs.Reading.Phrases

/-!
# What is read is derived

Every layer of the reader takes a text that the grammar derives from that layer, with the tree that
is returned.  This is one half of the agreement between the two; the other one is in
`Recognition.lean`.

## Strategy

A repetition has always read some text already, with some tree, and its next item extends both
(`exists_taken_many`).  For products and sums that is a production of the grammar.  A tower of
exponents is put together from its top, so there the induction runs the other way.
-/

namespace EquationPractice

open Text

variable {α β : Type}

/-- Whatever the reader takes is derived from the layer, with the tree that is returned. -/
def Takes (reader : Reader Expr) (layer : Layer) : Prop :=
  ∀ cs e rest, reader cs = .ok (e, rest) →
    ∃ taken, cs = taken ++ rest ∧ Derives layer taken rest e

/-- If every item extends what was taken before it, so does the whole repetition. -/
theorem exists_taken_many {item : Reader α} {taken : List Char → List Char → β → Prop}
    {extend : β → α → β}
    (hitem : ∀ before cs rest acc value, item cs = .ok (value, rest) → taken before cs acc →
      ∃ more, cs = more ++ rest ∧ taken (before ++ more) rest (extend acc value))
    {before cs : List Char} {acc : β} (hbefore : taken before cs acc) :
    ∃ more, cs = more ++ (many item cs).2 ∧
      taken (before ++ more) (many item cs).2 ((many item cs).1.foldl extend acc) := by
  induction cs using many.induct item generalizing before acc with
  | case1 cs stuck hread =>
      rw [many_stop hread]
      exact ⟨[], rfl, by simpa using hbefore⟩
  | case2 cs value rest hread hshorter values last hmany ih =>
      obtain ⟨more, hcs, htaken⟩ := hitem before cs rest acc value hread hbefore
      obtain ⟨others, hrest, hlast⟩ := ih htaken
      rw [many_cons hread hshorter]
      refine ⟨more ++ others, ?_, ?_⟩
      · rw [List.append_assoc, ← hrest]
        exact hcs
      · rw [← List.append_assoc]
        exact hlast
  | case3 cs value rest hread hshorter =>
      rw [many_stall hread hshorter]
      exact ⟨[], rfl, by simpa using hbefore⟩

/-! ## Atoms -/

variable {inner : Reader Expr} {cs rest : List Char} {e : Expr}

theorem exists_taken_group (hinner : Takes inner .sum) (hread : group inner cs = .ok (e, rest)) :
    ∃ taken, cs = taken ++ rest ∧ Derives .atom taken rest e := by
  obtain ⟨body, tail, hopen, hbody, hclose⟩ := group_eq_ok.mp hread
  obtain ⟨before, hbefore, hcs⟩ := exists_gaps hopen
  obtain ⟨between, hbetween, htail⟩ := exists_gaps hclose
  obtain ⟨taken, hbody, hderives⟩ := hinner _ _ _ hbody
  rw [htail] at hderives hbody
  refine ⟨_, ?_, .group hbefore hbetween hderives⟩
  rw [hcs, hbody]
  simp

theorem takes_atom (hinner : Takes inner .sum) : Takes (atom inner) .atom := by
  intro cs e rest hread
  obtain ⟨gaps, hgaps, hcs⟩ := exists_gaps (rfl : skipGaps cs = skipGaps cs)
  rcases atom_cases hread with ⟨q, hliteral, rfl⟩ | ⟨name, hname, rfl⟩ | hgroup
  · obtain ⟨taken, hskip, hvalue, hmaximal⟩ := maximal_of_decimal? hliteral
    refine ⟨gaps ++ taken, ?_, .literal hgaps hvalue hmaximal⟩
    rw [List.append_assoc, ← hskip]
    exact hcs
  · obtain ⟨taken, hskip, rfl, hmaximal⟩ := maximal_of_name? hname
    refine ⟨gaps ++ taken, ?_, .name hgaps hmaximal⟩
    rw [List.append_assoc, ← hskip]
    exact hcs
  · exact exists_taken_group hinner hgroup

/-! ## Towers and signs -/

/-- A storey is a caret, a run of signs and an atom. -/
theorem exists_of_storey {minus : ℕ} {operand : Expr}
    (hread : storey inner cs = .ok ((minus, operand), rest)) :
    ∃ gaps run mid, Gaps gaps ∧ cs = gaps ++ '^' :: (run ++ mid) ∧
      (∀ e, Signs run e (applySigns minus e)) ∧ atom inner mid = .ok (operand, rest) := by
  obtain ⟨after, hcaret, rfl, hatom⟩ := storey_eq_ok.mp hread
  obtain ⟨gaps, hgaps, hcs⟩ := exists_gaps (oneOf_eq_ok.mp hcaret).1
  obtain ⟨run, hafter, hrun⟩ := signs_of_signs after
  refine ⟨gaps, run, (signs after).2, hgaps, ?_, hrun, hatom⟩
  rw [← hafter]
  exact hcs

/-- Behind an atom that was taken, the storeys that follow make a tower of it. -/
theorem exists_taken_tower (hinner : Takes inner .sum) {before : List Char} {base : Expr}
    (hbase : Derives .atom before cs base) :
    ∃ more, cs = more ++ (many (storey inner) cs).2 ∧
      Derives .power (before ++ more) (many (storey inner) cs).2
        (raise base (many (storey inner) cs).1) := by
  induction cs using many.induct (storey inner) generalizing before base with
  | case1 cs stuck hread =>
      rw [many_stop hread]
      exact ⟨[], rfl, by simpa [raise] using Derives.base hbase⟩
  | case2 cs value rest hread hshorter values last hmany ih =>
      obtain ⟨minus, operand⟩ := value
      obtain ⟨gaps, run, mid, hgaps, rfl, hrun, hatom⟩ := exists_of_storey hread
      obtain ⟨taken, rfl, hoperand⟩ := takes_atom hinner _ _ _ hatom
      obtain ⟨more, hrest, hexponent⟩ := ih hoperand
      have htext : taken ++ rest = (taken ++ more) ++ (many (storey inner) rest).2 := by
        rw [List.append_assoc, ← hrest]
      rw [many_cons hread hshorter]
      rw [htext] at hbase ⊢
      exact ⟨gaps ++ '^' :: (run ++ (taken ++ more)), by simp,
        .pow hgaps hbase (hrun _) hexponent⟩
  | case3 cs value rest hread hshorter =>
      rw [many_stall hread hshorter]
      exact ⟨[], rfl, by simpa [raise] using Derives.base hbase⟩

theorem takes_power (hinner : Takes inner .sum) : Takes (power inner) .power := by
  intro cs e rest hread
  obtain ⟨base, tail, hatom, rfl, rfl⟩ := power_eq_ok.mp hread
  obtain ⟨taken, rfl, hbase⟩ := takes_atom hinner _ _ _ hatom
  obtain ⟨more, htail, htower⟩ := exists_taken_tower hinner hbase
  refine ⟨taken ++ more, ?_, htower⟩
  rw [List.append_assoc, ← htail]

theorem takes_signed (hinner : Takes inner .sum) : Takes (signed inner) .signed := by
  intro cs e rest hread
  obtain ⟨run, hcs, hrun⟩ := signs_of_signs cs
  obtain ⟨operand, hpower, rfl⟩ := signed_eq_ok.mp hread
  obtain ⟨taken, hrest, hderives⟩ := takes_power hinner _ _ _ hpower
  refine ⟨run ++ taken, ?_, .signed (hrun operand) hderives⟩
  rw [List.append_assoc, ← hrest]
  exact hcs

/-! ## Products and sums -/

/-- An operation is an operator and an operand. -/
theorem exists_of_operation {operators : List Char} {operand : Reader Expr} {operator : Char}
    (hread : operation operators operand cs = .ok ((operator, e), rest)) :
    ∃ gaps mid, Gaps gaps ∧ operator ∈ operators ∧ cs = gaps ++ operator :: mid ∧
      operand mid = .ok (e, rest) := by
  obtain ⟨mid, hoperator, hoperand⟩ := operation_eq_ok.mp hread
  obtain ⟨hskip, hmem⟩ := oneOf_eq_ok.mp hoperator
  obtain ⟨gaps, hgaps, hcs⟩ := exists_gaps hskip
  exact ⟨gaps, mid, hgaps, hmem, hcs, hoperand⟩

/-- Behind what was taken of a product or a sum, the operations that follow go on with it. -/
theorem exists_taken_operations (extend : Expr → Char × Expr → Expr) {operators : List Char}
    {operand : Reader Expr} {chain link : Layer} (hoperand : Takes operand link)
    (hextend : ∀ {before gaps ds rest operator acc e}, operator ∈ operators → Gaps gaps →
      Derives chain before (gaps ++ operator :: (ds ++ rest)) acc → Derives link ds rest e →
      Derives chain (before ++ (gaps ++ operator :: ds)) rest (extend acc (operator, e)))
    {before : List Char} {acc : Expr} (hbefore : Derives chain before cs acc) :
    ∃ more, cs = more ++ (many (operation operators operand) cs).2 ∧
      Derives chain (before ++ more) (many (operation operators operand) cs).2
        ((many (operation operators operand) cs).1.foldl extend acc) := by
  refine exists_taken_many ?_ hbefore
  intro before cs rest acc value hread hacc
  obtain ⟨operator, e⟩ := value
  obtain ⟨gaps, mid, hgaps, hmem, rfl, hmid⟩ := exists_of_operation hread
  obtain ⟨taken, rfl, hderives⟩ := hoperand _ _ _ hmid
  exact ⟨gaps ++ operator :: taken, by simp, hextend hmem hgaps hacc hderives⟩

theorem exists_taken_product (hinner : Takes inner .sum) {before : List Char} {first : Expr}
    (hbefore : Derives .product before cs first) :
    ∃ more, cs = more ++ (many (operation ['*', '/'] (signed inner)) cs).2 ∧
      Derives .product (before ++ more) (many (operation ['*', '/'] (signed inner)) cs).2
        (foldProduct first (many (operation ['*', '/'] (signed inner)) cs).1) := by
  refine exists_taken_operations extendProduct (takes_signed hinner) ?_ hbefore
  intro before gaps ds rest operator acc e hmem hgaps hleft hright
  rcases List.mem_cons.mp hmem with rfl | hslash
  · exact .mul hgaps hleft hright
  · obtain rfl := List.mem_singleton.mp hslash
    exact .div hgaps hleft hright

theorem takesFactor_iff : takesFactor e = true ↔ EndsInNumber e := by
  constructor
  · intro htakes
    induction e with
    | number q => exact .number q
    | pow base exponent => exact .pow base exponent
    | mul l r _ ihr => exact .mul (ihr htakes)
    | div l r _ ihr => exact .div (ihr htakes)
    | var | add | sub | neg => exact absurd htakes Bool.false_ne_true
  · intro hends
    induction hends with
    | number | pow => rfl
    | mul hright ih | div hright ih => exact ih

theorem exists_taken_factors (hinner : Takes inner .sum) {before : List Char} {acc : Expr}
    (hbefore : Derives .term before cs acc) :
    ∃ more, cs = more ++ (implicitFactors inner acc cs).2 ∧
      Derives .term (before ++ more) (implicitFactors inner acc cs).2
        (implicitFactors inner acc cs).1 := by
  induction acc, cs using implicitFactors.induct inner generalizing before with
  | case1 acc cs hstarts stuck hread =>
      rw [implicitFactors, if_pos hstarts, hread]
      exact ⟨[], rfl, by simpa using hbefore⟩
  | case2 acc cs hstarts factor rest hread hshorter ih =>
      rw [implicitFactors, if_pos hstarts, hread]
      simp only [hshorter, if_true]
      obtain ⟨hstart, htakes⟩ := Bool.and_eq_true_iff.mp hstarts
      obtain ⟨taken, rfl, hfactor⟩ := takes_power hinner _ _ _ hread
      cases taken with
      | nil => exact absurd hshorter (lt_irrefl _)
      | cons c ds =>
          have hc : startsName c = true ∨ c = '(' := by simpa [startsFactor] using hstart
          obtain ⟨more, hrest, hderives⟩ :=
            ih (Derives.factor hbefore (takesFactor_iff.mp htakes) hc hfactor)
          refine ⟨c :: ds ++ more, ?_, ?_⟩
          · rw [List.append_assoc, ← hrest]
          · rw [← List.append_assoc]
            exact hderives
  | case3 acc cs hstarts factor rest hread hshorter =>
      rw [implicitFactors, if_pos hstarts, hread]
      simp only [hshorter, if_false]
      exact ⟨[], rfl, by simpa using hbefore⟩
  | case4 acc cs hstarts =>
      rw [implicitFactors, if_neg hstarts]
      exact ⟨[], rfl, by simpa using hbefore⟩

theorem takes_term (hinner : Takes inner .sum) : Takes (term inner) .term := by
  intro cs e rest hread
  obtain ⟨first, tail, hfirst, hfactors⟩ := term_eq_ok.mp hread
  obtain ⟨taken, rfl, hsigned⟩ := takes_signed hinner _ _ _ hfirst
  obtain ⟨more, htail, hproduct⟩ := exists_taken_product hinner (.operand hsigned)
  obtain ⟨last, hlast, hterm⟩ := exists_taken_factors hinner (.product hproduct)
  rw [hfactors] at hlast hterm
  refine ⟨taken ++ more ++ last, ?_, hterm⟩
  rw [List.append_assoc, List.append_assoc, ← hlast, ← htail]

theorem exists_taken_sum (hinner : Takes inner .sum) {before : List Char} {first : Expr}
    (hbefore : Derives .sum before cs first) :
    ∃ more, cs = more ++ (many (operation ['+', '-'] (term inner)) cs).2 ∧
      Derives .sum (before ++ more) (many (operation ['+', '-'] (term inner)) cs).2
        (foldSum first (many (operation ['+', '-'] (term inner)) cs).1) := by
  refine exists_taken_operations extendSum (takes_term hinner) ?_ hbefore
  intro before gaps ds rest operator acc e hmem hgaps hleft hright
  rcases List.mem_cons.mp hmem with rfl | hminus
  · exact .add hgaps hleft hright
  · obtain rfl := List.mem_singleton.mp hminus
    exact .sub hgaps hleft hright

theorem takes_sum (hinner : Takes inner .sum) : Takes (sum inner) .sum := by
  intro cs e rest hread
  obtain ⟨first, tail, hfirst, rfl, rfl⟩ := sum_eq_ok.mp hread
  obtain ⟨taken, rfl, hterm⟩ := takes_term hinner _ _ _ hfirst
  obtain ⟨more, htail, hsum⟩ := exists_taken_sum hinner (.summand hterm)
  refine ⟨taken ++ more, ?_, hsum⟩
  rw [List.append_assoc, ← htail]

theorem takes_expression (levels : ℕ) : Takes (expression levels) .sum := by
  induction levels with
  | zero =>
      intro cs e rest hread
      exact absurd hread (by simp [expression])
  | succ levels ih => exact takes_sum ih

/-- What is read as an expression is derived as one. -/
theorem takes_readExpr : Takes readExpr .sum :=
  fun cs e rest hread => takes_expression (cs.length + 1) cs e rest hread

end EquationPractice
