import EquationPractice.Proofs.Reading.Tokens

/-!
# Reading layer by layer

Every layer of the reader is a head followed by as many items as possible: an atom and the storeys
of its tower, a signed power and the operations of a product, a product and the operations of a sum.
This file says once how such a layer reads a text that is put together from parts, so that the text
of an expression can be read by induction on how it was written.

## Strategy

A repetition takes whatever it can, so what it takes from a text depends on what stands behind the
text.  `Opens` therefore speaks of all continuations at once: the head and the items of a text are
read, and the repetition then goes on with the continuation as if it began there.  Two texts that
open a layer are joined by the text of an operator, `Opens.append`, and the layer is closed where no
further item can follow.

## Main definitions

* `Stops`: a continuation at which no token and none of some operators goes on.
* `OpensBefore`: before a given continuation, a text is the head of a layer and a list of items.
* `Opens`: it is so before every continuation at which the layer may end.
-/

namespace EquationPractice

open Text

variable {α β : Type}

/-! ## Repetitions -/

section many

variable {item : Reader α} {value : α} {cs rest : List Char} {stuck : Mismatch}

theorem many_cons (hitem : item cs = .ok (value, rest)) (hlength : rest.length < cs.length) :
    many item cs = (value :: (many item rest).1, (many item rest).2) := by
  rw [many, hitem]
  simp [hlength]

theorem many_stop (hitem : item cs = .error stuck) : many item cs = ([], cs) := by
  rw [many, hitem]

/-- A repetition ends with an item that takes nothing. -/
theorem many_stall (hitem : item cs = .ok (value, rest)) (hlength : ¬rest.length < cs.length) :
    many item cs = ([], cs) := by
  rw [many, hitem]
  simp only [hlength, if_false]

/-- A repetition leaves no more than there was. -/
theorem length_many_le (item : Reader α) (cs : List Char) :
    (many item cs).2.length ≤ cs.length := by
  induction cs using many.induct item with
  | case1 cs stuck hread => rw [many_stop hread]
  | case2 cs value rest hread hshorter values last hmany ih =>
      rw [many_cons hread hshorter]
      exact ih.trans hshorter.le
  | case3 cs value rest hread hshorter => rw [many_stall hread hshorter]

/-- Where a repetition ends, no item takes anything. -/
theorem many_exhausted (hitem : item (many item cs).2 = .ok (value, rest)) :
    ¬rest.length < (many item cs).2.length := by
  induction cs using many.induct item with
  | case1 cs stuck hread =>
      rw [many_stop hread, hread] at hitem
      exact absurd hitem (by simp)
  | case2 cs first mid hread hshorter values last hmany ih =>
      rw [many_cons hread hshorter] at hitem ⊢
      exact ih hitem
  | case3 cs first mid hread hshorter =>
      rw [many_stall hread hshorter] at hitem ⊢
      rw [hread, Except.ok.injEq, Prod.mk.injEq] at hitem
      rw [← hitem.2]
      exact hshorter

end many

/-! ## Taking a layer apart -/

section Inversion

variable {inner operand : Reader Expr} {operators cs rest : List Char} {operator : Char} {e : Expr}
  {minus : ℕ}

theorem group_eq_ok : group inner cs = .ok (e, rest) ↔
    ∃ body mid, skipGaps cs = '(' :: body ∧ inner body = .ok (e, mid) ∧
      skipGaps mid = ')' :: rest := by
  constructor
  · intro hread
    unfold group at hread
    split at hread
    · next body hopen =>
        split at hread
        · exact absurd hread (by simp)
        · next e' mid hbody =>
            split at hread
            · next after hclose =>
                simp only [Except.ok.injEq, Prod.mk.injEq] at hread
                obtain ⟨rfl, rfl⟩ := hread
                exact ⟨body, mid, hopen, hbody, hclose⟩
            · exact absurd hread (by simp)
    · exact absurd hread (by simp)
  · rintro ⟨body, mid, hopen, hbody, hclose⟩
    simp only [group, hopen, hbody, hclose]

/-- An atom is a literal, a name or a group. -/
theorem atom_cases (hread : atom inner cs = .ok (e, rest)) :
    (∃ q, decimal? (skipGaps cs) = some (q, rest) ∧ e = .number q) ∨
    (∃ name, name? (skipGaps cs) = some (name, rest) ∧ e = .var name) ∨
    group inner cs = .ok (e, rest) := by
  unfold atom at hread
  split at hread
  · next q tail hliteral =>
      simp only [Except.ok.injEq, Prod.mk.injEq] at hread
      obtain ⟨rfl, rfl⟩ := hread
      exact Or.inl ⟨q, hliteral, rfl⟩
  · split at hread
    · next name tail hname =>
        simp only [Except.ok.injEq, Prod.mk.injEq] at hread
        obtain ⟨rfl, rfl⟩ := hread
        exact Or.inr (Or.inl ⟨name, hname, rfl⟩)
    · exact Or.inr (Or.inr hread)

theorem storey_eq_ok : storey inner cs = .ok ((minus, e), rest) ↔
    ∃ after, oneOf ['^'] cs = .ok ('^', after) ∧ (signs after).1 = minus ∧
      atom inner (signs after).2 = .ok (e, rest) := by
  unfold storey
  cases hcaret : oneOf ['^'] cs with
  | error stuck => simp
  | ok result =>
      obtain ⟨c, after⟩ := result
      obtain rfl := List.mem_singleton.mp (oneOf_eq_ok.mp hcaret).2
      cases hatom : atom inner (signs after).2 with
      | error stuck => simp [hatom]
      | ok result => simp [hatom, Prod.ext_iff, and_assoc]

theorem power_eq_ok : power inner cs = .ok (e, rest) ↔
    ∃ base mid, atom inner cs = .ok (base, mid) ∧ raise base (many (storey inner) mid).1 = e ∧
      (many (storey inner) mid).2 = rest := by
  unfold power
  cases atom inner cs with
  | error stuck => simp
  | ok result => simp [Prod.ext_iff, and_assoc]

theorem signed_eq_ok : signed inner cs = .ok (e, rest) ↔
    ∃ operand, power inner (signs cs).2 = .ok (operand, rest) ∧
      applySigns (signs cs).1 operand = e := by
  unfold signed
  cases hpower : power inner (signs cs).2 with
  | error stuck => simp [hpower]
  | ok result => simp [hpower, Prod.ext_iff, and_assoc, and_comm]

theorem operation_eq_ok : operation operators operand cs = .ok ((operator, e), rest) ↔
    ∃ after, oneOf operators cs = .ok (operator, after) ∧ operand after = .ok (e, rest) := by
  unfold operation
  cases oneOf operators cs with
  | error stuck => simp
  | ok result =>
      cases hoperand : operand result.2 with
      | error stuck => simp [hoperand, Prod.ext_iff]
      | ok result => simp [hoperand, Prod.ext_iff, and_assoc]

/-- Reads a product up to its last operator; the factors that follow without one are left. -/
def product (inner : Reader Expr) : Reader Expr := fun cs =>
  match signed inner cs with
  | .error stuck => .error stuck
  | .ok (first, rest) =>
      let (operations, last) := many (operation ['*', '/'] (signed inner)) rest
      .ok (foldProduct first operations, last)

theorem product_eq_ok : product inner cs = .ok (e, rest) ↔
    ∃ first mid, signed inner cs = .ok (first, mid) ∧
      foldProduct first (many (operation ['*', '/'] (signed inner)) mid).1 = e ∧
      (many (operation ['*', '/'] (signed inner)) mid).2 = rest := by
  unfold product
  cases signed inner cs with
  | error stuck => simp
  | ok result => simp [Prod.ext_iff, and_assoc]

/-- A term is a product and the factors that follow it. -/
theorem term_eq_product : term inner cs =
    (product inner cs).map fun (first, rest) => implicitFactors inner first rest := by
  unfold term product
  cases signed inner cs with
  | error stuck => rfl
  | ok result => rfl

theorem term_eq_ok : term inner cs = .ok (e, rest) ↔
    ∃ first mid, signed inner cs = .ok (first, mid) ∧
      implicitFactors inner (foldProduct first (many (operation ['*', '/'] (signed inner)) mid).1)
        (many (operation ['*', '/'] (signed inner)) mid).2 = (e, rest) := by
  unfold term
  cases signed inner cs with
  | error stuck => simp
  | ok result => simp [Prod.ext_iff, and_assoc]

theorem sumOf_eq_ok {operand : Reader Expr} : sumOf operand cs = .ok (e, rest) ↔
    ∃ first mid, operand cs = .ok (first, mid) ∧
      foldSum first (many (operation ['+', '-'] operand) mid).1 = e ∧
      (many (operation ['+', '-'] operand) mid).2 = rest := by
  unfold sumOf
  cases operand cs with
  | error stuck => simp
  | ok result => simp [Prod.ext_iff, and_assoc]

theorem sum_eq_ok : sum inner cs = .ok (e, rest) ↔
    ∃ first mid, term inner cs = .ok (first, mid) ∧
      foldSum first (many (operation ['+', '-'] (term inner)) mid).1 = e ∧
      (many (operation ['+', '-'] (term inner)) mid).2 = rest :=
  sumOf_eq_ok

end Inversion

/-! ## Factors that follow at once -/

section implicitFactors

variable {inner : Reader Expr} {cs rest : List Char} {acc factor : Expr} {stuck : Mismatch}

theorem implicitFactors_cons (hstarts : startsFactor cs = true) (htakes : takesFactor acc = true)
    (hread : power inner cs = .ok (factor, rest)) (hlength : rest.length < cs.length) :
    implicitFactors inner acc cs = implicitFactors inner (.mul acc factor) rest := by
  rw [implicitFactors, hstarts, htakes, hread]
  simp [hlength]

theorem implicitFactors_stop (hnone : startsFactor cs = false ∨ takesFactor acc = false) :
    implicitFactors inner acc cs = (acc, cs) := by
  rw [implicitFactors, if_neg]
  rcases hnone with hnone | hnone <;> simp [hnone]

theorem implicitFactors_stuck (hread : power inner cs = .error stuck) :
    implicitFactors inner acc cs = (acc, cs) := by
  rw [implicitFactors, hread]
  exact ite_self _

theorem length_implicitFactors_le (inner : Reader Expr) (acc : Expr) (cs : List Char) :
    (implicitFactors inner acc cs).2.length ≤ cs.length := by
  induction acc, cs using implicitFactors.induct inner with
  | case1 acc cs hstarts stuck hread => rw [implicitFactors_stuck hread]
  | case2 acc cs hstarts factor rest hread hshorter ih =>
      obtain ⟨hstart, htakes⟩ := Bool.and_eq_true_iff.mp hstarts
      rw [implicitFactors_cons hstart htakes hread hshorter]
      exact ih.trans hshorter.le
  | case3 acc cs hstarts factor rest hread hshorter =>
      rw [implicitFactors, if_pos hstarts, hread]
      simp only [hshorter, if_false]
      exact le_rfl
  | case4 acc cs hstarts =>
      rw [implicitFactors, if_neg hstarts]

end implicitFactors

/-! ## Continuations -/

/-- Behind this point no token goes on, no factor follows at once, and none of the given operators
comes next. -/
structure Stops (operators rest : List Char) : Prop where
  token : HeadFree (fun c => continuesName c || c == '.' || c == '(') rest
  operator : HeadFree (· ∈ operators) (skipGaps rest)

section Stops

variable {operators fewer rest : List Char} {c : Char}

@[simp] theorem stops_nil : Stops operators [] :=
  ⟨headFree_nil, by simp⟩

theorem stops_cons (hgap : isGap c = false)
    (htoken : (continuesName c || c == '.' || c == '(') = false) (hoperator : c ∉ operators) :
    Stops operators (c :: rest) :=
  ⟨headFree_cons.mpr htoken, by
    rw [skipGaps_cons_of_not_isGap hgap, headFree_cons]
    simpa using hoperator⟩

theorem stops_append {gaps : List Char} (hgaps : ∀ c ∈ gaps, isGap c = true)
    (hrest : Stops operators rest) : Stops operators (gaps ++ rest) := by
  refine ⟨?_, by rw [skipGaps_append hgaps]; exact hrest.operator⟩
  cases gaps with
  | nil => exact hrest.token
  | cons c tail =>
      have hgap := isGap_iff.mp (hgaps c List.mem_cons_self)
      refine headFree_cons.mpr ?_
      rw [Bool.eq_false_iff]
      intro htoken
      simp only [Bool.or_eq_true, beq_iff_eq, continuesName_iff, startsName_iff, isAlpha_iff,
        isDigit_iff, ← Char.toNat_inj] at htoken
      simp at htoken
      omega

theorem Stops.subset (hstops : Stops operators rest) (hsub : fewer ⊆ operators) :
    Stops fewer rest :=
  ⟨hstops.token, hstops.operator.imp fun c hc => by
    simp only [decide_eq_true_eq] at hc ⊢
    exact hsub hc⟩

theorem Stops.name (hstops : Stops operators rest) : HeadFree continuesName rest :=
  hstops.token.imp fun c hc => by simp [hc]

theorem Stops.literal (hstops : Stops operators rest) :
    HeadFree (fun c => c.isDigit || c == '.') rest :=
  hstops.token.imp fun c hc => by
    simp only [Bool.or_eq_true] at hc ⊢
    rcases hc with hdigit | hpoint
    · exact Or.inl (Or.inl (continuesName_of_isDigit hdigit))
    · exact Or.inl (Or.inr hpoint)

/-- None of the operators stands right in front. -/
theorem Stops.headFree (hstops : Stops operators rest) (hgap : isGap c = false)
    (hmem : c ∈ operators) : HeadFree (· == c) rest := by
  cases rest with
  | nil => exact headFree_nil
  | cons d tail =>
      rw [headFree_cons, beq_eq_false_iff_ne]
      rintro rfl
      have hfree := hstops.operator
      rw [skipGaps_cons_of_not_isGap hgap, headFree_cons] at hfree
      exact absurd hmem (by simpa using hfree)

theorem Stops.not_startsFactor (hstops : Stops operators rest) : startsFactor rest = false := by
  cases rest with
  | nil => rfl
  | cons c tail =>
      have hc := headFree_cons.mp hstops.token
      simp only [Bool.or_eq_false_iff] at hc
      have hstart : startsName c = false := by
        by_contra hstart
        rw [Bool.not_eq_false] at hstart
        rw [continuesName_of_startsName hstart] at hc
        exact absurd hc.1.1 (by simp)
      simp [startsFactor, hstart, hc.2]

end Stops

/-! ## Openings of a layer -/

/-- A text opens a layer before a given continuation: the head is read as `first`, and the repetition
of items reads `items` before it goes on with the continuation. -/
def OpensBefore (head : Reader β) (item : Reader α) (cs next : List Char) (first : β)
    (items : List α) : Prop :=
  ∃ mid, head (cs ++ next) = .ok (first, mid) ∧ mid.length ≤ (cs ++ next).length ∧
    many item mid = (items ++ (many item next).1, (many item next).2)

section OpensBefore

variable {head : Reader β} {item : Reader α} {cs ds sep next : List Char} {first later : β}
  {items more : List α} {joined : α} {stuck : Mismatch}

theorem OpensBefore.of_head (hhead : head (cs ++ next) = .ok (first, next)) :
    OpensBefore head item cs next first [] :=
  ⟨next, hhead, by simp, by simp⟩

/-- Two openings joined by the text of an operator are an opening, if an item is that text and the
head of the second one. -/
theorem OpensBefore.append (hleft : OpensBefore head item cs (sep ++ (ds ++ next)) first items)
    (hright : OpensBefore head item ds next later more) (hsep : sep ≠ [])
    (hitem : ∀ mid, head (ds ++ next) = .ok (later, mid) →
      item (sep ++ (ds ++ next)) = .ok (joined, mid)) :
    OpensBefore head item (cs ++ (sep ++ ds)) next first (items ++ joined :: more) := by
  obtain ⟨mid, hhead, hlength, hmany⟩ := hleft
  obtain ⟨mid', hhead', hlength', hmany'⟩ := hright
  have hshorter : mid'.length < (sep ++ (ds ++ next)).length := by
    have hpos := List.length_pos_iff.mpr hsep
    simp only [List.length_append] at hlength' ⊢
    omega
  refine ⟨mid, ?_, ?_, ?_⟩
  · simpa only [List.append_assoc] using hhead
  · simpa only [List.append_assoc] using hlength
  · rw [hmany, many_cons (hitem mid' hhead') hshorter, hmany']
    simp

/-- An opening before a place where no item begins. -/
theorem OpensBefore.close (hopens : OpensBefore head item cs next first items)
    (hitem : item next = .error stuck) :
    ∃ mid, head (cs ++ next) = .ok (first, mid) ∧ many item mid = (items, next) := by
  obtain ⟨mid, hhead, -, hmany⟩ := hopens
  refine ⟨mid, hhead, ?_⟩
  rw [hmany, many_stop hitem]
  simp

end OpensBefore

/-- A text opens a layer: whatever stands behind it, the head is read as `first`, and the repetition
of items reads `items` before it goes on behind the text. -/
def Opens (head : Reader β) (item : Reader α) (operators cs : List Char) (first : β)
    (items : List α) : Prop :=
  ∀ rest, Stops operators rest → ∃ mid, head (cs ++ rest) = .ok (first, mid) ∧
    mid.length ≤ (cs ++ rest).length ∧
    many item mid = (items ++ (many item rest).1, (many item rest).2)

section Opens

variable {head : Reader β} {item : Reader α} {operators cs ds sep : List Char} {first next : β}
  {items more : List α}

theorem Opens.before (hopens : Opens head item operators cs first items) {rest : List Char}
    (hrest : Stops operators rest) : OpensBefore head item cs rest first items :=
  hopens rest hrest

theorem Opens.of_head
    (hhead : ∀ rest, Stops operators rest → head (cs ++ rest) = .ok (first, rest)) :
    Opens head item operators cs first [] := by
  intro rest hrest
  exact OpensBefore.of_head (hhead rest hrest)

/-- Two openings joined by the text of an operator are an opening, if an item is that text and the
head of the second one. -/
theorem Opens.append (hleft : Opens head item operators cs first items) (wrap : β → α)
    (hright : Opens head item operators ds next more) (hsep : sep ≠ [])
    (hstops : ∀ tail, Stops operators (sep ++ tail))
    (hitem : ∀ tail value mid, head (ds ++ tail) = .ok (value, mid) →
      item (sep ++ (ds ++ tail)) = .ok (wrap value, mid)) :
    Opens head item operators (cs ++ (sep ++ ds)) first (items ++ wrap next :: more) := by
  intro rest hrest
  exact (hleft.before (hstops (ds ++ rest))).append (hright.before hrest) hsep
    fun mid hhead => hitem rest next mid hhead

/-- An opening followed by a place where no item begins. -/
theorem Opens.close (hopens : Opens head item operators cs first items) {rest : List Char}
    {stuck : Mismatch} (hrest : Stops operators rest) (hitem : item rest = .error stuck) :
    ∃ mid, head (cs ++ rest) = .ok (first, mid) ∧ many item mid = (items, rest) :=
  (hopens.before hrest).close hitem

end Opens

/-! ## Atoms and groups -/

variable {inner : Reader Expr}

theorem atom_skipGaps (inner : Reader Expr) (cs : List Char) :
    atom inner (skipGaps cs) = atom inner cs := by
  unfold atom group
  rw [skipGaps_skipGaps]

theorem atom_gaps {gaps : List Char} (hgaps : ∀ c ∈ gaps, isGap c = true) (cs : List Char) :
    atom inner (gaps ++ cs) = atom inner cs := by
  rw [← atom_skipGaps, skipGaps_append hgaps, atom_skipGaps]

theorem atom_digits {digits rest : List Char} {operators : List Char} (hne : digits ≠ [])
    (hdigits : ∀ c ∈ digits, c.isDigit = true) (hrest : Stops operators rest) :
    atom inner (digits ++ rest) = .ok (.number (decimalValue digits []), rest) := by
  have hgap : HeadFree isGap (digits ++ rest) := by
    cases digits with
    | nil => exact absurd rfl hne
    | cons c tail =>
        have hdigit := hdigits c List.mem_cons_self
        exact headFree_cons.mpr (not_isGap_of_continuesName (continuesName_of_isDigit hdigit))
  unfold atom
  rw [skipGaps_of_headFree hgap, decimal?_digits hne hdigits hrest.literal]

theorem atom_point {whole fraction rest : List Char} {operators : List Char} (hne : whole ≠ [])
    (hwhole : ∀ c ∈ whole, c.isDigit = true) (hfraction : ∀ c ∈ fraction, c.isDigit = true)
    (hrest : Stops operators rest) :
    atom inner (whole ++ '.' :: (fraction ++ rest)) =
      .ok (.number (decimalValue whole fraction), rest) := by
  have hgap : HeadFree isGap (whole ++ '.' :: (fraction ++ rest)) := by
    cases whole with
    | nil => exact absurd rfl hne
    | cons c tail =>
        have hdigit := hwhole c List.mem_cons_self
        exact headFree_cons.mpr (not_isGap_of_continuesName (continuesName_of_isDigit hdigit))
  have hdigit : HeadFree Char.isDigit rest := hrest.literal.imp fun c hc => by simp [hc]
  unfold atom
  rw [skipGaps_of_headFree hgap, decimal?_point (Or.inl hne) hwhole hfraction hdigit]

theorem atom_name {name rest : List Char} {operators : List Char} (hname : IsName name)
    (hrest : Stops operators rest) :
    atom inner (name ++ rest) = .ok (.var (String.ofList name), rest) := by
  cases name with
  | nil => exact hname.elim
  | cons c tail =>
      have hgap : HeadFree isGap (c :: tail ++ rest) :=
        headFree_cons.mpr (not_isGap_of_continuesName (continuesName_of_startsName hname.1))
      have hliteral : HeadFree (fun c => c.isDigit || c == '.') (c :: tail ++ rest) := by
        refine headFree_cons.mpr ?_
        have hpoint : c ≠ '.' := by
          rintro rfl
          exact absurd hname.1 (by decide)
        simp [not_isDigit_of_startsName hname.1, hpoint]
      unfold atom
      rw [skipGaps_of_headFree hgap, decimal?_eq_none hliteral, name?_name hname hrest.name]

/-- A text in parentheses is a group when the inner reader stops at the closing parenthesis. -/
theorem atom_group {cs mid rest : List Char} {e : Expr} (hinner : inner cs = .ok (e, mid))
    (hclose : skipGaps mid = ')' :: rest) : atom inner ('(' :: cs) = .ok (e, rest) := by
  have hskip : skipGaps ('(' :: cs) = '(' :: cs := skipGaps_cons_of_not_isGap (by decide)
  have hdecimal : decimal? ('(' :: cs) = none :=
    decimal?_eq_none (headFree_cons.mpr (by decide))
  have hname : name? ('(' :: cs) = none := by
    simp [name?, show startsName '(' = false by decide]
  unfold atom group
  rw [hskip, hdecimal]
  simp only [hname, hinner, hclose]

/-! ## Powers -/

/-- No sign comes next, gaps aside. -/
def Unsigned (cs : List Char) : Prop :=
  HeadFree (· ∈ ['-', '+']) (skipGaps cs)

theorem signs_of_unsigned {cs : List Char} (hunsigned : Unsigned cs) : signs cs = (0, cs) := by
  unfold signs
  rw [many_stop (oneOf_eq_error hunsigned)]
  rfl

/-- The storeys of a tower: a caret and an atom. -/
theorem storey_caret {cs mid : List Char} {operand : Expr} (hunsigned : Unsigned cs)
    (hatom : atom inner cs = .ok (operand, mid)) :
    storey inner ('^' :: cs) = .ok ((0, operand), mid) := by
  have hcaret : oneOf ['^'] ('^' :: cs) = .ok ('^', cs) :=
    oneOf_eq_ok.mpr ⟨skipGaps_cons_of_not_isGap (by decide), by simp⟩
  simp only [storey, hcaret, signs_of_unsigned hunsigned, hatom]

/-- The carets of a tower are its operators. -/
abbrev towerOperators : List Char := ['^']

/-- What may go on behind an operand of a product. -/
abbrev productOperators : List Char := ['^', '*', '/']

/-- What may go on behind an operand of a sum. -/
abbrev sumOperators : List Char := ['^', '*', '/', '+', '-']

theorem power_of_opens {cs rest : List Char} {base : Expr} {tower : List (Nat × Expr)}
    (hopens : Opens (atom inner) (storey inner) [] cs base tower)
    (hrest : Stops towerOperators rest) :
    power inner (cs ++ rest) = .ok (raise base tower, rest) := by
  have hstorey : storey inner rest = .error ⟨skipGaps rest⟩ := by
    simp only [storey, oneOf_eq_error hrest.operator]
  obtain ⟨mid, hatom, hmany⟩ := hopens.close (hrest.subset (by simp)) hstorey
  simp only [power, hatom, hmany]

theorem power_skipGaps (inner : Reader Expr) (cs : List Char) :
    power inner (skipGaps cs) = power inner cs := by
  unfold power
  rw [atom_skipGaps]

/-! ## Signed powers -/

theorem signed_of_unsigned {cs : List Char} (hunsigned : Unsigned cs) :
    signed inner cs = power inner cs := by
  simp only [signed, signs_of_unsigned hunsigned]
  cases power inner cs with
  | error stuck => rfl
  | ok result => rfl

theorem exists_sign {cs : List Char} (hsigned : ¬Unsigned cs) :
    ∃ c rest, oneOf ['-', '+'] cs = .ok (c, rest) := by
  obtain ⟨c, hhead, hsign⟩ : ∃ c ∈ (skipGaps cs).head?, c ∈ ['-', '+'] := by
    by_contra hnone
    exact hsigned fun c hc => decide_eq_false fun hmem => hnone ⟨c, hc, hmem⟩
  obtain ⟨rest, hskip⟩ := List.head?_eq_some_iff.mp hhead
  exact ⟨c, rest, oneOf_eq_ok.mpr ⟨hskip, hsign⟩⟩

theorem signs_skipGaps {cs : List Char} (hsigned : ¬Unsigned cs) :
    signs (skipGaps cs) = signs cs := by
  obtain ⟨c, rest, hread⟩ := exists_sign hsigned
  have hread' : oneOf ['-', '+'] (skipGaps cs) = .ok (c, rest) := by
    rw [oneOf_skipGaps]
    exact hread
  unfold signs
  rw [many_cons hread (length_lt_of_oneOf hread), many_cons hread' (length_lt_of_oneOf hread')]

/-- No sign is left behind a run of signs. -/
theorem unsigned_signs (cs : List Char) : Unsigned (signs cs).2 := by
  by_contra hsigned
  obtain ⟨c, rest, hread⟩ := exists_sign hsigned
  exact many_exhausted hread (length_lt_of_oneOf hread)

theorem signed_skipGaps (inner : Reader Expr) (cs : List Char) :
    signed inner (skipGaps cs) = signed inner cs := by
  by_cases hunsigned : Unsigned cs
  · have hskipped : Unsigned (skipGaps cs) := by
      unfold Unsigned at *
      rwa [skipGaps_skipGaps]
    rw [signed_of_unsigned hunsigned, signed_of_unsigned hskipped, power_skipGaps]
  · simp only [signed, signs_skipGaps hunsigned]

/-- A power behind a single sign. -/
theorem signed_cons {cs rest : List Char} {sign : Char} {e : Expr} (hsign : sign ∈ ['-', '+'])
    (hunsigned : Unsigned cs) (hpower : power inner cs = .ok (e, rest)) :
    signed inner (sign :: cs) = .ok (if sign = '-' then negate e else e, rest) := by
  have hgap : isGap sign = false := by
    rcases List.mem_pair.mp hsign with rfl | rfl <;> decide
  have hread : oneOf ['-', '+'] (sign :: cs) = .ok (sign, cs) :=
    oneOf_eq_ok.mpr ⟨skipGaps_cons_of_not_isGap hgap, hsign⟩
  have hsigns : signs (sign :: cs) = (if sign = '-' then 1 else 0, cs) := by
    unfold signs
    rw [many_cons hread (by simp), many_stop (oneOf_eq_error hunsigned)]
    rcases List.mem_pair.mp hsign with rfl | rfl <;> rfl
  simp only [signed, hsigns, hpower]
  split_ifs <;> rfl

/-! ## Products and sums -/

section operation

variable {operators : List Char} {operand : Reader Expr} {operator : Char} {cs rest : List Char}
  {e : Expr}

theorem operation_cons (hmem : operator ∈ operators) (hgap : isGap operator = false)
    (hoperand : operand cs = .ok (e, rest)) :
    operation operators operand (operator :: cs) = .ok ((operator, e), rest) := by
  have hread : oneOf operators (operator :: cs) = .ok (operator, cs) :=
    oneOf_eq_ok.mpr ⟨skipGaps_cons_of_not_isGap hgap, hmem⟩
  simp only [operation, hread, hoperand]

theorem operation_skipGaps (operators : List Char) (operand : Reader Expr) (cs : List Char) :
    operation operators operand (skipGaps cs) = operation operators operand cs := by
  simp only [operation, oneOf_skipGaps]

theorem operation_stuck (hfree : HeadFree (· ∈ operators) (skipGaps rest)) :
    operation operators operand rest = .error ⟨skipGaps rest⟩ := by
  simp only [operation, oneOf_eq_error hfree]

end operation

theorem term_skipGaps (inner : Reader Expr) (cs : List Char) :
    term inner (skipGaps cs) = term inner cs := by
  simp only [term, signed_skipGaps]

theorem headFree_mem_subset {operators fewer cs : List Char}
    (hfree : HeadFree (· ∈ operators) cs) (hsub : fewer ⊆ operators) :
    HeadFree (· ∈ fewer) cs :=
  hfree.imp fun c hc => by
    simp only [decide_eq_true_eq] at hc ⊢
    exact hsub hc

theorem term_of_opens {cs rest : List Char} {first : Expr} {operations : List (Char × Expr)}
    (hopens : Opens (signed inner) (operation ['*', '/'] (signed inner)) towerOperators cs first
      operations)
    (hrest : Stops productOperators rest) :
    term inner (cs ++ rest) = .ok (foldProduct first operations, rest) := by
  have hoperation : operation ['*', '/'] (signed inner) rest = .error ⟨skipGaps rest⟩ :=
    operation_stuck (headFree_mem_subset hrest.operator (by simp))
  obtain ⟨mid, hsigned, hmany⟩ := hopens.close (hrest.subset (by simp)) hoperation
  have hfactors : implicitFactors inner (foldProduct first operations) rest =
      (foldProduct first operations, rest) := by
    rw [implicitFactors, hrest.not_startsFactor]
    simp
  simp only [term, hsigned, hmany, hfactors]

theorem sum_of_opens {cs rest : List Char} {first : Expr} {operations : List (Char × Expr)}
    (hopens : Opens (term inner) (operation ['+', '-'] (term inner)) productOperators cs first
      operations)
    (hrest : Stops sumOperators rest) :
    sum inner (cs ++ rest) = .ok (foldSum first operations, rest) := by
  have hoperation : operation ['+', '-'] (term inner) rest = .error ⟨skipGaps rest⟩ :=
    operation_stuck (headFree_mem_subset hrest.operator (by simp))
  obtain ⟨mid, hterm, hmany⟩ := hopens.close (hrest.subset (by simp)) hoperation
  simp only [sum, sumOf, hterm, hmany]

end EquationPractice
