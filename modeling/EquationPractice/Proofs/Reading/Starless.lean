import EquationPractice.Proofs.Reading.StarlessOperands
import EquationPractice.Proofs.Reading.Texts

/-!
# Expressions and equations without stars

A star may be left out wherever `Parted` allows it: if the text is still read without its stars, it
is read as the same expression or equation.

## Strategy

A product is read in two passes, first the operations and then the factors that follow at once.
Without its star an operation becomes such a factor, so the two passes are not comparable one by one.
They are for one repetition whose items are of either kind: a product that is read up to a point
where nothing goes on is a chain of those (`links_of_term`), whatever pass they come from.

## Main definitions

* `link`: reads one more operand of a product.
-/

namespace EquationPractice

open Text

/-! ## Chains -/

section Chains

variable {unknownName : String} {extend : Expr → Char × Expr → Expr} {first : Expr}
  {items : List (Char × Expr)}

theorem Expr.only_foldl (hextend : ∀ acc item, (extend acc item).Only unknownName ↔
      acc.Only unknownName ∧ item.2.Only unknownName) :
    (items.foldl extend first).Only unknownName ↔
      first.Only unknownName ∧ ∀ item ∈ items, item.2.Only unknownName := by
  induction items generalizing first with
  | nil => simp
  | cons item items ih =>
      rw [List.foldl_cons, ih, hextend, List.forall_mem_cons, and_assoc]

theorem Expr.only_extendProduct (acc : Expr) (item : Char × Expr) :
    (extendProduct acc item).Only unknownName ↔
      acc.Only unknownName ∧ item.2.Only unknownName := by
  obtain ⟨operator, e⟩ := item
  simp only [extendProduct]
  split
  · exact only_mul
  · exact only_div

theorem Expr.only_extendSum (acc : Expr) (item : Char × Expr) :
    (extendSum acc item).Only unknownName ↔
      acc.Only unknownName ∧ item.2.Only unknownName := by
  obtain ⟨operator, e⟩ := item
  simp only [extendSum]
  split
  · exact only_add
  · exact only_sub

end Chains

/-! ## Products -/

/-- Reads one more operand of a product, at once or behind an operator. -/
def link (inner : Reader Expr) : Reader (Char × Expr) := fun cs =>
  if startsFactor cs then
    match power inner cs with
    | .error stuck => .error stuck
    | .ok (factor, rest) => .ok (('*', factor), rest)
  else operation ['*', '/'] (signed inner) cs

section Links

variable {inner : Reader Expr} {cs rest : List Char} {acc e : Expr} {operator : Char}
  {links : List (Char × Expr)}

theorem link_eq_ok : link inner cs = .ok ((operator, e), rest) ↔
    startsFactor cs = true ∧ operator = '*' ∧ power inner cs = .ok (e, rest) ∨
      startsFactor cs = false ∧
        operation ['*', '/'] (signed inner) cs = .ok ((operator, e), rest) := by
  unfold link
  by_cases hstarts : startsFactor cs = true
  · cases power inner cs with
    | error stuck => simp [hstarts]
    | ok result => simp [hstarts, Prod.ext_iff, eq_comm, and_assoc]
  · simp [hstarts]

theorem not_startsFactor_of_operation
    (hread : operation ['*', '/'] (signed inner) cs = .ok ((operator, e), rest)) :
    startsFactor cs = false := by
  obtain ⟨gaps, mid, hgaps, hmem, rfl, -⟩ := exists_of_operation hread
  refine hgaps.not_startsFactor ?_
  rcases List.mem_cons.mp hmem with rfl | hslash
  · decide
  · obtain rfl := List.mem_singleton.mp hslash
    decide

/-- The operations of a product are links. -/
theorem links_of_operations {stops : List Char → Prop}
    (hmore : Repeats (link inner) stops (many (operation ['*', '/'] (signed inner)) cs).2 links
      rest) :
    Repeats (link inner) stops cs ((many (operation ['*', '/'] (signed inner)) cs).1 ++ links)
      rest := by
  induction cs using many.induct (operation ['*', '/'] (signed inner)) with
  | case1 cs stuck hread =>
      rw [many_stop hread] at hmore ⊢
      exact hmore
  | case2 cs value mid hread hshorter values last hmany ih =>
      rw [many_cons hread hshorter] at hmore ⊢
      exact .item (link_eq_ok.mpr (Or.inr ⟨not_startsFactor_of_operation hread, hread⟩)) (ih hmore)
  | case3 cs value mid hread hshorter =>
      rw [many_stall hread hshorter] at hmore ⊢
      exact hmore

/-- The factors that follow at once are links. -/
theorem links_of_factors {stops : List Char → Prop}
    (hstops : stops (implicitFactors inner acc cs).2) :
    ∃ links, Repeats (link inner) stops cs links (implicitFactors inner acc cs).2 ∧
      links.foldl extendProduct acc = (implicitFactors inner acc cs).1 := by
  induction acc, cs using implicitFactors.induct inner with
  | case1 acc cs hstarts stuck hread =>
      rw [implicitFactors, if_pos hstarts, hread] at hstops ⊢
      exact ⟨[], .stop hstops, rfl⟩
  | case2 acc cs hstarts factor mid hread hshorter ih =>
      rw [implicitFactors, if_pos hstarts, hread] at hstops ⊢
      simp only [hshorter, if_true] at hstops ⊢
      obtain ⟨links, hlinks, hfold⟩ := ih hstops
      have hstart := (Bool.and_eq_true_iff.mp hstarts).1
      exact ⟨('*', factor) :: links, .item (link_eq_ok.mpr (Or.inl ⟨hstart, rfl, hread⟩)) hlinks,
        hfold⟩
  | case3 acc cs hstarts factor mid hread hshorter =>
      rw [implicitFactors, if_pos hstarts, hread] at hstops ⊢
      simp only [hshorter, if_false] at hstops ⊢
      exact ⟨[], .stop hstops, rfl⟩
  | case4 acc cs hstarts =>
      rw [implicitFactors, if_neg hstarts] at hstops ⊢
      exact ⟨[], .stop hstops, rfl⟩

/-- A product is a signed operand and the links that follow it. -/
theorem links_of_term {stops : List Char → Prop} (hread : term inner cs = .ok (e, rest))
    (hstops : stops rest) :
    ∃ first mid links, signed inner cs = .ok (first, mid) ∧
      Repeats (link inner) stops mid links rest ∧ links.foldl extendProduct first = e := by
  obtain ⟨first, mid, hfirst, hfactors⟩ := term_eq_ok.mp hread
  obtain ⟨he, hrest⟩ := Prod.ext_iff.mp hfactors
  simp only at he hrest
  rw [← hrest] at hstops
  obtain ⟨factors, hlinks, hfold⟩ := links_of_factors hstops
  refine ⟨first, mid, _ ++ factors, hfirst, links_of_operations (hrest ▸ hlinks), ?_⟩
  rw [List.foldl_append, ← he, ← hfold]
  rfl

theorem consumes_link (hinner : Consumes inner) : Consumes (link inner) := by
  intro cs (operator, e) rest hread
  rcases link_eq_ok.mp hread with ⟨-, -, hpower⟩ | ⟨-, hoperation⟩
  · exact consumes_power hinner _ _ _ hpower
  · exact consumes_operation (by simp) (consumes_signed hinner) _ _ _ hoperation

theorem not_stops_of_link (hread : link inner cs = .ok ((operator, e), rest)) :
    ¬Stops productOperators cs := by
  intro hstops
  rcases link_eq_ok.mp hread with ⟨hstarts, -, -⟩ | ⟨-, hoperation⟩
  · exact absurd hstarts (by simp [hstops.not_startsFactor])
  · rw [operation_stuck (headFree_mem_subset hstops.operator (by simp))] at hoperation
    exact absurd hoperation (by simp)

/-- How a link begins: with a factor, with a slash, or with a star before an operand. -/
theorem link_cases (hparted : Parted cs) (hread : link inner cs = .ok ((operator, e), rest)) :
    (startsFactor cs = true ∧ operator = '*' ∧ power inner cs = .ok (e, rest)) ∨
    (∃ after, cs = '/' :: after ∧ operator = '/' ∧ signed inner after = .ok (e, rest)) ∨
    ∃ c tail, cs = '*' :: c :: tail ∧ startsOperand c = true ∧ operator = '*' ∧
      power inner (c :: tail) = .ok (e, rest) := by
  rcases link_eq_ok.mp hread with hfactor | ⟨-, hoperation⟩
  · exact Or.inl hfactor
  · obtain ⟨after, hoperator, hsigned⟩ := operation_eq_ok.mp hoperation
    obtain ⟨hskip, hmem⟩ := oneOf_eq_ok.mp hoperator
    rw [hparted.skipGaps] at hskip
    rw [hskip] at hparted ⊢
    rcases List.mem_cons.mp hmem with rfl | hslash
    · -- no sign stands behind the star, so an operand begins right there
      rw [signed_of_unsigned hparted.unsigned] at hsigned
      obtain ⟨base, mid, hatom, -⟩ := power_eq_ok.mp hsigned
      obtain ⟨c, tail, rfl, hc⟩ :=
        (readsAtom_of_atom hparted.tail.skipGaps hatom).startsOperand
      exact Or.inr (Or.inr ⟨c, tail, rfl, hc, rfl, hsigned⟩)
    · obtain rfl := List.mem_singleton.mp hslash
      exact Or.inr (Or.inl ⟨after, rfl, rfl, hsigned⟩)

end Links

/-! ### Where products end -/

section Ends

variable {operators cs rest : List Char} {c : Char}

theorem startsFactor_starless (hstarts : startsFactor cs = true) :
    startsFactor (starless cs) = true := by
  cases cs with
  | nil => exact hstarts
  | cons c tail =>
      have hc : c ≠ '*' := by
        rintro rfl
        exact absurd hstarts Bool.false_ne_true
      rw [starless_cons hc]
      exact hstarts

theorem not_stops_cons (hgap : isGap c = false) (hmem : c ∈ operators) :
    ¬Stops operators (c :: rest) :=
  fun hstops => absurd (headFree_cons.mp (hstops.headFree hgap hmem)) (by simp)

theorem operandEnds_of_stops (hstops : Stops productOperators rest) : OperandEnds rest := by
  refine ⟨⟨hstops.literal, ?_⟩, hstops.headFree (by decide) (by simp)⟩
  rintro tail rfl
  exact absurd hstops (not_stops_cons (by decide) (by simp))

theorem operandEnds_of_startsFactor (hstarts : startsFactor cs = true) : OperandEnds cs := by
  cases cs with
  | nil => exact absurd hstarts Bool.false_ne_true
  | cons c tail =>
      have hc : startsName c = true ∨ c = '(' := by simpa [startsFactor] using hstarts
      have hliteral : isLiteralChar c = false := by
        rcases hc with hname | rfl
        · have hpoint : c ≠ '.' := by
            rintro rfl
            exact absurd hname (by decide)
          simp [isLiteralChar, not_isDigit_of_startsName hname, hpoint]
        · decide
      have hoperand : startsOperand c = true := by
        rcases hc with hname | rfl
        · simp [startsOperand, hname]
        · decide
      refine ⟨⟨headFree_cons.mpr hliteral, fun more hmore => ?_⟩, headFree_cons.mpr ?_⟩
      · exact absurd (List.cons.inj hmore).1 (ne_of_startsOperand hoperand (by simp))
      · exact beq_eq_false_iff_ne.mpr (ne_of_startsOperand hoperand (by simp))

theorem Parted.stops_starless (hparted : Parted cs) (hstops : Stops operators cs)
    (hstar : '*' ∈ operators) : Stops operators (starless cs) := by
  have hstay := hstops.headFree (by decide) hstar
  have hfree := hstops.operator
  rw [hparted.skipGaps] at hfree
  refine ⟨(headFree_starless hstay).mpr hstops.token, ?_⟩
  rw [hparted.skipGaps_starless]
  exact (headFree_starless hstay).mpr hfree

/-- Before an operator, a layer may end whose items have other operators. -/
theorem stops_of_operation {tighter : List Char} {operand : Reader Expr} {operator : Char} {e : Expr}
    (hread : operation operators operand cs = .ok ((operator, e), rest))
    (hsub : operators ⊆ sumOperators) (hother : ∀ c ∈ operators, c ∉ tighter) :
    Stops tighter cs := by
  obtain ⟨after, hoperator, -⟩ := operation_eq_ok.mp hread
  obtain ⟨hskip, hmem⟩ := oneOf_eq_ok.mp hoperator
  exact stops_of_ahead hskip (plain_of_mem_sumOperators (hsub hmem)).2.1 (hother _ hmem)

theorem not_stops_of_startsOperand (hstarts : startsOperand c = true) :
    ¬Stops operators (c :: rest) := by
  intro hstops
  have htoken := headFree_cons.mp hstops.token
  simp only [startsOperand, isLiteralChar, Bool.or_eq_true, Bool.or_eq_false_iff] at hstarts htoken
  rcases hstarts with ((hdigit | hpoint) | hname) | hparen
  · exact absurd (continuesName_of_isDigit hdigit) (by simp [htoken.1.1])
  · exact absurd hpoint (by simp [htoken.1.2])
  · exact absurd (continuesName_of_startsName hname) (by simp [htoken.1.1])
  · exact absurd hparen (by simp [htoken.2])

end Ends

/-! ### Agreement -/

section Products

variable {unknownName : String} {inner inner' : Reader Expr} {cs rest : List Char} {e : Expr}

variable (hconsumes : Consumes inner)
  (hinner : Agrees (Expr.Only unknownName) (Stops sumOperators) (Stops sumOperators) inner inner')

include hconsumes hinner

theorem agrees_link : Agrees (fun item => item.2.Only unknownName) OperandEnds
    (HeadFree (· == '^')) (link inner) (link inner') := by
  intro cs ⟨operator, e⟩ rest ⟨operator', e'⟩ rest' hparted hread hread' honly honly' hends hends'
  rcases link_cases hparted hread with ⟨hstarts, rfl, hpower⟩ | ⟨after, rfl, rfl, hsigned⟩ |
    ⟨c, tail, rfl, hc, rfl, hpower⟩
  · rcases link_eq_ok.mp hread' with ⟨-, rfl, hpower'⟩ | ⟨hstarts', -⟩
    · obtain ⟨rfl, rfl⟩ := agrees_power hconsumes hinner hparted hpower hpower' honly honly' hends
        hends'
      exact ⟨rfl, rfl⟩
    · exact absurd (startsFactor_starless hstarts) (by simp [hstarts'])
  · rw [starless_cons (by decide)] at hread'
    rcases link_eq_ok.mp hread' with ⟨hstarts', -⟩ | ⟨-, hoperation'⟩
    · exact absurd hstarts' Bool.false_ne_true
    · obtain ⟨after', hoperator', hsigned'⟩ := operation_eq_ok.mp hoperation'
      have hskip := (oneOf_eq_ok.mp hoperator').1
      rw [skipGaps_cons_of_not_isGap (by decide), List.cons.injEq] at hskip
      obtain ⟨rfl, rfl⟩ := hskip
      obtain ⟨rfl, rfl⟩ := agrees_signed hconsumes hinner hparted.tail hsigned hsigned' honly
        honly' hends hends'
      exact ⟨rfl, rfl⟩
  · have hstarless : starless ('*' :: c :: tail) = starless (c :: tail) := starless_star
    rw [hstarless] at hread'
    rcases link_eq_ok.mp hread' with ⟨-, rfl, hpower'⟩ | ⟨-, hoperation'⟩
    · obtain ⟨rfl, rfl⟩ := agrees_power hconsumes hinner hparted.tail hpower hpower' honly honly'
        hends hends'
      exact ⟨rfl, rfl⟩
    · -- an operand stands there, no operator
      obtain ⟨after', hoperator', -⟩ := operation_eq_ok.mp hoperation'
      obtain ⟨hskip, hmem⟩ := oneOf_eq_ok.mp hoperator'
      rw [hparted.tail.skipGaps_starless, starless_cons (ne_of_startsOperand hc (by simp)),
        List.cons.injEq] at hskip
      obtain ⟨rfl, -⟩ := hskip
      have hsub : ['*', '/'] ⊆ sumOperators := by simp
      exact absurd (hsub hmem) (notMem_of_startsOperand hc)

theorem itemsAgree_links : ItemsAgree (fun item => item.2.Only unknownName)
    (Stops productOperators) (Stops productOperators) OperandEnds (HeadFree (· == '^'))
    (link inner) (link inner') where
  agrees := agrees_link hconsumes hinner
  consumes := consumes_link hconsumes
  ends_of_stops _ hstops := operandEnds_of_stops hstops
  ends_of_item cs item rest hparted hread := by
    rcases link_cases hparted hread with ⟨hstarts, -, -⟩ | ⟨after, rfl, -, -⟩ |
      ⟨c, tail, rfl, hc, -, -⟩
    · exact operandEnds_of_startsFactor hstarts
    · exact ⟨⟨headFree_cons.mpr (by decide), fun more hmore => absurd hmore (by simp)⟩,
        headFree_cons.mpr (by decide)⟩
    · refine ⟨⟨headFree_cons.mpr (by decide), fun more hmore => ?_⟩, headFree_cons.mpr (by decide)⟩
      exact ⟨c, tail, (List.cons.inj hmore).2.symm, hc⟩
  ends_of_stops' _ hstops := hstops.headFree (by decide) (by simp)
  ends_of_item' cs item rest hread := by
    rcases link_eq_ok.mp hread with ⟨hstarts, -, -⟩ | ⟨-, hoperation⟩
    · exact (operandEnds_of_startsFactor hstarts).caret
    · have hstops : Stops towerOperators cs := stops_of_operation hoperation (by simp) (by simp)
      exact hstops.headFree (by decide) (by simp)
  stuck cs item rest hparted hstops hread :=
    not_stops_of_link hread (hparted.stops_starless hstops (by simp))
  goesOn cs item rest hparted hread hstops := by
    rcases link_cases hparted hread with ⟨hstarts, -, -⟩ | ⟨after, rfl, -, -⟩ |
      ⟨c, tail, rfl, hc, -, -⟩
    · exact absurd (startsFactor_starless hstarts) (by simp [hstops.not_startsFactor])
    · rw [starless_cons (by decide)] at hstops
      exact not_stops_cons (by decide) (by simp) hstops
    · rw [starless_star, starless_cons (ne_of_startsOperand hc (by simp))] at hstops
      exact not_stops_of_startsOperand hc hstops

theorem agrees_term : Agrees (Expr.Only unknownName) (Stops productOperators)
    (Stops productOperators) (term inner) (term inner') := by
  intro cs e rest e' rest' hparted hread hread' honly honly' hends hends'
  obtain ⟨first, mid, links, hfirst, hlinks, rfl⟩ := links_of_term hread hends
  obtain ⟨first', mid', links', hfirst', hlinks', rfl⟩ := links_of_term hread' hends'
  obtain ⟨honlyFirst, honlyLinks⟩ := (Expr.only_foldl Expr.only_extendProduct).mp honly
  obtain ⟨honlyFirst', honlyLinks'⟩ := (Expr.only_foldl Expr.only_extendProduct).mp honly'
  have hmid : Parted mid := (consumes_signed hconsumes _ _ _ hfirst).parted hparted
  have hitems := itemsAgree_links hconsumes hinner
  obtain ⟨rfl, rfl⟩ := agrees_signed hconsumes hinner hparted hfirst hfirst' honlyFirst
    honlyFirst' (hitems.ends_of_repeats hmid hlinks) (hitems.ends_of_repeats' hlinks')
  obtain ⟨rfl, hrest⟩ := hitems.repeats hmid hlinks hlinks' honlyLinks honlyLinks'
  exact ⟨rfl, hrest⟩

end Products

/-! ## Sums -/

section Sums

variable {unknownName : String} {only : Expr → Prop} {ends ends' : List Char → Prop}
  {inner inner' operand operand' : Reader Expr} {operators : List Char}

theorem agrees_operation (hstar : '*' ∉ operators)
    (hoperand : Agrees only ends ends' operand operand') :
    Agrees (fun item => only item.2) ends ends' (operation operators operand)
      (operation operators operand') := by
  intro cs ⟨operator, e⟩ rest ⟨operator', e'⟩ rest' hparted hread hread' honly honly' hends hends'
  obtain ⟨after, hoperator, hafter⟩ := operation_eq_ok.mp hread
  obtain ⟨after', hoperator', hafter'⟩ := operation_eq_ok.mp hread'
  obtain ⟨rfl, rfl⟩ :=
    agrees_oneOf hstar hparted hoperator hoperator' trivial trivial trivial trivial
  obtain ⟨rfl, -⟩ := eq_cons_of_oneOf hparted hoperator hstar
  obtain ⟨rfl, rfl⟩ := hoperand hparted.tail hafter hafter' honly honly' hends hends'
  exact ⟨rfl, rfl⟩

variable (hconsumes : Consumes inner)
  (hinner : Agrees (Expr.Only unknownName) (Stops sumOperators) (Stops sumOperators) inner inner')

include hconsumes hinner

theorem itemsAgree_sum : ItemsAgree (fun item => item.2.Only unknownName) (Stops sumOperators)
    (Stops sumOperators) (Stops productOperators) (Stops productOperators)
    (operation ['+', '-'] (term inner)) (operation ['+', '-'] (term inner')) where
  agrees := agrees_operation (by decide) (agrees_term hconsumes hinner)
  consumes := consumes_operation (by simp) (consumes_term hconsumes)
  ends_of_stops _ hstops := hstops.subset (by simp)
  ends_of_item cs item rest _ hread := stops_of_operation hread (by simp) (by simp)
  ends_of_stops' _ hstops := hstops.subset (by simp)
  ends_of_item' cs item rest hread := stops_of_operation hread (by simp) (by simp)
  stuck cs item rest hparted hstops hread := by
    have hstarless := hparted.stops_starless hstops (by simp)
    rw [operation_stuck (headFree_mem_subset hstarless.operator (by simp))] at hread
    exact absurd hread (by simp)
  goesOn cs item rest hparted hread hstops := by
    obtain ⟨after, hoperator, -⟩ := operation_eq_ok.mp hread
    have hmem := (oneOf_eq_ok.mp hoperator).2
    have hsub : ['+', '-'] ⊆ sumOperators := by simp
    rw [(eq_cons_of_oneOf hparted hoperator (by decide)).2] at hstops
    exact not_stops_cons (plain_of_mem_sumOperators (hsub hmem)).1 (hsub hmem) hstops

theorem agrees_sum : Agrees (Expr.Only unknownName) (Stops sumOperators) (Stops sumOperators)
    (sum inner) (sum inner') := by
  intro cs e rest e' rest' hparted hread hread' honly honly' hends hends'
  obtain ⟨first, mid, hfirst, rfl, rfl⟩ := sum_eq_ok.mp hread
  obtain ⟨first', mid', hfirst', rfl, rfl⟩ := sum_eq_ok.mp hread'
  obtain ⟨honlyFirst, honlyItems⟩ := (Expr.only_foldl Expr.only_extendSum).mp honly
  obtain ⟨honlyFirst', honlyItems'⟩ := (Expr.only_foldl Expr.only_extendSum).mp honly'
  have hmid : Parted mid := (consumes_term hconsumes _ _ _ hfirst).parted hparted
  have hitems := itemsAgree_sum hconsumes hinner
  have hrepeats := Repeats.of_many hends
  have hrepeats' := Repeats.of_many hends'
  obtain ⟨rfl, rfl⟩ := agrees_term hconsumes hinner hparted hfirst hfirst' honlyFirst
    honlyFirst' (hitems.ends_of_repeats hmid hrepeats) (hitems.ends_of_repeats' hrepeats')
  obtain ⟨hvalues, hrest⟩ := hitems.repeats hmid hrepeats hrepeats' honlyItems honlyItems'
  rw [hvalues]
  exact ⟨rfl, hrest⟩

end Sums

/-! ## Expressions -/

variable {unknownName : String}

theorem agrees_expression (levels levels' : ℕ) : Agrees (Expr.Only unknownName)
    (Stops sumOperators) (Stops sumOperators) (expression levels) (expression levels') := by
  induction levels generalizing levels' with
  | zero =>
      intro cs e rest e' rest' hparted hread
      exact absurd hread (by simp [expression])
  | succ levels ih =>
      cases levels' with
      | zero =>
          intro cs e rest e' rest' hparted hread hread'
          exact absurd hread' (by simp [expression])
      | succ levels' => exact agrees_sum (consumes_expression levels) (ih levels')

theorem agrees_readExpr : Agrees (Expr.Only unknownName) (Stops sumOperators) (Stops sumOperators)
    readExpr readExpr :=
  fun cs _ _ _ _ hparted hread hread' =>
    agrees_expression (cs.length + 1) ((starless cs).length + 1) hparted hread hread'

/-! ## Equations -/

section Equations

variable {cs rest : List Char} {equation equation' : Equation}

/-- The two sides of an equation in a text without blanks. -/
theorem sides_of_parseEquationChars (hplain : ∀ c ∈ cs, isBlank c = false)
    (hread : parseEquationChars cs = .ok equation) (hequal : equation.relation = .equal) :
    ∃ afterLeft right, readExpr cs = .ok (equation.lhs, afterLeft) ∧
      skipGaps afterLeft = '=' :: right ∧ readExpr right = .ok (equation.rhs, []) := by
  obtain ⟨rest, hequation, hblank⟩ := parseEquationChars_eq_ok hread
  obtain ⟨afterLeft, right, hleft, hsign, hright⟩ := readEquation_eq_ok hequation
  rw [hequal] at hsign
  have hskip := relation_eq_equal hsign
  refine ⟨afterLeft, right, hleft, hskip, ?_⟩
  -- what is left in the end is blank, and there are no blanks
  have hgaps := leaves_skipGaps afterLeft
  rw [hskip] at hgaps
  obtain ⟨taken, htaken, -⟩ : Leaves cs rest :=
    (consumes_expression _ _ _ _ hleft).trans (hgaps.trans ((leaves_cons (by decide)).trans
      (consumes_expression _ _ _ _ hright)))
  have hnil : rest = [] := by
    refine List.eq_nil_iff_forall_not_mem.mpr fun c hc => ?_
    have hc' := List.all_eq_true.mp hblank c hc
    rw [hplain c (by rw [htaken]; exact List.mem_append_right taken hc)] at hc'
    exact absurd hc' Bool.false_ne_true
  rw [← hnil]
  exact hright

/-- An equation whose stars may be left out is the same equation without them, if it is one. -/
theorem parseEquationChars_starless (hplain : ∀ c ∈ cs, isBlank c = false)
    (hredundant : starsRedundant cs = true) (hread : parseEquationChars cs = .ok equation)
    (hread' : parseEquationChars (starless cs) = .ok equation')
    (hequal : equation.relation = .equal) (hequal' : equation'.relation = .equal)
    (honly : equation.difference.Only unknownName)
    (honly' : equation'.difference.Only unknownName) : equation' = equation := by
  have hparted : Parted cs := .of_plain hplain hredundant
  have hplain' : ∀ c ∈ starless cs, isBlank c = false :=
    fun c hc => hplain c ((starless_sublist cs).subset hc)
  obtain ⟨afterLeft, right, hleft, hsign, hright⟩ := sides_of_parseEquationChars hplain hread hequal
  obtain ⟨afterLeft', right', hleft', hsign', hright'⟩ :=
    sides_of_parseEquationChars hplain' hread' hequal'
  obtain ⟨honlyLeft, honlyRight⟩ := Expr.only_sub.mp honly
  obtain ⟨honlyLeft', honlyRight'⟩ := Expr.only_sub.mp honly'
  obtain ⟨hlhs, rfl⟩ := agrees_readExpr hparted hleft hleft' honlyLeft honlyLeft'
    (stops_of_ahead hsign (by decide) (by decide)) (stops_of_ahead hsign' (by decide) (by decide))
  have hmid : Parted afterLeft := (consumes_expression _ _ _ _ hleft).parted hparted
  rw [hmid.skipGaps] at hsign
  subst hsign
  rw [hmid.skipGaps_starless, starless_cons (by decide), List.cons.injEq] at hsign'
  obtain ⟨-, rfl⟩ := hsign'
  obtain ⟨hrhs, -⟩ := agrees_readExpr hmid.tail hright hright' honlyRight honlyRight' stops_nil
    stops_nil
  calc equation' = ⟨equation'.lhs, equation'.relation, equation'.rhs⟩ := rfl
    _ = ⟨equation.lhs, equation.relation, equation.rhs⟩ := by rw [hlhs, hequal, hequal', hrhs]
    _ = equation := rfl

end Equations

end EquationPractice
