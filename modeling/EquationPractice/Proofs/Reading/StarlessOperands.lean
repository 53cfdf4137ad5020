import EquationPractice.Proofs.Reading.Consumption
import EquationPractice.Proofs.Reading.Recognition
import EquationPractice.Proofs.Reading.Stars

/-!
# Operands without stars

If a text in which no star is needed is read, and what is left of it without the stars is read as
well, both readings agree.  This file says so for the operands of products; products, sums and
equations follow in `Starless.lean`.

## Strategy

Without its star, a factor can do three things to what stands before it: go on with it as an implicit
factor, be left over, or become one name with it.  A factor that is left over is never taken up by
anything further out, so the reading comes to a dead end; a name that became longer is not the name
of the unknown any more.  So the readings agree under two conditions: they get to a point where the
layer may end, and they find no other variable than the unknown.  `Agrees` states this for one layer,
and `ItemsAgree` what it takes for a repetition.

## Main definitions

* `Expr.Only`: no other variable occurs in an expression.
* `Agrees`: two readers agree on a text and on the same text without stars.
* `Repeats`: what a repetition reads up to a point where it may stop.
* `ItemsAgree`: what makes two repetitions agree.
-/

namespace EquationPractice

open Text

/-! ## The unknown alone -/

namespace Expr

/-- No other variable occurs in the expression. -/
def Only (unknownName : String) (e : Expr) : Prop :=
  ∀ name, e.mentions name = true → name = unknownName

variable {unknownName name : String} {l r e base : Expr} {tower : List (Nat × Expr)}

@[simp] theorem only_var : (Expr.var name).Only unknownName ↔ name = unknownName := by
  simp [Only, mentions]

@[simp] theorem only_neg : (Expr.neg e).Only unknownName ↔ e.Only unknownName := Iff.rfl

@[simp] theorem only_mul :
    (Expr.mul l r).Only unknownName ↔ l.Only unknownName ∧ r.Only unknownName := by
  simp [Only, mentions, or_imp, forall_and]

@[simp] theorem only_div :
    (Expr.div l r).Only unknownName ↔ l.Only unknownName ∧ r.Only unknownName := by
  simp [Only, mentions, or_imp, forall_and]

@[simp] theorem only_pow :
    (Expr.pow l r).Only unknownName ↔ l.Only unknownName ∧ r.Only unknownName := by
  simp [Only, mentions, or_imp, forall_and]

@[simp] theorem only_add :
    (Expr.add l r).Only unknownName ↔ l.Only unknownName ∧ r.Only unknownName := by
  simp [Only, mentions, or_imp, forall_and]

@[simp] theorem only_sub :
    (Expr.sub l r).Only unknownName ↔ l.Only unknownName ∧ r.Only unknownName := by
  simp [Only, mentions, or_imp, forall_and]

@[simp] theorem only_negate : (negate e).Only unknownName ↔ e.Only unknownName := by
  cases e <;> simp [negate, Only, mentions]

@[simp] theorem only_applySigns {minus : Nat} :
    (applySigns minus e).Only unknownName ↔ e.Only unknownName := by
  induction minus with
  | zero => rfl
  | succ minus ih => rw [applySigns_succ, only_negate, ih]

theorem only_raise : (raise base tower).Only unknownName ↔
    base.Only unknownName ∧ ∀ item ∈ tower, item.2.Only unknownName := by
  induction tower generalizing base with
  | nil => simp [raise]
  | cons item above ih =>
      obtain ⟨minus, operand⟩ := item
      simp [raise, ih]

end Expr

/-! ## Agreement -/

section Agreement

variable {α : Type} {only : α → Prop} {stops stops' ends ends' : List Char → Prop}
  {item item' : Reader α} {cs rest rest' : List Char} {values values' : List α}

/-- Wherever the first reader reads a text, and the second one what is left of it without its stars,
with values and up to points as described, they read the same. -/
def Agrees (only : α → Prop) (ends ends' : List Char → Prop) (reader reader' : Reader α) : Prop :=
  ∀ ⦃cs value rest value' rest'⦄, Parted cs → reader cs = .ok (value, rest) →
    reader' (starless cs) = .ok (value', rest') → only value → only value' →
    ends rest → ends' rest' → value' = value ∧ rest' = starless rest

/-- The items that are read one after the other, up to a point where the repetition may stop. -/
inductive Repeats (item : Reader α) (stops : List Char → Prop) :
    List Char → List α → List Char → Prop where
  | stop {rest : List Char} (hstops : stops rest) : Repeats item stops rest [] rest
  | item {cs mid rest : List Char} {value : α} {values : List α}
      (hitem : item cs = .ok (value, mid)) (hmore : Repeats item stops mid values rest) :
      Repeats item stops cs (value :: values) rest

theorem Repeats.of_many (hstops : stops (many item cs).2) :
    Repeats item stops cs (many item cs).1 (many item cs).2 := by
  induction cs using many.induct item with
  | case1 cs stuck hread =>
      rw [many_stop hread] at hstops ⊢
      exact .stop hstops
  | case2 cs value rest hread hshorter values last hmany ih =>
      rw [many_cons hread hshorter] at hstops ⊢
      exact .item hread (ih hstops)
  | case3 cs value rest hread hshorter =>
      rw [many_stall hread hshorter] at hstops ⊢
      exact .stop hstops

/-- What makes two repetitions agree that stop at given points: the items agree, each of them ends
where the repetition may stop or go on, and both repetitions stop and go on at the same points. -/
structure ItemsAgree (only : α → Prop) (stops stops' ends ends' : List Char → Prop)
    (item item' : Reader α) : Prop where
  agrees : Agrees only ends ends' item item'
  consumes : Consumes item
  ends_of_stops : ∀ ⦃cs⦄, stops cs → ends cs
  ends_of_item : ∀ ⦃cs value rest⦄, Parted cs → item cs = .ok (value, rest) → ends cs
  ends_of_stops' : ∀ ⦃cs⦄, stops' cs → ends' cs
  ends_of_item' : ∀ ⦃cs value rest⦄, item' cs = .ok (value, rest) → ends' cs
  stuck : ∀ ⦃cs value rest⦄, Parted cs → stops cs → item' (starless cs) ≠ .ok (value, rest)
  goesOn : ∀ ⦃cs value rest⦄, Parted cs → item cs = .ok (value, rest) → ¬stops' (starless cs)

theorem Leaves.parted (hleaves : Leaves cs rest) (hparted : Parted cs) : Parted rest := by
  obtain ⟨taken, rfl, -⟩ := hleaves
  exact hparted.suffix

namespace ItemsAgree

variable (hitems : ItemsAgree only stops stops' ends ends' item item')

include hitems

theorem ends_of_repeats (hparted : Parted cs) (hrepeats : Repeats item stops cs values rest) :
    ends cs := by
  cases hrepeats with
  | stop hstops => exact hitems.ends_of_stops hstops
  | item hitem hmore => exact hitems.ends_of_item hparted hitem

theorem ends_of_repeats' (hrepeats : Repeats item' stops' cs values rest) : ends' cs := by
  cases hrepeats with
  | stop hstops => exact hitems.ends_of_stops' hstops
  | item hitem hmore => exact hitems.ends_of_item' hitem

/-- The repetitions agree. -/
theorem repeats (hparted : Parted cs) (hrepeats : Repeats item stops cs values rest)
    (hrepeats' : Repeats item' stops' (starless cs) values' rest')
    (honly : ∀ value ∈ values, only value) (honly' : ∀ value ∈ values', only value) :
    values' = values ∧ rest' = starless rest := by
  induction hrepeats generalizing values' with
  | stop hstops =>
      cases hrepeats' with
      | stop => exact ⟨rfl, rfl⟩
      | item hitem' hmore' => exact absurd hitem' (hitems.stuck hparted hstops)
  | item hitem hmore ih =>
      cases hrepeats' with
      | stop hstops' => exact absurd hstops' (hitems.goesOn hparted hitem)
      | item hitem' hmore' =>
          have hmid := (hitems.consumes _ _ _ hitem).parted hparted
          obtain ⟨honly, honlyMore⟩ := List.forall_mem_cons.mp honly
          obtain ⟨honly', honlyMore'⟩ := List.forall_mem_cons.mp honly'
          obtain ⟨rfl, rfl⟩ := hitems.agrees hparted hitem hitem' honly honly'
            (hitems.ends_of_repeats hmid hmore) (hitems.ends_of_repeats' hmore')
          obtain ⟨rfl, hrest⟩ := ih hmid hmore' honlyMore honlyMore'
          exact ⟨rfl, hrest⟩

end ItemsAgree

end Agreement

/-! ## Signs and operators -/

section Signs

variable {α : Type} {only : Expr → Prop} {ends ends' : List Char → Prop}
  {operand operand' : Reader Expr} {allowed operators cs rest : List Char} {c : Char} {e : Expr}

/-- Without gaps, a character that is read stands in front, and it is still there when the stars are
gone. -/
theorem eq_cons_of_oneOf (hparted : Parted cs) (hread : oneOf allowed cs = .ok (c, rest))
    (hstar : '*' ∉ allowed) : cs = c :: rest ∧ starless cs = c :: starless rest := by
  obtain ⟨hskip, hmem⟩ := oneOf_eq_ok.mp hread
  rw [hparted.skipGaps] at hskip
  rw [hskip]
  exact ⟨rfl, starless_cons (ne_of_mem_of_not_mem hmem hstar)⟩

theorem agrees_oneOf (hstar : '*' ∉ allowed) :
    Agrees (fun _ => True) (fun _ => True) (fun _ => True) (oneOf allowed) (oneOf allowed) := by
  intro cs c rest c' rest' hparted hread hread' _ _ _ _
  obtain ⟨hskip', -⟩ := oneOf_eq_ok.mp hread'
  rw [hparted.skipGaps_starless, (eq_cons_of_oneOf hparted hread hstar).2, List.cons.injEq] at hskip'
  exact ⟨hskip'.1.symm, hskip'.2.symm⟩

theorem Parted.unsigned_starless (hparted : Parted cs) (hunsigned : Unsigned cs)
    (hstar : HeadFree (· == '*') cs) : Unsigned (starless cs) := by
  unfold Unsigned at hunsigned ⊢
  rw [hparted.skipGaps_starless, headFree_starless hstar]
  rwa [hparted.skipGaps] at hunsigned

theorem not_unsigned_of_oneOf (hread : oneOf ['-', '+'] cs = .ok (c, rest)) : ¬Unsigned cs := by
  intro hunsigned
  rw [oneOf_eq_error hunsigned] at hread
  exact absurd hread (by simp)

theorem itemsAgree_signs : ItemsAgree (fun _ => True)
    (fun rest => Unsigned rest ∧ HeadFree (· == '*') rest) Unsigned (fun _ => True) (fun _ => True)
    (oneOf ['-', '+']) (oneOf ['-', '+']) where
  agrees := agrees_oneOf (by decide)
  consumes := consumes_oneOf (by simp)
  ends_of_stops _ _ := trivial
  ends_of_item _ _ _ _ _ := trivial
  ends_of_stops' _ _ := trivial
  ends_of_item' _ _ _ _ := trivial
  stuck _ _ _ hparted hstops hread :=
    not_unsigned_of_oneOf hread (hparted.unsigned_starless hstops.1 hstops.2)
  goesOn cs c rest hparted hread hunsigned := by
    have htext := eq_cons_of_oneOf hparted hread (by decide)
    have hskip := hparted.skipGaps_starless
    rw [htext.2] at hskip hunsigned
    exact not_unsigned_of_oneOf (oneOf_eq_ok.mpr ⟨hskip, (oneOf_eq_ok.mp hread).2⟩) hunsigned

/-- A run of signs does not change when the stars behind it are gone. -/
theorem signs_starless (hparted : Parted cs) (hstar : HeadFree (· == '*') (signs cs).2) :
    signs (starless cs) = ((signs cs).1, starless (signs cs).2) := by
  obtain ⟨hvalues, hrest⟩ := itemsAgree_signs.repeats hparted
    (Repeats.of_many ⟨unsigned_signs cs, hstar⟩) (Repeats.of_many (unsigned_signs (starless cs)))
    (by simp) (by simp)
  refine Prod.ext ?_ hrest
  show List.count '-' _ = List.count '-' _
  rw [hvalues]

end Signs

/-! ## Atoms -/

/-- A character that may start an operand without a sign. -/
def startsOperand (c : Char) : Bool :=
  isLiteralChar c || startsName c || c == '('

/-- What may stand behind an atom: no literal, and behind a star another operand. -/
structure AtomEnds (rest : List Char) : Prop where
  literal : HeadFree isLiteralChar rest
  star : ∀ tail, rest = '*' :: tail → ∃ c more, tail = c :: more ∧ startsOperand c = true

/-- What may stand behind an operand: in addition to that, no caret. -/
structure OperandEnds (rest : List Char) : Prop extends AtomEnds rest where
  caret : HeadFree (· == '^') rest

section Ends

variable {cs rest : List Char} {c : Char}

/-- An operator is no gap, belongs to no token and starts no operand. -/
theorem plain_of_mem_sumOperators (hmem : c ∈ sumOperators) : isGap c = false ∧
    (continuesName c || c == '.' || c == '(') = false ∧ startsOperand c = false := by
  simp only [List.mem_cons, List.not_mem_nil, or_false] at hmem
  rcases hmem with rfl | rfl | rfl | rfl | rfl
  all_goals decide

theorem notMem_of_startsOperand (hstarts : startsOperand c = true) : c ∉ sumOperators := by
  intro hmem
  rw [(plain_of_mem_sumOperators hmem).2.2] at hstarts
  exact absurd hstarts Bool.false_ne_true

theorem ne_of_startsOperand {operator : Char} (hstarts : startsOperand c = true)
    (hmem : operator ∈ sumOperators) : c ≠ operator := by
  rintro rfl
  exact notMem_of_startsOperand hstarts hmem

/-- No literal stands behind a literal when the stars are gone. -/
theorem AtomEnds.headFree_literal (hends : AtomEnds rest) (hparted : Parted (cs ++ rest))
    (hne : cs ≠ []) (hliteral : ∀ c ∈ cs, isLiteralChar c = true) :
    HeadFree isLiteralChar (starless rest) := by
  rcases headFree_or_star rest with hstar | ⟨tail, rfl⟩
  · exact (headFree_starless hstar).mpr hends.literal
  · obtain ⟨d, more, rfl, hd⟩ := hends.star tail rfl
    rw [starless_star, starless_cons (ne_of_startsOperand hd (by simp)), headFree_cons]
    exact hparted.literal hne hliteral

/-- No caret stands behind an operand when the stars are gone. -/
theorem OperandEnds.headFree_caret (hends : OperandEnds rest) :
    HeadFree (· == '^') (starless rest) := by
  rcases headFree_or_star rest with hstar | ⟨tail, rfl⟩
  · exact (headFree_starless hstar).mpr hends.caret
  · obtain ⟨d, more, rfl, hd⟩ := hends.star tail rfl
    rw [starless_star, starless_cons (ne_of_startsOperand hd (by simp))]
    exact headFree_cons.mpr (beq_eq_false_iff_ne.mpr (ne_of_startsOperand hd (by simp)))

end Ends

section Atoms

variable {unknownName : String} {inner inner' : Reader Expr} {cs rest taken : List Char} {e : Expr}
  {q : ℚ}

theorem IsLiteral.isLiteralChar (hvalue : IsLiteral taken q) :
    ∀ c ∈ taken, isLiteralChar c = true := by
  intro c hc
  rcases hvalue.digit_or_point c hc with hdigit | rfl
  · simp [EquationPractice.isLiteralChar, hdigit]
  · rfl

theorem IsLiteral.star_notMem (hvalue : IsLiteral taken q) : '*' ∉ taken :=
  fun hmem => absurd (hvalue.isLiteralChar _ hmem) (by decide)

theorem IsName.star_notMem (hname : IsName taken) : '*' ∉ taken :=
  fun hmem => absurd (hname.continuesName _ hmem) (by decide)

/-- What an atom is read off: a literal, a name or a group. -/
inductive ReadsAtom (inner : Reader Expr) : List Char → Expr → List Char → Prop where
  | literal {taken rest : List Char} {q : ℚ} (hvalue : IsLiteral taken q)
      (hmaximal : Maximal (fun token => ∃ value, IsLiteral token value) taken rest) :
      ReadsAtom inner (taken ++ rest) (.number q) rest
  | name {taken rest : List Char} (hmaximal : Maximal IsName taken rest) :
      ReadsAtom inner (taken ++ rest) (.var (String.ofList taken)) rest
  | group {body mid rest : List Char} {e : Expr} (hbody : inner body = .ok (e, mid))
      (hclose : skipGaps mid = ')' :: rest) : ReadsAtom inner ('(' :: body) e rest

theorem readsAtom_of_atom (hgaps : skipGaps cs = cs) (hread : atom inner cs = .ok (e, rest)) :
    ReadsAtom inner cs e rest := by
  rcases atom_cases hread with ⟨q, hliteral, rfl⟩ | ⟨name, hname, rfl⟩ | hgroup
  · rw [hgaps] at hliteral
    obtain ⟨taken, rfl, hvalue, hmaximal⟩ := maximal_of_decimal? hliteral
    exact .literal hvalue hmaximal
  · rw [hgaps] at hname
    obtain ⟨taken, rfl, rfl, hmaximal⟩ := maximal_of_name? hname
    exact .name hmaximal
  · obtain ⟨body, mid, hopen, hbody, hclose⟩ := group_eq_ok.mp hgroup
    rw [hgaps] at hopen
    rw [hopen]
    exact .group hbody hclose

theorem ReadsAtom.startsOperand (hread : ReadsAtom inner cs e rest) :
    ∃ c tail, cs = c :: tail ∧ startsOperand c = true := by
  cases hread with
  | @literal taken rest q hvalue hmaximal =>
      obtain ⟨c, tail, rfl⟩ := List.exists_cons_of_ne_nil hvalue.ne_nil
      have hc := hvalue.isLiteralChar c List.mem_cons_self
      exact ⟨c, tail ++ rest, rfl, by simp [EquationPractice.startsOperand, hc]⟩
  | @name taken rest hmaximal =>
      cases taken with
      | nil => exact hmaximal.isToken.elim
      | cons c tail =>
          have hc := hmaximal.isToken.1
          exact ⟨c, tail ++ rest, rfl, by simp [EquationPractice.startsOperand, hc]⟩
  | @group body mid rest e hbody hclose => exact ⟨'(', body, rfl, rfl⟩

/-- A literal that nothing makes longer is read with its value. -/
theorem atom_of_literal (hvalue : IsLiteral taken q) (hfree : HeadFree isLiteralChar rest) :
    atom inner (taken ++ rest) = .ok (.number q, rest) := by
  refine readAs_literal gaps_nil hvalue (Maximal.of_headFree ⟨q, hvalue⟩ hfree fun c more hlong => ?_)
  obtain ⟨value, hlong⟩ := hlong
  exact hlong.isLiteralChar c (by simp)

/-- A name is read as a variable, with whatever makes it longer. -/
theorem atom_of_name (inner : Reader Expr) (rest : List Char) (hname : IsName taken) :
    ∃ more tail, rest = more ++ tail ∧
      atom inner (taken ++ rest) = .ok (.var (String.ofList (taken ++ more)), tail) := by
  have hsplit : rest.takeWhile continuesName ++ rest.dropWhile continuesName = rest :=
    List.takeWhile_append_dropWhile
  have hlong : IsName (taken ++ rest.takeWhile continuesName) := by
    cases taken with
    | nil => exact hname.elim
    | cons c tail =>
        exact ⟨hname.1, List.forall_mem_append.mpr ⟨hname.2, fun d hd => List.mem_takeWhile_imp hd⟩⟩
  refine ⟨_, _, hsplit.symm, ?_⟩
  conv_lhs => rw [← hsplit, ← List.append_assoc]
  exact readAs_name gaps_nil (maximal_name hlong (headFree_dropWhile _ rest))

/-- Behind an opening parenthesis stands the body of a group. -/
theorem exists_of_group {body : List Char} (hread : atom inner ('(' :: body) = .ok (e, rest)) :
    ∃ mid, inner body = .ok (e, mid) ∧ skipGaps mid = ')' :: rest := by
  have hskip : skipGaps ('(' :: body) = '(' :: body := skipGaps_cons_of_not_isGap (by decide)
  generalize hcs : '(' :: body = cs at hread hskip
  cases readsAtom_of_atom hskip hread with
  | @literal taken rest q hvalue hmaximal =>
      obtain ⟨c, tail, rfl⟩ := List.exists_cons_of_ne_nil hvalue.ne_nil
      obtain ⟨rfl, -⟩ := List.cons.inj hcs
      exact absurd (hvalue.isLiteralChar '(' List.mem_cons_self) (by decide)
  | @name taken rest hmaximal =>
      cases taken with
      | nil => exact hmaximal.isToken.elim
      | cons c tail =>
          obtain ⟨rfl, -⟩ := List.cons.inj hcs
          exact absurd hmaximal.isToken.1 (by decide)
  | @group body' mid rest e hbody hclose =>
      obtain ⟨-, rfl⟩ := List.cons.inj hcs
      exact ⟨mid, hbody, hclose⟩

theorem agrees_atom (hconsumes : Consumes inner)
    (hinner : Agrees (Expr.Only unknownName) (Stops sumOperators) (Stops sumOperators) inner
      inner') :
    Agrees (Expr.Only unknownName) AtomEnds (fun _ => True) (atom inner) (atom inner') := by
  intro cs e rest e' rest' hparted hread hread' honly honly' hends _
  cases readsAtom_of_atom hparted.skipGaps hread with
  | @literal taken rest q hvalue hmaximal =>
      have hfree := hends.headFree_literal hparted hvalue.ne_nil hvalue.isLiteralChar
      rw [starless_append, starless_eq_self hvalue.star_notMem, atom_of_literal hvalue hfree,
        Except.ok.injEq, Prod.mk.injEq] at hread'
      exact ⟨hread'.1.symm, hread'.2.symm⟩
  | @name taken rest hmaximal =>
      obtain ⟨more, tail, hrest, hatom⟩ :=
        atom_of_name inner' (starless rest) hmaximal.isToken
      rw [starless_append, starless_eq_self hmaximal.isToken.star_notMem, hatom, Except.ok.injEq,
        Prod.mk.injEq] at hread'
      obtain ⟨rfl, rfl⟩ := hread'
      -- a longer name would not be that of the unknown
      have hnames : String.ofList (taken ++ more) = String.ofList taken :=
        (Expr.only_var.mp honly').trans (Expr.only_var.mp honly).symm
      have hmore : more = [] := by simpa using hnames
      subst hmore
      exact ⟨by rw [List.append_nil], hrest.symm⟩
  | @group body mid rest e hbody hclose =>
      rw [starless_cons (by decide)] at hread'
      obtain ⟨mid', hbody', hclose'⟩ := exists_of_group hread'
      have hmid := (hconsumes _ _ _ hbody).parted hparted.tail
      obtain ⟨rfl, rfl⟩ := hinner hparted.tail hbody hbody' honly honly'
        (stops_of_ahead hclose (by decide) (by decide))
        (stops_of_ahead hclose' (by decide) (by decide))
      rw [hmid.skipGaps] at hclose
      rw [hmid.skipGaps_starless, hclose, starless_cons (by decide), List.cons.injEq] at hclose'
      exact ⟨rfl, hclose'.2.symm⟩

end Atoms

/-! ## Towers of exponents -/

section Towers

variable {unknownName : String} {inner inner' : Reader Expr} {cs rest : List Char} {e : Expr}

/-- An operand does not begin with a star, so the signs before it stay as they are. -/
theorem signs_starless_of_atom (hparted : Parted cs)
    (hread : atom inner (signs cs).2 = .ok (e, rest)) :
    signs (starless cs) = ((signs cs).1, starless (signs cs).2) := by
  have hmid : Parted (signs cs).2 := (leaves_signs cs).parted hparted
  obtain ⟨c, tail, hstart, hc⟩ := (readsAtom_of_atom hmid.skipGaps hread).startsOperand
  refine signs_starless hparted ?_
  rw [hstart, headFree_cons]
  simpa using ne_of_startsOperand hc (by simp)

variable (hconsumes : Consumes inner)
  (hinner : Agrees (Expr.Only unknownName) (Stops sumOperators) (Stops sumOperators) inner inner')

include hconsumes hinner

theorem agrees_storey : Agrees (fun item => item.2.Only unknownName) AtomEnds (fun _ => True)
    (storey inner) (storey inner') := by
  intro cs ⟨minus, operand⟩ rest ⟨minus', operand'⟩ rest' hparted hread hread' honly honly' hends _
  obtain ⟨after, hcaret, rfl, hatom⟩ := storey_eq_ok.mp hread
  obtain ⟨after', hcaret', rfl, hatom'⟩ := storey_eq_ok.mp hread'
  obtain ⟨-, rfl⟩ := agrees_oneOf (by decide) hparted hcaret hcaret' trivial trivial trivial trivial
  have hafter : Parted after := (consumes_oneOf (by simp) _ _ _ hcaret).parted hparted
  have hmid : Parted (signs after).2 := (leaves_signs after).parted hafter
  rw [signs_starless_of_atom hafter hatom] at hatom' ⊢
  obtain ⟨rfl, rfl⟩ := agrees_atom hconsumes hinner hmid hatom hatom' honly honly' hends trivial
  exact ⟨rfl, rfl⟩

theorem itemsAgree_tower : ItemsAgree (fun item => item.2.Only unknownName) OperandEnds
    (HeadFree (· == '^')) AtomEnds (fun _ => True) (storey inner) (storey inner') where
  agrees := agrees_storey hconsumes hinner
  consumes := consumes_storey hconsumes
  ends_of_stops _ hstops := hstops.toAtomEnds
  ends_of_item cs item rest hparted hread := by
    obtain ⟨after, hcaret, -, -⟩ := storey_eq_ok.mp hread
    obtain ⟨rfl, -⟩ := eq_cons_of_oneOf hparted hcaret (by decide)
    exact ⟨headFree_cons.mpr (by decide), fun tail htail => absurd htail (by simp)⟩
  ends_of_stops' _ _ := trivial
  ends_of_item' _ _ _ _ := trivial
  stuck cs item rest hparted hstops hread := by
    obtain ⟨after, hcaret, -, -⟩ := storey_eq_ok.mp hread
    have hskip := (oneOf_eq_ok.mp hcaret).1
    have hfree := hstops.headFree_caret
    rw [hparted.skipGaps_starless] at hskip
    rw [hskip] at hfree
    exact absurd (headFree_cons.mp hfree) (by decide)
  goesOn cs item rest hparted hread hfree := by
    obtain ⟨after, hcaret, -, -⟩ := storey_eq_ok.mp hread
    rw [(eq_cons_of_oneOf hparted hcaret (by decide)).2] at hfree
    exact absurd (headFree_cons.mp hfree) (by decide)

theorem agrees_power : Agrees (Expr.Only unknownName) OperandEnds (HeadFree (· == '^'))
    (power inner) (power inner') := by
  intro cs e rest e' rest' hparted hread hread' honly honly' hends hends'
  obtain ⟨base, mid, hatom, rfl, rfl⟩ := power_eq_ok.mp hread
  obtain ⟨base', mid', hatom', rfl, rfl⟩ := power_eq_ok.mp hread'
  obtain ⟨hbase, htower⟩ := Expr.only_raise.mp honly
  obtain ⟨hbase', htower'⟩ := Expr.only_raise.mp honly'
  have hmid : Parted mid := (consumes_atom hconsumes _ _ _ hatom).parted hparted
  have hitems := itemsAgree_tower hconsumes hinner
  have hrepeats := Repeats.of_many hends
  obtain ⟨rfl, rfl⟩ := agrees_atom hconsumes hinner hparted hatom hatom' hbase hbase'
    (hitems.ends_of_repeats hmid hrepeats) trivial
  obtain ⟨hvalues, hrest⟩ := hitems.repeats hmid hrepeats (Repeats.of_many hends') htower htower'
  rw [hvalues]
  exact ⟨rfl, hrest⟩

theorem agrees_signed : Agrees (Expr.Only unknownName) OperandEnds (HeadFree (· == '^'))
    (signed inner) (signed inner') := by
  intro cs e rest e' rest' hparted hread hread' honly honly' hends hends'
  obtain ⟨operand, hpower, rfl⟩ := signed_eq_ok.mp hread
  obtain ⟨operand', hpower', rfl⟩ := signed_eq_ok.mp hread'
  obtain ⟨base, mid, hatom, -⟩ := power_eq_ok.mp hpower
  rw [signs_starless_of_atom hparted hatom] at hpower' honly' ⊢
  obtain ⟨rfl, rfl⟩ := agrees_power hconsumes hinner ((leaves_signs cs).parted hparted) hpower
    hpower' (Expr.only_applySigns.mp honly) (Expr.only_applySigns.mp honly') hends hends'
  exact ⟨rfl, rfl⟩

end Towers

end EquationPractice
