import EquationPractice.Proofs.Reading.Layers
import EquationPractice.Statement
import Mathlib.Data.List.TakeWhile

/-!
# What a reader takes

Every reader takes a prefix of its text, and there are only ASCII characters in it.  So whatever
text is read as an expression holds nothing else, blanks at its end aside.

## Main definitions

* `Leaves`: what is left of a text after some of its ASCII characters.
* `Consumes`: a reader leaves what is behind what it takes.
-/

namespace EquationPractice

open Text

variable {α β : Type} {cs mid rest : List Char}

/-- The second text is what is left of the first one after some ASCII characters. -/
def Leaves (cs rest : List Char) : Prop :=
  ∃ taken, cs = taken ++ rest ∧ ∀ c ∈ taken, c.toNat < 128

theorem Leaves.refl (cs : List Char) : Leaves cs cs :=
  ⟨[], rfl, by simp⟩

theorem Leaves.trans (hfirst : Leaves cs mid) (hsecond : Leaves mid rest) : Leaves cs rest := by
  obtain ⟨taken, rfl, htaken⟩ := hfirst
  obtain ⟨more, rfl, hmore⟩ := hsecond
  refine ⟨taken ++ more, by simp, fun c hc => ?_⟩
  rcases List.mem_append.mp hc with hc | hc
  · exact htaken c hc
  · exact hmore c hc

theorem Leaves.length_le (hleaves : Leaves cs rest) : rest.length ≤ cs.length := by
  obtain ⟨taken, rfl, -⟩ := hleaves
  simp

theorem leaves_cons {c : Char} (hc : c.toNat < 128) : Leaves (c :: rest) rest :=
  ⟨[c], rfl, by simpa using hc⟩

theorem leaves_dropWhile {p : Char → Bool} (hp : ∀ c, p c = true → c.toNat < 128)
    (cs : List Char) : Leaves cs (cs.dropWhile p) :=
  ⟨cs.takeWhile p, List.takeWhile_append_dropWhile.symm, fun c hc =>
    hp c (List.mem_takeWhile_imp hc)⟩

/-- A reader leaves what is behind the ASCII characters that it takes. -/
def Consumes (reader : Reader α) : Prop :=
  ∀ cs value rest, reader cs = .ok (value, rest) → Leaves cs rest

/-! ## Tokens -/

theorem toNat_lt_of_isGap (c : Char) (hgap : isGap c = true) : c.toNat < 128 := by
  rw [isGap_iff] at hgap
  omega

theorem toNat_lt_of_isDigit (c : Char) (hdigit : c.isDigit = true) : c.toNat < 128 := by
  rw [isDigit_iff] at hdigit
  omega

theorem toNat_lt_of_continuesName (c : Char) (hname : continuesName c = true) : c.toNat < 128 := by
  rw [continuesName_iff, startsName_iff, isAlpha_iff, isDigit_iff] at hname
  omega

theorem leaves_skipGaps (cs : List Char) : Leaves cs (skipGaps cs) :=
  leaves_dropWhile toNat_lt_of_isGap cs

theorem leaves_decimal? {q : Rat} (hread : decimal? cs = some (q, rest)) : Leaves cs rest := by
  have hwhole := leaves_dropWhile toNat_lt_of_isDigit cs
  unfold decimal? at hread
  simp only at hread
  split at hread
  · next tail hdrop =>
      rw [hdrop] at hwhole
      split at hread
      · exact absurd hread (by simp)
      · simp only [Option.some.injEq, Prod.mk.injEq] at hread
        rw [← hread.2]
        exact hwhole.trans ((leaves_cons (by decide)).trans
          (leaves_dropWhile toNat_lt_of_isDigit tail))
  · split at hread
    · exact absurd hread (by simp)
    · simp only [Option.some.injEq, Prod.mk.injEq] at hread
      rw [← hread.2]
      exact hwhole

theorem leaves_name? {name : String} (hread : name? cs = some (name, rest)) : Leaves cs rest := by
  cases cs with
  | nil => exact absurd hread (by simp [name?])
  | cons c tail =>
      simp only [name?] at hread
      split at hread
      · next hstart =>
          simp only [Option.some.injEq, Prod.mk.injEq] at hread
          rw [← hread.2]
          have hc := toNat_lt_of_continuesName c (continuesName_of_startsName hstart)
          exact (leaves_cons hc).trans (leaves_dropWhile toNat_lt_of_continuesName tail)
      · exact absurd hread (by simp)

theorem consumes_oneOf {allowed : List Char} (hallowed : ∀ c ∈ allowed, c.toNat < 128) :
    Consumes (oneOf allowed) := by
  intro cs c rest hread
  obtain ⟨hskip, hmem⟩ := oneOf_eq_ok.mp hread
  have hgaps := leaves_skipGaps cs
  rw [hskip] at hgaps
  exact hgaps.trans (leaves_cons (hallowed c hmem))

/-! ## Layers -/

theorem leaves_many {item : Reader α} (hitem : Consumes item) (cs : List Char) :
    Leaves cs (many item cs).2 := by
  induction cs using many.induct item with
  | case1 cs stuck hread =>
      rw [many, hread]
      exact Leaves.refl cs
  | case2 cs value rest hread hlength values last hmany ih =>
      rw [many, hread]
      simp only [hlength, if_true]
      exact (hitem cs value rest hread).trans ih
  | case3 cs value rest hread hlength =>
      rw [many, hread]
      simp only [hlength, if_false]
      exact Leaves.refl cs

theorem leaves_signs (cs : List Char) : Leaves cs (signs cs).2 :=
  leaves_many (consumes_oneOf (by simp)) cs

variable {inner : Reader Expr}

theorem consumes_group (hinner : Consumes inner) : Consumes (group inner) := by
  intro cs e rest hread
  obtain ⟨body, tail, hopen, hbody, hclose⟩ := group_eq_ok.mp hread
  have hgaps := leaves_skipGaps cs
  have htail := leaves_skipGaps tail
  rw [hopen] at hgaps
  rw [hclose] at htail
  exact hgaps.trans ((leaves_cons (by decide)).trans
    ((hinner _ _ _ hbody).trans (htail.trans (leaves_cons (by decide)))))

theorem consumes_atom (hinner : Consumes inner) : Consumes (atom inner) := by
  intro cs e rest hread
  have hgaps := leaves_skipGaps cs
  rcases atom_cases hread with ⟨q, hliteral, -⟩ | ⟨name, hname, -⟩ | hgroup
  · exact hgaps.trans (leaves_decimal? hliteral)
  · exact hgaps.trans (leaves_name? hname)
  · exact consumes_group hinner cs e rest hgroup

theorem consumes_storey (hinner : Consumes inner) : Consumes (storey inner) := by
  intro cs (minus, operand) rest hread
  obtain ⟨after, hcaret, -, hatom⟩ := storey_eq_ok.mp hread
  exact (consumes_oneOf (by simp) _ _ _ hcaret).trans
    ((leaves_signs after).trans (consumes_atom hinner _ _ _ hatom))

theorem consumes_power (hinner : Consumes inner) : Consumes (power inner) := by
  intro cs e rest hread
  obtain ⟨base, mid, hatom, -, rfl⟩ := power_eq_ok.mp hread
  exact (consumes_atom hinner _ _ _ hatom).trans (leaves_many (consumes_storey hinner) mid)

theorem consumes_signed (hinner : Consumes inner) : Consumes (signed inner) := by
  intro cs e rest hread
  obtain ⟨operand, hpower, -⟩ := signed_eq_ok.mp hread
  exact (leaves_signs cs).trans (consumes_power hinner _ _ _ hpower)

theorem consumes_operation {operators : List Char} {operand : Reader Expr}
    (hoperators : ∀ c ∈ operators, c.toNat < 128) (hoperand : Consumes operand) :
    Consumes (operation operators operand) := by
  intro cs (operator, e) rest hread
  obtain ⟨after, hoperator, hafter⟩ := operation_eq_ok.mp hread
  exact (consumes_oneOf hoperators _ _ _ hoperator).trans (hoperand _ _ _ hafter)

theorem leaves_implicitFactors (hinner : Consumes inner) (acc : Expr) (cs : List Char) :
    Leaves cs (implicitFactors inner acc cs).2 := by
  induction acc, cs using implicitFactors.induct inner with
  | case1 acc cs hstarts stuck hread =>
      rw [implicitFactors, if_pos hstarts, hread]
      exact Leaves.refl cs
  | case2 acc cs hstarts factor rest hread hlength ih =>
      rw [implicitFactors, if_pos hstarts, hread]
      simp only [hlength, if_true]
      exact (consumes_power hinner _ _ _ hread).trans ih
  | case3 acc cs hstarts factor rest hread hlength =>
      rw [implicitFactors, if_pos hstarts, hread]
      simp only [hlength, if_false]
      exact Leaves.refl cs
  | case4 acc cs hstarts =>
      rw [implicitFactors, if_neg hstarts]
      exact Leaves.refl cs

theorem consumes_term (hinner : Consumes inner) : Consumes (term inner) := by
  intro cs e rest hread
  have hsigned := consumes_signed hinner
  obtain ⟨first, mid, hfirst, hfactors⟩ := term_eq_ok.mp hread
  have hlast : (implicitFactors inner _ _).2 = rest := congrArg Prod.snd hfactors
  rw [← hlast]
  exact (hsigned _ _ _ hfirst).trans
    ((leaves_many (consumes_operation (by simp) hsigned) mid).trans
      (leaves_implicitFactors hinner _ _))

theorem consumes_sum (hinner : Consumes inner) : Consumes (sum inner) := by
  intro cs e rest hread
  have hterm := consumes_term hinner
  obtain ⟨first, mid, hfirst, -, rfl⟩ := sum_eq_ok.mp hread
  exact (hterm _ _ _ hfirst).trans (leaves_many (consumes_operation (by simp) hterm) mid)

theorem consumes_expression (levels : Nat) : Consumes (expression levels) := by
  induction levels with
  | zero =>
      intro cs e rest hread
      exact absurd hread (by simp [expression])
  | succ levels ih => exact consumes_sum ih

/-! ## Whole texts -/

/-- A text that is read as an expression is let in, and what is not ASCII in it is blank. -/
theorem parseChars_eq_ok {e : Expr} (hread : parseChars cs = .ok e) :
    checkText cs = .ok () ∧ ∀ c ∈ cs, c.toNat < 128 ∨ isBlank c = true := by
  unfold parseChars parseBy at hread
  split at hread
  · exact absurd hread (by simp)
  · next hcheck =>
      refine ⟨hcheck, ?_⟩
      split at hread
      · exact absurd hread (by simp)
      · next e' rest hexpression =>
          split at hread
          · next hblank =>
              -- the expression takes ASCII characters only, and what it leaves is blank
              obtain ⟨taken, rfl, htaken⟩ := consumes_expression _ _ _ _ hexpression
              intro c hc
              rcases List.mem_append.mp hc with hc | hc
              · exact Or.inl (htaken c hc)
              · exact Or.inr (List.all_eq_true.mp hblank c hc)
          · exact absurd hread (by simp)

end EquationPractice
