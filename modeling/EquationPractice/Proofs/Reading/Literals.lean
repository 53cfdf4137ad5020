import EquationPractice.Expr.Printer
import EquationPractice.Proofs.Reading.Texts

/-!
# Printed integers

The decimal digits of a natural number are read back as that number, and an integer with its sign is
read back as a literal of the same value.
-/

namespace EquationPractice

open Text

theorem natChars_ne_nil (n : Nat) : natChars n ≠ [] :=
  Nat.toDigits_ne_nil

theorem isDigit_of_mem_natChars {n : Nat} : ∀ c ∈ natChars n, c.isDigit = true :=
  fun _ hc => Nat.isDigit_of_mem_toDigits (by decide) (by decide) hc

theorem mem_intChars {n : Int} {c : Char} (hc : c ∈ intChars n) : c = '-' ∨ c.isDigit = true := by
  unfold intChars at hc
  split at hc
  · rcases List.mem_cons.mp hc with rfl | hc
    · exact Or.inl rfl
    · exact Or.inr (isDigit_of_mem_natChars c hc)
  · exact Or.inr (isDigit_of_mem_natChars c hc)

@[simp] theorem decimalValue_natChars (n : Nat) : decimalValue (natChars n) [] = n := by
  unfold decimalValue natChars
  rw [Nat.ofDigitChars_ten_toDigits]
  simp [Rat.mkRat_eq_div]

/-- No two numbers have the same digits. -/
theorem natChars_injective : Function.Injective natChars := by
  intro m n hchars
  have hvalue : (m : ℚ) = n := by
    rw [← decimalValue_natChars m, ← decimalValue_natChars n, hchars]
  exact_mod_cast hvalue

theorem SpellsAtom.natChars {inner : Reader Expr} (n : Nat) :
    SpellsAtom inner (natChars n) (.number n) := by
  have hdigits : SpellsAtom inner (EquationPractice.natChars n) _ :=
    SpellsAtom.digits (natChars_ne_nil n) isDigit_of_mem_natChars
  rwa [decimalValue_natChars] at hdigits

/-- A rational number that is a natural number is read back as it is. -/
theorem SpellsAtom.wholeNumber {inner : Reader Expr} {q : ℚ} (hden : q.den = 1) (hnonneg : 0 ≤ q) :
    SpellsAtom inner (intChars q.num) (.number q) := by
  have hnum : ((q.num.natAbs : ℕ) : ℤ) = q.num :=
    Int.natAbs_of_nonneg (Rat.num_nonneg.mpr hnonneg)
  have hvalue : ((q.num.natAbs : ℕ) : ℚ) = q := by
    rw [← Int.cast_natCast, hnum, Rat.coe_int_num_of_den_eq_one hden]
  have hchars : intChars q.num = EquationPractice.natChars q.num.natAbs :=
    if_neg (not_lt.mpr (Rat.num_nonneg.mpr hnonneg))
  have hatom : SpellsAtom inner (EquationPractice.natChars q.num.natAbs) _ :=
    SpellsAtom.natChars q.num.natAbs
  rwa [hvalue, ← hchars] at hatom

/-- An integer is read back as a signed literal. -/
theorem spells_intChars {inner : Reader Expr} (n : Int) :
    Spells (signed inner) towerOperators (intChars n) (.number n) := by
  unfold intChars
  split
  · next hneg =>
      have hatom : SpellsAtom inner (natChars n.natAbs) _ := SpellsAtom.natChars n.natAbs
      have hvalue : -((n.natAbs : ℕ) : ℚ) = n := by
        rw [← Int.cast_natCast, Int.ofNat_natAbs_of_nonpos (le_of_lt hneg)]
        simp
      have hliteral := hatom.tower.minus
      rwa [negate, hvalue] at hliteral
  · next hnonneg =>
      have hatom : SpellsAtom inner (natChars n.natAbs) _ := SpellsAtom.natChars n.natAbs
      have hvalue : ((n.natAbs : ℕ) : ℚ) = n := by
        rw [← Int.cast_natCast, Int.natAbs_of_nonneg (not_lt.mp hnonneg)]
      have hliteral := hatom.tower.signed
      rwa [hvalue] at hliteral

theorem exists_mem_intChars (n : Int) : ∃ c ∈ intChars n, isBlank c = false := by
  obtain ⟨c, hc⟩ := List.exists_mem_of_ne_nil _ (natChars_ne_nil n.natAbs)
  have hdigit := isDigit_of_mem_natChars c hc
  refine ⟨c, ?_, not_isBlank_of_continuesName (continuesName_of_isDigit hdigit)⟩
  unfold intChars
  split
  · exact List.mem_cons_of_mem _ hc
  · exact hc

end EquationPractice
