import EquationPractice.Expr.Value
import EquationPractice.Proofs.Reading.Texts
import EquationPractice.Proofs.Text.Runs
import Mathlib.Algebra.Order.Field.Rat
import Mathlib.Data.Rat.Lemmas

/-!
# Typed numbers

The numbers that are typed as answers: after an optional sign an integer, a decimal number or a
quotient.  A side of a quotient that has a sign of its own stands in parentheses.  Every such text
is read as an expression whose value is the number that it writes, provided its denominator is not
zero.

## Main definitions

* `TypedNumber`: a typed number by its parts.
* `TypedNumber.chars`, `TypedNumber.value`: how it is written and what it is.
* `TypedNumber.WrittenIn`: all runs of digits are made of a kind of digits.
-/

namespace EquationPractice

open Text

/-- A sign that is written out. -/
inductive Sign where
  | plus
  | minus
  deriving DecidableEq, Repr

namespace Sign

/-- The character of a sign. -/
def char : Sign → Char
  | plus => '+'
  | minus => '-'

/-- A number with a sign before it. -/
def apply : Sign → ℚ → ℚ
  | plus, v => v
  | minus, v => -v

/-- The characters of a sign that may be left out. -/
def optionalChars : Option Sign → List Char
  | none => []
  | some sign => [sign.char]

/-- A number with a sign before it that may be left out. -/
def applyOptional : Option Sign → ℚ → ℚ
  | none, v => v
  | some sign, v => sign.apply v

end Sign

/-- The number that a run of digits writes. -/
def digitsValue (digits : List Char) : ℚ :=
  (Nat.ofDigitChars 10 digits 0 : ℕ)

/-! ## Sides of a quotient -/

/-- A side of a quotient: digits, or a signed integer in parentheses. -/
inductive TypedSide where
  | bare (digits : List Char)
  | enclosed (sign : Sign) (digits : List Char)
  deriving DecidableEq, Repr

namespace TypedSide

/-- The digits of a side. -/
def digits : TypedSide → List Char
  | bare digits | enclosed _ digits => digits

/-- Whether a side stands in parentheses. -/
def isEnclosed : TypedSide → Bool
  | bare _ => false
  | enclosed _ _ => true

/-- A side as it is written. -/
def chars : TypedSide → List Char
  | bare digits => digits
  | enclosed sign digits => '(' :: sign.char :: (digits ++ [')'])

/-- The number that a side writes. -/
def value : TypedSide → ℚ
  | bare digits => digitsValue digits
  | enclosed sign digits => sign.apply (digitsValue digits)

end TypedSide

/-! ## Numbers -/

/-- What follows the sign of a typed number. -/
inductive TypedBody where
  | integer (digits : List Char)
  | decimal (whole fraction : List Char)
  | quotient (top bottom : TypedSide)
  deriving DecidableEq, Repr

namespace TypedBody

/-- The runs of digits. -/
def runs : TypedBody → List (List Char)
  | integer digits => [digits]
  | decimal whole fraction => [whole, fraction]
  | quotient top bottom => [top.digits, bottom.digits]

/-- The body of a number as it is written. -/
def chars : TypedBody → List Char
  | integer digits => digits
  | decimal whole fraction => whole ++ '.' :: fraction
  | quotient top bottom => top.chars ++ '/' :: bottom.chars

/-- The denominator that is written; a number without one has the denominator one. -/
def denominator : TypedBody → ℚ
  | integer _ | decimal _ _ => 1
  | quotient _ bottom => bottom.value

/-- The number that the body writes. -/
def value : TypedBody → ℚ
  | integer digits => digitsValue digits
  | decimal whole fraction => digitsValue whole + digitsValue fraction / 10 ^ fraction.length
  | quotient top bottom => top.value / bottom.value

end TypedBody

/-- A typed number: a sign that may be left out, and a body. -/
structure TypedNumber where
  sign : Option Sign
  body : TypedBody
  deriving DecidableEq, Repr

namespace TypedNumber

/-- A number as it is written. -/
def chars (number : TypedNumber) : List Char :=
  Sign.optionalChars number.sign ++ number.body.chars

/-- The number that is written. -/
def value (number : TypedNumber) : ℚ :=
  Sign.applyOptional number.sign number.body.value

/-- Every run of digits is made of digits of a kind. -/
def WrittenIn (kind : Char → Bool) (number : TypedNumber) : Prop :=
  ∀ run ∈ number.body.runs, IsRun kind run

/-- The expression that the text of a number is read as. -/
def expr (number : TypedNumber) : Expr :=
  match number.body with
  | .integer _ | .decimal _ _ => .number number.value
  | .quotient top bottom =>
      .div (.number (Sign.applyOptional number.sign top.value)) (.number bottom.value)

end TypedNumber

/-! ## Reading -/

theorem decimalValue_eq (whole fraction : List Char) :
    decimalValue whole fraction =
      digitsValue whole + digitsValue fraction / 10 ^ fraction.length := by
  have hpow : (10 : ℚ) ^ fraction.length ≠ 0 := by positivity
  have hsplit : Nat.ofDigitChars 10 fraction (Nat.ofDigitChars 10 whole 0) =
      10 ^ fraction.length * Nat.ofDigitChars 10 whole 0 + Nat.ofDigitChars 10 fraction 0 :=
    Nat.ofDigitChars_eq_ofDigitChars_zero ..
  unfold decimalValue digitsValue
  rw [Rat.mkRat_eq_div, hsplit, Nat.pow_eq]
  push_cast
  field_simp

section Reading

variable {inner : Reader Expr} {levels : Nat}

/-- A signed literal, the sign of which may be left out. -/
theorem spells_optional {cs : List Char} {q : ℚ} (sign : Option Sign)
    (htower : SpellsTower inner cs (.number q)) :
    Spells (signed inner) towerOperators (Sign.optionalChars sign ++ cs)
      (.number (Sign.applyOptional sign q)) := by
  cases sign with
  | none => exact htower.signed
  | some sign =>
      cases sign with
      | plus => exact htower.plus
      | minus => exact htower.minus

theorem spellsAtom_digits {digits : List Char} (hrun : IsRun Char.isDigit digits) :
    SpellsAtom inner digits (.number (digitsValue digits)) := by
  have hatom : SpellsAtom inner digits _ := SpellsAtom.digits hrun.1 hrun.2
  rw [decimalValue_eq] at hatom
  simpa [digitsValue] using hatom

theorem TypedSide.spellsAtom {side : TypedSide} (levels : Nat)
    (hrun : IsRun Char.isDigit side.digits) :
    SpellsAtom (expression (levels + 1)) side.chars (.number side.value) := by
  cases side with
  | bare digits => exact spellsAtom_digits hrun
  | enclosed sign digits =>
      have hsigned : Spells (signed (expression levels)) towerOperators (sign.char :: digits) _ :=
        spells_optional (some sign) (spellsAtom_digits hrun).tower
      have hsum : SpellsSum (expression levels) (sign.char :: digits) _ :=
        SpellsSum.of_term hsigned.term_of_signed fun _ => rfl
      exact SpellsAtom.group hsum.sum

theorem TypedNumber.spellsSum {number : TypedNumber} (hwritten : number.WrittenIn Char.isDigit) :
    SpellsSum (expression (levels + 1)) number.chars number.expr := by
  obtain ⟨sign, body⟩ := number
  cases body with
  | integer digits =>
      have hrun := hwritten digits (by simp [TypedBody.runs])
      exact SpellsSum.of_term
        (spells_optional sign (spellsAtom_digits hrun).tower).term_of_signed fun _ => rfl
  | decimal whole fraction =>
      have hwhole := hwritten whole (by simp [TypedBody.runs])
      have hfraction := hwritten fraction (by simp [TypedBody.runs])
      have hatom : SpellsAtom (expression (levels + 1)) (whole ++ '.' :: fraction) _ :=
        SpellsAtom.point hwhole.1 hwhole.2 hfraction.2
      rw [decimalValue_eq] at hatom
      exact SpellsSum.of_term (spells_optional sign hatom.tower).term_of_signed fun _ => rfl
  | quotient top bottom =>
      have htop := TypedSide.spellsAtom levels (hwritten top.digits (by simp [TypedBody.runs]))
      have hbottom := TypedSide.spellsAtom levels
        (hwritten bottom.digits (by simp [TypedBody.runs]))
      have hproduct := (SpellsProduct.of_signed (spells_optional sign htop.tower) fun _ => rfl).div
        (spellsOperator_plain (by decide) (by decide)) hbottom.tower.signed
      have hchars : TypedNumber.chars ⟨sign, .quotient top bottom⟩ =
          Sign.optionalChars sign ++ top.chars ++ (['/'] ++ bottom.chars) := by
        simp [TypedNumber.chars, TypedBody.chars]
      rw [hchars]
      exact SpellsSum.of_term hproduct.term fun _ => rfl

/-! ## Letting in -/

theorem nestsWithin_digits {limit depth : Nat} {digits rest : List Char}
    (hrun : IsRun Char.isDigit digits) :
    nestsWithin limit depth (digits ++ rest) = nestsWithin limit depth rest := by
  refine nestsWithin_append fun c hc => ?_
  have hdigit := hrun.2 c hc
  constructor
  · rintro rfl
    exact absurd hdigit (by decide)
  · rintro rfl
    exact absurd hdigit (by decide)

theorem nestsWithin_optional {limit depth : Nat} (sign : Option Sign) (rest : List Char) :
    nestsWithin limit depth (Sign.optionalChars sign ++ rest) = nestsWithin limit depth rest := by
  refine nestsWithin_append ?_
  cases sign with
  | none => simp [Sign.optionalChars]
  | some sign => cases sign <;> simp [Sign.optionalChars, Sign.char]

theorem TypedSide.nestsWithin {limit : Nat} {side : TypedSide} {rest : List Char}
    (hrun : IsRun Char.isDigit side.digits) :
    EquationPractice.nestsWithin (limit + 1) 0 (side.chars ++ rest) =
      EquationPractice.nestsWithin (limit + 1) 0 rest := by
  cases side with
  | bare digits => exact nestsWithin_digits hrun
  | enclosed sign digits =>
      have hdigits : IsRun Char.isDigit digits := hrun
      have hchars : (TypedSide.enclosed sign digits).chars ++ rest =
          '(' :: (Sign.optionalChars (some sign) ++ (digits ++ ')' :: rest)) := by
        simp [TypedSide.chars, Sign.optionalChars]
      have hinside : EquationPractice.nestsWithin (limit + 1) 1
          (Sign.optionalChars (some sign) ++ (digits ++ ')' :: rest)) =
            EquationPractice.nestsWithin (limit + 1) 0 rest := by
        rw [nestsWithin_optional, nestsWithin_digits hdigits, EquationPractice.nestsWithin,
          if_neg (by decide), if_pos rfl]
      rw [hchars, EquationPractice.nestsWithin, if_pos rfl, hinside]
      simp

/-- Typed numbers have one level of parentheses at most. -/
theorem TypedNumber.nestsWithin {limit : Nat} {number : TypedNumber}
    (hwritten : number.WrittenIn Char.isDigit) :
    EquationPractice.nestsWithin (limit + 1) 0 number.chars = true := by
  obtain ⟨sign, body⟩ := number
  unfold TypedNumber.chars
  rw [nestsWithin_optional]
  cases body with
  | integer digits =>
      have hrun := hwritten digits (by simp [TypedBody.runs])
      rw [TypedBody.chars, ← List.append_nil digits, nestsWithin_digits hrun]
      rfl
  | decimal whole fraction =>
      have hwhole := hwritten whole (by simp [TypedBody.runs])
      have hfraction := hwritten fraction (by simp [TypedBody.runs])
      rw [TypedBody.chars, nestsWithin_digits hwhole, EquationPractice.nestsWithin,
        if_neg (by decide), if_neg (by decide), ← List.append_nil fraction,
        nestsWithin_digits hfraction]
      rfl
  | quotient top bottom =>
      have htop := hwritten top.digits (by simp [TypedBody.runs])
      have hbottom := hwritten bottom.digits (by simp [TypedBody.runs])
      rw [TypedBody.chars, TypedSide.nestsWithin htop, EquationPractice.nestsWithin,
        if_neg (by decide), if_neg (by decide), ← List.append_nil bottom.chars,
        TypedSide.nestsWithin hbottom]
      rfl

end Reading

namespace TypedNumber

variable {number : TypedNumber}

/-- The characters of every run of digits are written. -/
theorem mem_chars_of_mem_runs (number : TypedNumber) {run : List Char}
    (hrun : run ∈ number.body.runs) {c : Char} (hc : c ∈ run) : c ∈ number.chars := by
  -- a side writes its digits, with or without parentheses around them
  have hside : ∀ side : TypedSide, ∀ c ∈ side.digits, c ∈ side.chars := by
    intro side c hc
    cases side with
    | bare digits => exact hc
    | enclosed sign digits =>
        have hc : c ∈ digits := hc
        simp [TypedSide.chars, hc]
  refine List.mem_append_right _ ?_
  obtain ⟨sign, body⟩ := number
  cases body with
  | integer digits =>
      rw [List.mem_singleton.mp hrun] at hc
      exact hc
  | decimal whole fraction =>
      simp only [TypedBody.runs, List.mem_cons, List.not_mem_nil, or_false] at hrun
      rcases hrun with rfl | rfl
      · exact List.mem_append_left _ hc
      · exact List.mem_append_right _ (List.mem_cons_of_mem _ hc)
  | quotient top bottom =>
      simp only [TypedBody.runs, List.mem_cons, List.not_mem_nil, or_false] at hrun
      rcases hrun with rfl | rfl
      · exact List.mem_append_left _ (hside top c hc)
      · exact List.mem_append_right _ (List.mem_cons_of_mem _ (hside bottom c hc))

theorem exists_mem_chars (hwritten : number.WrittenIn Char.isDigit) :
    ∃ c ∈ number.chars, isBlank c = false := by
  obtain ⟨run, hrun⟩ : ∃ run, run ∈ number.body.runs := by
    obtain ⟨sign, body⟩ := number
    cases body with
    | integer | decimal | quotient => exact ⟨_, List.mem_cons_self⟩
  obtain ⟨hne, hdigits⟩ := hwritten run hrun
  obtain ⟨c, hc⟩ := List.exists_mem_of_ne_nil run hne
  exact ⟨c, number.mem_chars_of_mem_runs hrun hc,
    not_isBlank_of_continuesName (continuesName_of_isDigit (hdigits c hc))⟩

/-- A typed number that is not too long is read as its expression. -/
theorem parseChars_chars (hwritten : number.WrittenIn Char.isDigit)
    (hlength : number.chars.length ≤ maxLength) : parseChars number.chars = .ok number.expr := by
  have hblank := exists_mem_chars hwritten
  have hcheck : checkText number.chars = .ok () :=
    checkText_eq_ok.mpr ⟨hblank, hlength, TypedNumber.nestsWithin hwritten⟩
  obtain ⟨levels, hlevels⟩ : ∃ levels, number.chars.length = levels + 1 := by
    obtain ⟨c, hc, -⟩ := hblank
    exact Nat.exists_eq_succ_of_ne_zero (Nat.ne_zero_of_lt (List.length_pos_of_mem hc))
  refine parseChars_of_sum hcheck ?_
  rw [hlevels]
  exact TypedNumber.spellsSum hwritten

theorem applyOptional_div (sign : Option Sign) (a b : ℚ) :
    Sign.applyOptional sign a / b = Sign.applyOptional sign (a / b) := by
  cases sign with
  | none => rfl
  | some sign =>
      cases sign with
      | plus => rfl
      | minus => exact neg_div b a

/-- The expression of a typed number has the number that is written as its value, unless the
denominator is zero. -/
theorem value?_expr (number : TypedNumber) :
    number.expr.value? = if number.body.denominator = 0 then none else some number.value := by
  obtain ⟨sign, body⟩ := number
  cases body with
  | integer digits => simp [expr, Expr.value?, TypedBody.denominator]
  | decimal whole fraction => simp [expr, Expr.value?, TypedBody.denominator]
  | quotient top bottom =>
      simp only [expr, Expr.value?, TypedBody.denominator, TypedBody.value, value,
        ← applyOptional_div]
      by_cases hzero : bottom.value = 0
      · simp [hzero]
      · simp [hzero]

/-- An expression without a value is not a number. -/
theorem expr_ne_number (hzero : number.body.denominator = 0) (q : ℚ) : number.expr ≠ .number q := by
  obtain ⟨sign, body⟩ := number
  cases body with
  | integer digits => simp [TypedBody.denominator] at hzero
  | decimal whole fraction => simp [TypedBody.denominator] at hzero
  | quotient top bottom => simp [expr]

end TypedNumber

end EquationPractice
