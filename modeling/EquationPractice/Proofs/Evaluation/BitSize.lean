import EquationPractice.Proofs.Evaluation.Constants
import EquationPractice.Proofs.Reading.Relations

/-!
# How large values can become

A power is evaluated only if its size keeps a limit, which is checked before it is computed, on the
sizes of base and exponent.  Sums, products and quotients are computed without a limit.  Still no
text makes the evaluator build a large number: what a text says can be added up and multiplied only
as often as it has characters for the operands.

## Strategy

The width of a fraction is the size of the larger of its numerator and denominator.  The width of a
sum, product or quotient is at most that of its operands together and one more.  So if every operand
stays one bit below its share, `4096` bits for each of its characters, the result stays below the
shares of both; it needs no characters of its own, and a product without an operator has none.  A
power alone may use up a whole share, and then it has the character `^` to pay with.

The induction is on the derivation of the text, so each part of the tree is charged to the characters
that it was read from.

## Main definitions

* `bitWidth`: the size of the larger of numerator and denominator.
* `Expr.HasShares`: all parts stay below the share of a number of characters.
-/

namespace EquationPractice

open EquationPractice.Expr

/-! ## Sizes of natural numbers -/

section bitLength

variable {m n k : ℕ}

theorem bitLength_le_iff : bitLength n ≤ k ↔ n < 2 ^ k := by
  unfold bitLength
  split
  · next hzero => simp [hzero]
  · next hne => rw [Nat.succ_le_iff, Nat.log2_lt hne]

theorem lt_two_pow_bitLength (n : ℕ) : n < 2 ^ bitLength n :=
  bitLength_le_iff.mp le_rfl

theorem bitLength_le_bitLength (hle : m ≤ n) : bitLength m ≤ bitLength n :=
  bitLength_le_iff.mpr (hle.trans_lt (lt_two_pow_bitLength n))

theorem bitLength_mul_le (m n : ℕ) : bitLength (m * n) ≤ bitLength m + bitLength n := by
  rw [bitLength_le_iff, pow_add]
  exact Nat.mul_lt_mul'' (lt_two_pow_bitLength m) (lt_two_pow_bitLength n)

theorem bitLength_pow_le (n : ℕ) (hne : k ≠ 0) : bitLength (n ^ k) ≤ bitLength n * k := by
  rw [bitLength_le_iff, pow_mul]
  exact Nat.pow_lt_pow_left (lt_two_pow_bitLength n) hne

theorem bitLength_add_le (hm : bitLength m ≤ k) (hn : bitLength n ≤ k) :
    bitLength (m + n) ≤ k + 1 := by
  rw [bitLength_le_iff] at hm hn ⊢
  rw [pow_succ]
  omega

end bitLength

/-! ## Sizes of fractions -/

/-- The size of the larger of numerator and denominator. -/
def bitWidth (q : ℚ) : ℕ :=
  max (bitLength q.num.natAbs) (bitLength q.den)

section fractions

variable {q r : ℚ} {k : ℕ}

theorem bitWidth_le_iff :
    bitWidth q ≤ k ↔ bitLength q.num.natAbs ≤ k ∧ bitLength q.den ≤ k :=
  max_le_iff

theorem bitWidth_le_bitSize (q : ℚ) : bitWidth q ≤ bitSize q :=
  max_le (Nat.le_add_right _ _) (Nat.le_add_left _ _)

/-- Reducing a fraction makes neither number larger. -/
theorem bitWidth_divInt_le {a b : ℤ} (hb : b ≠ 0) (ha : bitLength a.natAbs ≤ k)
    (hbits : bitLength b.natAbs ≤ k) : bitWidth (Rat.divInt a b) ≤ k := by
  refine bitWidth_le_iff.mpr ⟨?_, ?_⟩
  · rcases eq_or_ne a 0 with rfl | hne
    · rw [Rat.zero_divInt]
      exact ha
    · have hdvd := Int.natAbs_dvd_natAbs.mpr (Rat.num_dvd a hb)
      exact (bitLength_le_bitLength (Nat.le_of_dvd (Int.natAbs_pos.mpr hne) hdvd)).trans ha
  · have hdvd := Int.natCast_dvd.mp (Rat.den_dvd a b)
    exact (bitLength_le_bitLength (Nat.le_of_dvd (Int.natAbs_pos.mpr hb) hdvd)).trans hbits

theorem bitWidth_neg (q : ℚ) : bitWidth (-q) = bitWidth q := by
  rw [bitWidth, bitWidth, Rat.neg_num, Rat.neg_den, Int.natAbs_neg]

theorem bitWidth_add_le (q r : ℚ) : bitWidth (q + r) ≤ bitWidth q + bitWidth r + 1 := by
  obtain ⟨hqnum, hqden⟩ := bitWidth_le_iff.mp (le_refl (bitWidth q))
  obtain ⟨hrnum, hrden⟩ := bitWidth_le_iff.mp (le_refl (bitWidth r))
  have hdens : (q.den : ℤ) * r.den ≠ 0 := by
    exact_mod_cast mul_ne_zero q.den_nz r.den_nz
  rw [Rat.add_num_den]
  refine bitWidth_divInt_le hdens ?_ ?_
  · have hleft : bitLength (q.num * r.den).natAbs ≤ bitWidth q + bitWidth r := by
      rw [Int.natAbs_mul, Int.natAbs_natCast]
      exact (bitLength_mul_le _ _).trans (Nat.add_le_add hqnum hrden)
    have hright : bitLength (q.den * r.num).natAbs ≤ bitWidth q + bitWidth r := by
      rw [Int.natAbs_mul, Int.natAbs_natCast]
      exact (bitLength_mul_le _ _).trans (Nat.add_le_add hqden hrnum)
    exact (bitLength_le_bitLength (Int.natAbs_add_le _ _)).trans (bitLength_add_le hleft hright)
  · rw [Int.natAbs_mul, Int.natAbs_natCast, Int.natAbs_natCast]
    exact (bitLength_mul_le _ _).trans ((Nat.add_le_add hqden hrden).trans (Nat.le_succ _))

theorem bitWidth_sub_le (q r : ℚ) : bitWidth (q - r) ≤ bitWidth q + bitWidth r + 1 := by
  rw [sub_eq_add_neg, ← bitWidth_neg r]
  exact bitWidth_add_le q (-r)

theorem bitWidth_mul_le (q r : ℚ) : bitWidth (q * r) ≤ bitWidth q + bitWidth r := by
  obtain ⟨hqnum, hqden⟩ := bitWidth_le_iff.mp (le_refl (bitWidth q))
  obtain ⟨hrnum, hrden⟩ := bitWidth_le_iff.mp (le_refl (bitWidth r))
  have hdens : (q.den : ℤ) * r.den ≠ 0 := by
    exact_mod_cast mul_ne_zero q.den_nz r.den_nz
  rw [Rat.mul_def', Rat.mkRat_eq_divInt, Nat.cast_mul]
  refine bitWidth_divInt_le hdens ?_ ?_
  · rw [Int.natAbs_mul]
    exact (bitLength_mul_le _ _).trans (Nat.add_le_add hqnum hrnum)
  · rw [Int.natAbs_mul, Int.natAbs_natCast, Int.natAbs_natCast]
    exact (bitLength_mul_le _ _).trans (Nat.add_le_add hqden hrden)

/-- In the reciprocal, numerator and denominator have changed places. -/
theorem natAbs_num_inv (hne : q ≠ 0) : q⁻¹.num.natAbs = q.den := by
  rw [Rat.num_inv, Int.natAbs_mul, Int.natAbs_sign_of_ne_zero (Rat.num_ne_zero.mpr hne), one_mul,
    Int.natAbs_natCast]

theorem bitSize_inv (hne : q ≠ 0) : bitSize q⁻¹ = bitSize q := by
  rw [bitSize, natAbs_num_inv hne, Rat.den_inv_of_ne_zero hne, add_comm, bitSize]

theorem bitWidth_inv (q : ℚ) : bitWidth q⁻¹ = bitWidth q := by
  rcases eq_or_ne q 0 with rfl | hne
  · rw [inv_zero]
  · rw [bitWidth, natAbs_num_inv hne, Rat.den_inv_of_ne_zero hne, max_comm, bitWidth]

theorem bitWidth_div_le (q r : ℚ) : bitWidth (q / r) ≤ bitWidth q + bitWidth r := by
  rw [div_eq_mul_inv, ← bitWidth_inv r]
  exact bitWidth_mul_le q r⁻¹

theorem bitSize_pow_le (q : ℚ) (hne : k ≠ 0) : bitSize (q ^ k) ≤ bitSize q * k := by
  rw [bitSize, Rat.num_pow, Rat.den_pow, Int.natAbs_pow, bitSize, add_mul]
  exact Nat.add_le_add (bitLength_pow_le _ hne) (bitLength_pow_le _ hne)

/-- A power that is evaluated keeps the limit that is checked before it is computed. -/
theorem bitSize_le_of_exactPow? {base exponent power : ℚ}
    (hpower : exactPow? base exponent = some power) : bitSize power ≤ 4096 := by
  obtain ⟨⟨k, rfl, -, hsize, hzero⟩, rfl⟩ := exactPow?_eq_some_iff.mp hpower
  rw [Rat.num_intCast]
  rcases eq_or_ne k 0 with rfl | hne
  · rw [zpow_zero]
    decide
  · have hle := (bitSize_pow_le base (Int.natAbs_ne_zero.mpr hne)).trans hsize
    rcases Int.natAbs_eq k with hk | hk
    · rw [hk, zpow_natCast]
      exact hle
    · have hbase : base ≠ 0 := by
        intro heq
        exact hzero ⟨heq, by omega⟩
      rw [hk, zpow_neg, zpow_natCast, bitSize_inv (pow_ne_zero _ hbase)]
      exact hle

end fractions

/-! ## Literals -/

/-- Reading on in more digits. -/
theorem ofDigitChars_lt {digits : List Char} (hdigits : ∀ c ∈ digits, c.isDigit = true) (init : ℕ) :
    Nat.ofDigitChars 10 digits init < 10 ^ digits.length * (init + 1) := by
  induction digits generalizing init with
  | nil => simp
  | cons c rest ih =>
      have hc := isDigit_iff.mp (hdigits c List.mem_cons_self)
      have hrest := ih (fun d hd => hdigits d (List.mem_cons_of_mem _ hd))
        (10 * init + (c.toNat - '0'.toNat))
      rw [Nat.ofDigitChars_cons, List.length_cons, pow_succ, mul_assoc]
      refine hrest.trans_le (Nat.mul_le_mul_left _ ?_)
      have hzero : '0'.toNat = 48 := rfl
      omega

/-- A literal has at most four bits for each digit. -/
theorem bitWidth_decimalValue_le {whole fraction : List Char}
    (hne : whole ≠ [] ∨ fraction ≠ []) (hwhole : ∀ c ∈ whole, c.isDigit = true)
    (hfraction : ∀ c ∈ fraction, c.isDigit = true) :
    bitWidth (decimalValue whole fraction) ≤ 4 * (whole.length + fraction.length) := by
  have hlength : whole.length + fraction.length ≠ 0 := by
    simpa [or_iff_not_imp_left] using hne
  have hsixteen : 10 ^ (whole.length + fraction.length) <
      2 ^ (4 * (whole.length + fraction.length)) := by
    rw [pow_mul]
    exact Nat.pow_lt_pow_left (by decide) hlength
  have hden : 10 ^ fraction.length ≤ 10 ^ (whole.length + fraction.length) :=
    Nat.pow_le_pow_right (by decide) (Nat.le_add_left _ _)
  have hnum : Nat.ofDigitChars 10 fraction (Nat.ofDigitChars 10 whole 0) <
      10 ^ (whole.length + fraction.length) := by
    have hbefore := ofDigitChars_lt hwhole 0
    calc Nat.ofDigitChars 10 fraction (Nat.ofDigitChars 10 whole 0)
        < 10 ^ fraction.length * (Nat.ofDigitChars 10 whole 0 + 1) := ofDigitChars_lt hfraction _
      _ ≤ 10 ^ fraction.length * 10 ^ whole.length := Nat.mul_le_mul_left _ (by omega)
      _ = 10 ^ (whole.length + fraction.length) := by rw [pow_add, mul_comm]
  unfold decimalValue
  rw [← Rat.divInt_ofNat]
  refine bitWidth_divInt_le (by simp) ?_ ?_
  · exact bitLength_le_iff.mpr (hnum.trans hsixteen)
  · exact bitLength_le_iff.mpr (hden.trans_lt hsixteen)

theorem bitWidth_literal_le {cs : List Char} {q : ℚ} (hliteral : IsLiteral cs q) :
    bitWidth q ≤ 4 * cs.length ∧ cs ≠ [] := by
  refine ⟨?_, hliteral.ne_nil⟩
  cases hliteral with
  | whole hne hdigits => exact bitWidth_decimalValue_le (Or.inl hne) hdigits (by simp)
  | @point whole fraction hne hwhole hfraction =>
      have hle := bitWidth_decimalValue_le hne hwhole hfraction
      rw [List.length_append, List.length_cons]
      omega

/-! ## Shares -/

namespace Expr

/-- Every part that has a value stays below `4096` bits for each of so many characters. -/
def HasShares (chars : ℕ) (e : Expr) : Prop :=
  ∀ part ∈ e.parts, ∀ q, part.value? = some q → bitWidth q < 4096 * chars

section shares

variable {m n : ℕ} {e f l r b x : Expr}

theorem HasShares.mono (hshares : HasShares m e) (hle : m ≤ n) : HasShares n e :=
  fun part hpart q hvalue =>
    (hshares part hpart q hvalue).trans_le (Nat.mul_le_mul_left _ hle)

theorem hasShares_var (name : String) : HasShares n (var name) := by
  intro part hpart q hvalue
  obtain rfl := List.mem_singleton.mp hpart
  exact absurd hvalue (by simp [value?])

theorem hasShares_number {q : ℚ} (hwidth : bitWidth q < 4096 * n) : HasShares n (number q) := by
  intro part hpart p hvalue
  obtain rfl := List.mem_singleton.mp hpart
  obtain rfl := Option.some.inj hvalue
  exact hwidth

theorem HasShares.neg (hshares : HasShares n e) : HasShares n (neg e) := by
  refine List.forall_mem_cons.mpr ⟨?_, hshares⟩
  intro q hvalue
  obtain ⟨a, ha, rfl⟩ := value?_neg_eq_some.mp hvalue
  rw [bitWidth_neg]
  exact hshares e mem_parts_self a ha

theorem HasShares.negate (hshares : HasShares n e) : HasShares n (negate e) := by
  cases e with
  | number q =>
      refine hasShares_number ?_
      rw [bitWidth_neg]
      exact hshares _ mem_parts_self q rfl
  | var name | add l r | sub l r | mul l r | div l r | pow b x | neg e => exact hshares.neg

theorem HasShares.signs {run : List Char} (hrun : Signs run e f) (hshares : HasShares n e) :
    HasShares n f := by
  induction hrun with
  | none => exact hshares
  | plus hgaps hrun ih => exact ih hshares
  | minus hgaps hrun ih => exact (ih hshares).negate

/-- An operation whose result is at most one bit wider than its operands together needs no share of
its own. -/
theorem HasShares.operation (hleft : HasShares m l) (hright : HasShares n r)
    (hparts : e.parts = e :: (l.parts ++ r.parts))
    (hresult : ∀ q, e.value? = some q → ∃ a c, l.value? = some a ∧ r.value? = some c ∧
      bitWidth q ≤ bitWidth a + bitWidth c + 1) : HasShares (m + n) e := by
  unfold HasShares
  rw [hparts]
  refine List.forall_mem_cons.mpr ⟨?_, List.forall_mem_append.mpr
    ⟨hleft.mono (Nat.le_add_right m n), hright.mono (Nat.le_add_left n m)⟩⟩
  intro q hvalue
  obtain ⟨a, c, ha, hc, hwidth⟩ := hresult q hvalue
  have hwidthLeft := hleft l mem_parts_self a ha
  have hwidthRight := hright r mem_parts_self c hc
  omega

theorem HasShares.add (hleft : HasShares m l) (hright : HasShares n r) :
    HasShares (m + n) (add l r) := by
  refine hleft.operation hright rfl fun q hvalue => ?_
  obtain ⟨a, ha, c, hc, rfl⟩ := value?_add_eq_some.mp hvalue
  exact ⟨a, c, ha, hc, bitWidth_add_le a c⟩

theorem HasShares.sub (hleft : HasShares m l) (hright : HasShares n r) :
    HasShares (m + n) (sub l r) := by
  refine hleft.operation hright rfl fun q hvalue => ?_
  obtain ⟨a, ha, c, hc, rfl⟩ := value?_sub_eq_some.mp hvalue
  exact ⟨a, c, ha, hc, bitWidth_sub_le a c⟩

theorem HasShares.mul (hleft : HasShares m l) (hright : HasShares n r) :
    HasShares (m + n) (mul l r) := by
  refine hleft.operation hright rfl fun q hvalue => ?_
  obtain ⟨a, ha, c, hc, rfl⟩ := value?_mul_eq_some.mp hvalue
  exact ⟨a, c, ha, hc, (bitWidth_mul_le a c).trans (Nat.le_succ _)⟩

theorem HasShares.div (hleft : HasShares m l) (hright : HasShares n r) :
    HasShares (m + n) (div l r) := by
  refine hleft.operation hright rfl fun q hvalue => ?_
  obtain ⟨c, hc, -, a, ha, rfl⟩ := value?_div_eq_some.mp hvalue
  exact ⟨a, c, ha, hc, (bitWidth_div_le a c).trans (Nat.le_succ _)⟩

/-- A power has a share of its own, whatever its operands are. -/
theorem HasShares.pow (hbase : HasShares m b) (hexponent : HasShares n x) :
    HasShares (m + n + 1) (pow b x) := by
  refine List.forall_mem_cons.mpr ⟨?_, List.forall_mem_append.mpr
    ⟨hbase.mono (by omega), hexponent.mono (by omega)⟩⟩
  intro q hvalue
  obtain ⟨k, hk, a, ha, hpower⟩ := value?_pow_eq_some.mp hvalue
  have hwidth := (bitWidth_le_bitSize q).trans (bitSize_le_of_exactPow? hpower)
  have hwidthBase := hbase b mem_parts_self a ha
  omega

end shares

end Expr

/-! ## Texts -/

/-- What is derived from a text has a share for each of its characters. -/
theorem Derives.hasShares {layer : Layer} {cs next : List Char} {e : Expr}
    (hderives : Derives layer cs next e) : HasShares cs.length e := by
  induction hderives with
  | @literal gaps cs next q hgaps hvalue hmaximal =>
      obtain ⟨hwidth, hne⟩ := bitWidth_literal_le hvalue
      have hlength := List.length_pos_iff.mpr hne
      refine hasShares_number ?_
      rw [List.length_append]
      omega
  | name hgaps hmaximal => exact hasShares_var _
  | group hbefore hafter hbody ih =>
      refine ih.mono ?_
      simp only [List.length_append, List.length_cons]
      omega
  | base hatom ih => exact ih
  | pow hgaps hbase hrun hexponent ihb ihx =>
      refine (ihb.pow (ihx.signs hrun)).mono ?_
      simp only [List.length_append, List.length_cons]
      omega
  | signed hrun hpower ih =>
      refine (ih.signs hrun).mono ?_
      simp only [List.length_append, Nat.le_add_left]
  | operand hsigned ih => exact ih
  | mul hgaps hleft hright ihl ihr =>
      refine (ihl.mul ihr).mono ?_
      simp only [List.length_append, List.length_cons]
      omega
  | div hgaps hleft hright ihl ihr =>
      refine (ihl.div ihr).mono ?_
      simp only [List.length_append, List.length_cons]
      omega
  | product hproduct ih => exact ih
  | factor hleft hends hstart hfactor ihl ihr =>
      -- no character stands for the multiplication
      rw [List.length_append]
      exact ihl.mul ihr
  | summand hterm ih => exact ih
  | add hgaps hleft hright ihl ihr =>
      refine (ihl.add ihr).mono ?_
      simp only [List.length_append, List.length_cons]
      omega
  | sub hgaps hleft hright ihl ihr =>
      refine (ihl.sub ihr).mono ?_
      simp only [List.length_append, List.length_cons]
      omega

/-- **No text makes a huge number.**  Every power that is evaluated has at most 4096 bits in its
numerator and denominator together.  In what a text is read as, every part that has a value has one
whose numerator and denominator have at most 4096 bits each for every character of the text. -/
theorem bitLength_value?_le :
    (∀ b x q, (pow b x).value? = some q → bitSize q ≤ 4096) ∧
    ∀ text e, parse text = .ok e → ∀ part ∈ e.parts, ∀ q, part.value? = some q →
      bitLength q.num.natAbs ≤ 4096 * text.length ∧ bitLength q.den ≤ 4096 * text.length := by
  constructor
  · intro b x q hvalue
    obtain ⟨k, -, a, -, hpower⟩ := value?_pow_eq_some.mp hvalue
    exact bitSize_le_of_exactPow? hpower
  · intro text e hparse part hpart q hvalue
    obtain ⟨taken, blanks, htext, -, hderives⟩ := exists_derives_of_parseChars hparse
    have hlength : taken.length ≤ text.length := by
      rw [← String.length_toList, htext, List.length_append]
      exact Nat.le_add_right _ _
    exact bitWidth_le_iff.mp (hderives.hasShares.mono hlength part hpart q hvalue).le

/-- The square of a number of 203 bits, as a product without an operator. -/
theorem bitLength_value?_le_implicit :
    let e := Expr.mul (.pow (.number 9) (.number 64)) (.pow (.number 9) (.number 64))
    parse "9^64(9^64)" = .ok e ∧ e.value? = some (9 ^ 128) ∧
      bitSize (9 ^ 64) ≤ 4096 ∧ bitLength (9 ^ 128 : ℚ).num.natAbs ≤ 4096 * "9^64(9^64)".length := by
  intro e
  have hparse : parse "9^64(9^64)" = .ok e := by decide +kernel
  have hvalue : e.value? = some (9 ^ 128) := by decide +kernel
  have hpower : (Expr.pow (.number 9) (.number 64)).value? = some (9 ^ 64) := by decide +kernel
  obtain ⟨hpowers, htexts⟩ := bitLength_value?_le
  exact ⟨hparse, hvalue, hpowers _ _ _ hpower, (htexts _ e hparse e mem_parts_self _ hvalue).1⟩

end EquationPractice
