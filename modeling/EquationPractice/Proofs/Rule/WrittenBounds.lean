import EquationPractice.Proofs.Reading.Literals
import EquationPractice.Proofs.Text.Runs
import EquationPractice.Rule.Bounds

/-!
# Written bounds

Bounds on a number of occurrences are written in one of two shapes, and a text states at most one
thing: a comparison sign ends where the digits or the `m` after it begin, so of two signs that start
alike only the longer one leaves a digit behind.  A number may be written with leading zeros.  Printed
again, the bounds stand in the same text without them.

## Main definitions

* `Comparison.Relates`: what a comparison says of two numbers.
* `OccurrenceBounds.StatedIn`: the two shapes, with the bounds that they state.
* `withoutLeadingZeros`: a text with its numbers as they are printed.

## Main results

* `OccurrenceBounds.ofText?_written`: which texts state bounds, how those are printed, and what they
  allow.
-/

namespace EquationPractice

variable {cs digits rest : List Char} {n init bound : ℕ} {comparison : Comparison}

/-! ## Numbers with leading zeros -/

/-- Digits without the zeros before the first other digit; of zeros alone the last one stays. -/
def dropLeadingZeros : List Char → List Char
  | '0' :: c :: rest => dropLeadingZeros (c :: rest)
  | cs => cs

/-- The text with every number in it written without leading zeros. -/
def withoutLeadingZeros (text : List Char) : List Char :=
  rewriteRuns Char.isDigit (fun run => dropLeadingZeros run.chars) text

/-- A digit is the one that is printed for its distance from the zero. -/
theorem natChars_digit {c : Char} (hdigit : c.isDigit = true) :
    natChars (c.toNat - '0'.toNat) = [c] := by
  have hzero : '0'.toNat = 48 := rfl
  rw [isDigit_iff] at hdigit
  have hchar : Nat.digitChar (c.toNat - '0'.toNat) = c := by
    apply Char.toNat_inj.mp
    rw [Nat.toNat_digitChar_of_lt_ten (by omega)]
    omega
  rw [natChars, Nat.toDigits_of_lt_base (by omega), hchar]

/-- Behind a number that is not zero, all digits are printed as they are read. -/
theorem natChars_ofDigitChars (hpos : 0 < init) (hdigits : ∀ c ∈ digits, c.isDigit = true) :
    natChars (Nat.ofDigitChars 10 digits init) = natChars init ++ digits := by
  induction digits generalizing init with
  | nil => simp
  | cons c more ih =>
      have hc : c.isDigit = true := hdigits c List.mem_cons_self
      have hsmall : c.toNat - '0'.toNat < 10 := by
        rw [isDigit_iff] at hc
        have hzero : '0'.toNat = 48 := rfl
        omega
      calc natChars (Nat.ofDigitChars 10 (c :: more) init)
          = natChars (10 * init + (c.toNat - '0'.toNat)) ++ more := by
            rw [Nat.ofDigitChars_cons, ih (by omega) fun d hd => hdigits d (.tail _ hd)]
        _ = natChars init ++ natChars (c.toNat - '0'.toNat) ++ more := by
            rw [natChars, ← Nat.toDigits_append_toDigits (by decide) hpos hsmall]
            rfl
        _ = natChars init ++ c :: more := by
            rw [natChars_digit hc, List.append_assoc, List.singleton_append]

/-- Digits that are read as a number are printed without their leading zeros. -/
theorem natChars_eq_dropLeadingZeros (hdigits : IsRun Char.isDigit digits) :
    natChars (Nat.ofDigitChars 10 digits 0) = dropLeadingZeros digits := by
  obtain ⟨hne, hall⟩ := hdigits
  induction digits using dropLeadingZeros.induct with
  | case1 c rest ih =>
      rw [dropLeadingZeros, ← ih (by simp) fun d hd => hall d (.tail _ hd)]
      rfl
  | case2 cs hother =>
      obtain ⟨c, more, rfl⟩ := List.exists_cons_of_ne_nil hne
      have hc : c.isDigit = true := hall c List.mem_cons_self
      rw [dropLeadingZeros.eq_2 _ hother, Nat.ofDigitChars_cons, Nat.mul_zero, Nat.zero_add]
      cases more with
      | nil => exact natChars_digit hc
      | cons d tail =>
          -- the first of two digits is no zero
          have hpos : 0 < c.toNat - '0'.toNat := by
            have hzero : '0'.toNat = 48 := rfl
            have hne : c.toNat ≠ '0'.toNat := fun heq =>
              hother d tail (by rw [Char.toNat_inj.mp heq])
            rw [isDigit_iff] at hc
            omega
          rw [natChars_ofDigitChars hpos fun d hd => hall d (.tail _ hd), natChars_digit hc,
            List.singleton_append]

/-! ## Comparison signs -/

namespace Comparison

/-- What a comparison says of two numbers. -/
def Relates : Comparison → ℕ → ℕ → Prop
  | equal, m, n => m = n
  | notEqual, m, n => m ≠ n
  | greater, m, n => n < m
  | atLeast, m, n => n ≤ m
  | less, m, n => m < n
  | atMost, m, n => m ≤ n

theorem holds_iff (comparison : Comparison) (m n : ℕ) :
    comparison.holds m n = true ↔ comparison.Relates m n := by
  cases comparison <;> simp [holds, Relates]

theorem eq_of_read? (hread : read? cs = some (comparison, rest)) :
    cs = comparison.chars ++ rest := by
  unfold read? at hread
  split at hread
  case h_7 => cases hread
  all_goals
    obtain ⟨rfl, rfl⟩ := Prod.mk.inj (Option.some.inj hread)
    rfl

/-- A sign is read as a whole when it does not go on. -/
theorem read?_chars (comparison : Comparison) (hrest : HeadFree (· == '=') rest) :
    read? (comparison.chars ++ rest) = some (comparison, rest) := by
  have hfree : ∀ tail, rest ≠ '=' :: tail := by
    rintro tail rfl
    simp at hrest
  cases comparison with
  | equal | notEqual | atLeast | atMost => rfl
  | greater | less =>
      cases rest with
      | nil => rfl
      | cons c tail =>
          simp only [chars, List.cons_append, List.nil_append]
          unfold read?
          split <;> simp_all

theorem headFree_digit (comparison : Comparison) (rest : List Char) :
    HeadFree Char.isDigit (comparison.chars ++ rest) := by
  cases comparison <;> simp [chars]

theorem headFree_digit_reverse (comparison : Comparison) (before : List Char) :
    HeadFree Char.isDigit (before ++ comparison.chars).reverse := by
  cases comparison <;> simp [chars]

theorem not_isDigit (comparison : Comparison) : ∀ c ∈ comparison.chars, c.isDigit = false := by
  cases comparison <;> simp [chars]

end Comparison

/-! ## Bounds -/

/-- Digits that write a bound. -/
structure WritesBound (digits : List Char) (bound : ℕ) : Prop where
  isRun : IsRun Char.isDigit digits
  value_eq : Nat.ofDigitChars 10 digits 0 = bound
  le_max : bound ≤ 2 ^ 64 - 1

theorem bound?_eq_some : bound? cs = some (bound, rest) ↔
    ∃ digits, cs = digits ++ rest ∧ WritesBound digits bound ∧ HeadFree Char.isDigit rest := by
  have hmax : maxCount = 2 ^ 64 - 1 := rfl
  simp only [bound?, hmax, Option.ite_none_left_eq_some, Bool.or_eq_true, List.isEmpty_iff,
    decide_eq_true_eq, not_or, not_lt, Option.some.injEq, Prod.mk.injEq]
  constructor
  · rintro ⟨⟨hne, hle⟩, rfl, rfl⟩
    exact ⟨_, List.takeWhile_append_dropWhile.symm,
      ⟨⟨hne, fun c hc => List.mem_takeWhile_imp hc⟩, rfl, hle⟩, headFree_dropWhile _ _⟩
  · rintro ⟨digits, rfl, hwrites, hrest⟩
    have hdigits := hwrites.isRun.2
    rw [takeWhile_append_of_headFree hdigits hrest, dropWhile_append_of_headFree hdigits hrest]
    exact ⟨⟨hwrites.isRun.1, hwrites.value_eq ▸ hwrites.le_max⟩, hwrites.value_eq, rfl⟩

theorem WritesBound.printed (hwrites : WritesBound digits bound) :
    natChars bound = dropLeadingZeros digits := by
  rw [← hwrites.value_eq, natChars_eq_dropLeadingZeros hwrites.isRun]

theorem WritesBound.natChars (hle : bound ≤ 2 ^ 64 - 1) : WritesBound (natChars bound) bound where
  isRun := ⟨natChars_ne_nil bound, isDigit_of_mem_natChars⟩
  value_eq := Nat.ofDigitChars_ten_toDigits
  le_max := hle

theorem WritesBound.rewriteFrom {before : List Char} (hwrites : WritesBound digits bound)
    (hbefore : HeadFree Char.isDigit before.reverse) (hrest : HeadFree Char.isDigit rest) :
    rewriteFrom Char.isDigit (fun run => dropLeadingZeros run.chars) before (digits ++ rest) =
      EquationPractice.natChars bound ++
        EquationPractice.rewriteFrom Char.isDigit (fun run => dropLeadingZeros run.chars)
          (before ++ digits) rest := by
  rw [hwrites.printed]
  exact scanRuns_run hwrites.isRun hbefore hrest

/-- No comparison sign goes on in the digits behind it. -/
theorem WritesBound.headFree (hwrites : WritesBound digits bound) :
    HeadFree (· == '=') digits := by
  obtain ⟨c, more, rfl⟩ := List.exists_cons_of_ne_nil hwrites.isRun.1
  have hc : c.isDigit = true := hwrites.isRun.2 c List.mem_cons_self
  rw [headFree_cons, beq_eq_false_iff_ne]
  rintro rfl
  exact absurd hc (by decide)

namespace OccurrenceBounds

variable {bounds : OccurrenceBounds} {lower upper : ℕ}

/-- The characters state the bounds: a comparison sign with `m` on its left and a number on its right,
or `m` between two comparison signs with numbers on the outer sides. -/
inductive StatedIn : List Char → OccurrenceBounds → Prop
  | single {digits : List Char} {bound : ℕ} (comparison : Comparison)
      (hwrites : WritesBound digits bound) :
      StatedIn ('m' :: (comparison.chars ++ digits)) (single comparison bound)
  | range {first second : List Char} {lower upper : ℕ}
      (lowerComparison upperComparison : Comparison) (hlower : WritesBound first lower)
      (hupper : WritesBound second upper) :
      StatedIn (first ++ (lowerComparison.chars ++ 'm' :: (upperComparison.chars ++ second)))
        (range lower lowerComparison upperComparison upper)

/-- The bounds are not too large. -/
def InRange : OccurrenceBounds → Prop
  | single _ bound => bound ≤ 2 ^ 64 - 1
  | range lower _ _ upper => lower ≤ 2 ^ 64 - 1 ∧ upper ≤ 2 ^ 64 - 1

/-- The number of occurrences is as the bounds say, with the first bound of two on its left. -/
def Allows (bounds : OccurrenceBounds) (count : ℕ) : Prop :=
  match bounds with
  | single comparison bound => comparison.Relates count bound
  | range lower lowerComparison upperComparison upper =>
      lowerComparison.Relates lower count ∧ upperComparison.Relates count upper

/-! ## Reading -/

theorem single?_eq_some (hread : single? cs = some bounds) : StatedIn cs bounds := by
  unfold single? at hread
  split at hread
  · next rest =>
      simp only [Option.bind_eq_bind, Option.bind_eq_some_iff, Prod.exists,
        Option.ite_none_right_eq_some, List.isEmpty_iff, Option.some.injEq] at hread
      obtain ⟨comparison, digits, hcomparison, bound, last, hbound, rfl, rfl⟩ := hread
      obtain ⟨digits, rfl, hwrites, -⟩ := bound?_eq_some.mp hbound
      rw [Comparison.eq_of_read? hcomparison, List.append_nil]
      exact .single comparison hwrites
  · cases hread

theorem range?_eq_some (hread : range? cs = some bounds) : StatedIn cs bounds := by
  simp only [range?, Option.bind_eq_bind, Option.bind_eq_some_iff, Prod.exists] at hread
  obtain ⟨lower, rest, hlower, lowerComparison, rest, hfirst, hread⟩ := hread
  split at hread
  · simp only [Option.bind_eq_some_iff, Prod.exists, Option.ite_none_right_eq_some,
      List.isEmpty_iff, Option.some.injEq] at hread
    obtain ⟨upperComparison, rest, hsecond, upper, last, hupper, rfl, rfl⟩ := hread
    obtain ⟨first, rfl, hwritesLower, -⟩ := bound?_eq_some.mp hlower
    obtain ⟨second, rfl, hwritesUpper, -⟩ := bound?_eq_some.mp hupper
    rw [Comparison.eq_of_read? hfirst, Comparison.eq_of_read? hsecond, List.append_nil]
    exact .range lowerComparison upperComparison hwritesLower hwritesUpper
  · cases hread

theorem StatedIn.read (hstated : StatedIn cs bounds) : ofChars? cs = some bounds := by
  cases hstated with
  | single comparison hwrites =>
      have hsign := comparison.read?_chars hwrites.headFree
      have hbound := bound?_eq_some.mpr ⟨_, (List.append_nil _).symm, hwrites, headFree_nil⟩
      simp [ofChars?, single?, hsign, hbound]
  | @range first second _ _ lowerComparison upperComparison hlower hupper =>
      -- a digit stands in front, so the other shape is out
      have hsingle : ∀ tail, single? (first ++ tail) = none := by
        intro tail
        obtain ⟨c, more, rfl⟩ := List.exists_cons_of_ne_nil hlower.isRun.1
        have hc : c.isDigit = true := hlower.isRun.2 c List.mem_cons_self
        have hm : c ≠ 'm' := by
          rintro rfl
          exact absurd hc (by decide)
        simp [single?, hm]
      have hfirst := fun tail => bound?_eq_some.mpr
        ⟨first, rfl, hlower, lowerComparison.headFree_digit tail⟩
      have hsign := fun tail => lowerComparison.read?_chars
        (show HeadFree (· == '=') ('m' :: tail) by simp)
      have hother := upperComparison.read?_chars hupper.headFree
      have hsecond := bound?_eq_some.mpr ⟨_, (List.append_nil _).symm, hupper, headFree_nil⟩
      simp [ofChars?, range?, hsingle, hfirst, hsign, hother, hsecond]

/-- A text states bounds exactly if those are read from it. -/
theorem ofChars?_eq_some_iff : ofChars? cs = some bounds ↔ StatedIn cs bounds := by
  refine ⟨fun hread => ?_, StatedIn.read⟩
  rw [ofChars?, Option.orElse_eq_orElse, Option.orElse_eq_or, Option.or_eq_some_iff] at hread
  rcases hread with hsingle | ⟨-, hrange⟩
  · exact single?_eq_some hsingle
  · exact range?_eq_some hrange

/-! ## Printing -/

theorem InRange.statedIn (hrange : bounds.InRange) : StatedIn bounds.chars bounds := by
  cases bounds with
  | single comparison bound => exact .single comparison (.natChars hrange)
  | range lower lowerComparison upperComparison upper =>
      have hstated := StatedIn.range lowerComparison upperComparison (.natChars hrange.1)
        (.natChars hrange.2)
      simpa [chars] using hstated

theorem StatedIn.inRange (hstated : StatedIn cs bounds) : bounds.InRange := by
  cases hstated with
  | single comparison hwrites => exact hwrites.le_max
  | range lowerComparison upperComparison hlower hupper => exact ⟨hlower.le_max, hupper.le_max⟩

/-- The bounds are printed as in the text that states them, number by number. -/
theorem StatedIn.chars_eq (hstated : StatedIn cs bounds) :
    bounds.chars = withoutLeadingZeros cs := by
  cases hstated with
  | @single digits _ comparison hwrites =>
      have hsign : ∀ c ∈ 'm' :: comparison.chars, c.isDigit = false := by
        simpa using comparison.not_isDigit
      have hplace : HeadFree Char.isDigit ([] ++ 'm' :: comparison.chars).reverse :=
        comparison.headFree_digit_reverse ['m']
      have hbound := hwrites.rewriteFrom hplace headFree_nil
      rw [List.append_nil] at hbound
      rw [withoutLeadingZeros, rewriteRuns, ← List.cons_append, rewriteFrom_others hsign, hbound]
      simp [chars, rewriteFrom, scanRuns]
  | @range first second _ _ lowerComparison upperComparison hlower hupper =>
      have hsigns : ∀ c ∈ lowerComparison.chars ++ 'm' :: upperComparison.chars,
          c.isDigit = false := by
        simpa [or_imp, forall_and] using
          ⟨lowerComparison.not_isDigit, upperComparison.not_isDigit⟩
      have hstart : HeadFree Char.isDigit ([] : List Char).reverse := headFree_nil
      have hfirst := hlower.rewriteFrom hstart
        (lowerComparison.headFree_digit ('m' :: (upperComparison.chars ++ second)))
      have hplace : HeadFree Char.isDigit
          ([] ++ first ++ (lowerComparison.chars ++ 'm' :: upperComparison.chars)).reverse := by
        simpa using upperComparison.headFree_digit_reverse (first ++ (lowerComparison.chars ++ ['m']))
      have hsecond := hupper.rewriteFrom hplace headFree_nil
      have hmiddle : lowerComparison.chars ++ 'm' :: (upperComparison.chars ++ second) =
          lowerComparison.chars ++ 'm' :: upperComparison.chars ++ second := by simp
      rw [List.append_nil] at hsecond
      rw [withoutLeadingZeros, rewriteRuns, hfirst, hmiddle, rewriteFrom_others hsigns, hsecond]
      simp [chars, rewriteFrom, scanRuns]

theorem holds_iff_allows (bounds : OccurrenceBounds) (count : ℕ) :
    bounds.holds count = true ↔ bounds.Allows count := by
  cases bounds with
  | single comparison bound => exact comparison.holds_iff count bound
  | range lower lowerComparison upperComparison upper =>
      rw [holds, Bool.and_eq_true, lowerComparison.holds_iff, upperComparison.holds_iff]
      rfl

/-- **Written bounds.**  A text states bounds in one of two shapes, with numbers up to the largest
one, or is not accepted; bounds are read back from how they are printed; what is printed for a text is
the text without the leading zeros of its numbers; and the bounds allow a number of occurrences as
the comparisons say. -/
theorem ofText?_written (text : String) (bounds : OccurrenceBounds) (count : ℕ) :
    (ofText? text = some bounds ↔ StatedIn text.toList bounds) ∧
    (ofText? bounds.text = some bounds ↔ bounds.InRange) ∧
    (ofText? text = some bounds → bounds.text.toList =
      withoutLeadingZeros text.toList) ∧
    (bounds.holds count = true ↔ bounds.Allows count) := by
  have hread : ∀ text : String, ofText? text = some bounds ↔ StatedIn text.toList bounds :=
    fun text => ofChars?_eq_some_iff
  refine ⟨hread text, ?_, fun hsome => ?_, bounds.holds_iff_allows count⟩
  · rw [hread, OccurrenceBounds.text, String.toList_ofList]
    exact ⟨StatedIn.inRange, InRange.statedIn⟩
  · rw [OccurrenceBounds.text, String.toList_ofList]
    exact ((hread text).mp hsome).chars_eq

theorem ofText?_written_leading_zeros : ∃ bounds,
    ofText? "007<=m<0010" = some bounds ∧ StatedIn "007<=m<0010".toList bounds ∧
    bounds.text = "7<=m<10" ∧ bounds.text.toList = withoutLeadingZeros "007<=m<0010".toList ∧
    ofText? bounds.text = some bounds ∧ bounds.Allows 7 ∧ ¬bounds.Allows 10 := by
  have hread : ofText? "007<=m<0010" = some (range 7 .atMost .less 10) := by decide +kernel
  obtain ⟨hstated, hprinted, hwithout, hseven⟩ :=
    ofText?_written "007<=m<0010" (range 7 .atMost .less 10) 7
  obtain ⟨-, -, -, hten⟩ := ofText?_written "007<=m<0010" (range 7 .atMost .less 10) 10
  refine ⟨_, hread, hstated.mp hread, by decide +kernel, hwithout hread, hprinted.mpr ?_,
    hseven.mp (by decide), fun hallows => ?_⟩
  · exact ⟨by norm_num, by norm_num⟩
  · exact absurd (hten.mpr hallows) (by decide)

end OccurrenceBounds

end EquationPractice
