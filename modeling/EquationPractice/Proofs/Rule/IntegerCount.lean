import EquationPractice.Proofs.Exercise.TypedForms
import EquationPractice.Proofs.Regex.Counting
import EquationPractice.Proofs.Text.Runs

/-!
# Counting integers in a text

In a text of ASCII characters the rule for integers has at most one match in a maximal run of digits.
It begins where the run begins, for right behind a digit the left edge fails.  But it need not end
where the run ends.  In front of a point the repetition gives back the last digit of the run, and what
then stands right behind the match is that digit and no point.  So only a run of a single digit is
kept from being counted by a point behind it.

## Main definitions

* `Run.isFreeOnLeft`, `Run.isFreeOnRight`: what does not stand right before and right behind a run.
* `Run.holdsInteger`: whether the rule for integers has a match in a maximal run of digits.
-/

namespace EquationPractice

open Text StandardForm Regex

namespace Run

/-- Whether neither a letter nor a point stands right before a run. -/
def isFreeOnLeft (run : Run) : Bool :=
  !run.before.getLast?.any fun c => c.isAlpha || c == '.'

/-- Whether no point stands right behind a run. -/
def isFreeOnRight (run : Run) : Bool :=
  !run.after.head?.any (· == '.')

/-- Whether the rule for integers has a match in a maximal run of digits. -/
def holdsInteger (run : Run) : Bool :=
  run.isFreeOnLeft && (run.isFreeOnRight || 2 ≤ run.chars.length)

end Run

variable {before word rest taken after : List Char} {text : String} {rule : Rule}

/-- What the rule for integers takes. -/
def integerShape : Shape := fun before taken after =>
  IsRun isDecimalDigit taken ∧ Detached before after

theorem contains_leftNeighbours (c : Char) :
    leftNeighbours.contains c = (c.isDigit || (c.isAlpha || c == '.')) := by
  rw [Bool.eq_iff_iff, Bool.or_eq_true, Bool.or_eq_true, isAlpha_iff, isDigit_iff]
  simp [leftNeighbours, CharSet.contains, Char.le_def, UInt32.le_iff_toNat_le]
  tauto

theorem isFreeOnRight_iff : (Run.mk before word rest).isFreeOnRight = true ↔
    HeadFree (· == '.') rest := by
  cases rest with
  | nil => simp [Run.isFreeOnRight]
  | cons c tail => simp [Run.isFreeOnRight]

/-- Right before a maximal run of digits stands no digit. -/
theorem isFreeOnLeft_iff (hbefore : HeadFree Char.isDigit before.reverse) :
    (Run.mk before word rest).isFreeOnLeft = true ↔
      HeadFree leftNeighbours.contains before.reverse := by
  rw [headFree_reverse] at hbefore ⊢
  rw [Run.isFreeOnLeft, Bool.not_eq_true']
  cases hlast : before.getLast? with
  | none => simp
  | some c =>
      rw [hlast, Option.any_some] at hbefore
      simp [contains_leftNeighbours, hbefore]

/-- Right behind a left neighbour of an integer, digits are not taken, nor are digits behind them. -/
theorem isAbsent_integer (hword : ∀ c ∈ word, c.isDigit = true)
    (hbefore : ¬HeadFree leftNeighbours.contains before.reverse) :
    integerShape.IsAbsent before word rest := by
  rintro first second rfl - taken after - ⟨-, hdetached⟩
  cases hfirst : first with
  | nil => exact hbefore (by simpa [hfirst] using hdetached.left)
  | cons c more =>
      have hrun : IsRun leftNeighbours.contains first := by
        refine ⟨by simp [hfirst], fun d hd => ?_⟩
        rw [contains_leftNeighbours, hword d (List.mem_append_left _ hd), Bool.true_or]
      exact not_headFree_reverse hrun hdetached.left

/-- What can be taken where a maximal run of digits begins is a part of the run. -/
theorem exists_eq_append_of_integerShape (hascii : ∀ c ∈ word ++ rest, c.toNat < 128)
    (hrest : HeadFree Char.isDigit rest) (htext : word ++ rest = taken ++ after)
    (hshape : integerShape before taken after) :
    ∃ more, word = taken ++ more ∧ after = more ++ rest := by
  refine exists_eq_append_of_append_eq (fun c hc => ?_) hrest htext
  have hsmall := hascii c (htext ▸ List.mem_append_left _ hc)
  simpa [isDecimalDigit, hsmall] using hshape.1.2 c hc

/-- Where a maximal run of digits begins, all of it can be taken, or all but its last digit. -/
theorem exists_integerShape (hword : IsRun Char.isDigit word)
    (hbefore : HeadFree leftNeighbours.contains before.reverse)
    (hmatch : HeadFree (· == '.') rest ∨ 2 ≤ word.length) :
    ∃ taken after, word ++ rest = taken ++ after ∧ integerShape before taken after := by
  have hdigits : ∀ c ∈ word, isDecimalDigit c = true := fun c hc =>
    isDecimalDigit_of_isDigit (hword.2 c hc)
  rcases hmatch with hrest | hlength
  · exact ⟨word, rest, rfl, ⟨hword.1, hdigits⟩, hbefore, hrest⟩
  · obtain ⟨init, c, rfl⟩ := (List.eq_nil_or_concat' word).resolve_left hword.1
    have hc := hword.2 c (by simp)
    refine ⟨init, c :: rest, by simp, ⟨?_, fun d hd => hdigits d (by simp [hd])⟩, hbefore, ?_⟩
    · rintro rfl
      simp at hlength
    · rw [headFree_cons, beq_eq_false_iff_ne]
      rintro rfl
      exact absurd hc (by decide)

theorem hasShape_integer : (inSequence bareInteger).HasShape integerShape :=
  hasShape_bareInteger

/-- A run that holds an integer is counted once: no match begins in what is left of it. -/
theorem counts_of_holdsInteger {n : Nat} (hascii : ∀ c ∈ word ++ rest, c.toNat < 128)
    (hword : IsRun Char.isDigit word) (hbefore : HeadFree Char.isDigit before.reverse)
    (hrest : HeadFree Char.isDigit rest) (hholds : (Run.mk before word rest).holdsInteger = true)
    (hcount : (inSequence bareInteger).Counts (before ++ word) rest n) :
    (inSequence bareInteger).Counts before (word ++ rest) (n + 1) := by
  simp only [Run.holdsInteger, Bool.and_eq_true, Bool.or_eq_true, isFreeOnLeft_iff hbefore,
    isFreeOnRight_iff, decide_eq_true_eq] at hholds
  obtain ⟨taken, after, htext, hshape⟩ := exists_integerShape hword hholds.1 hholds.2
  obtain ⟨other, tail, hother, hshape, hspan⟩ := hasShape_integer.exists_spanAt?_eq_some hshape
  rw [← htext] at hother hspan
  obtain ⟨more, rfl, -⟩ := exists_eq_append_of_integerShape hascii hrest hother hshape
  rw [List.append_assoc] at hspan ⊢
  refine Counts.take hshape.1.1 hspan (Counts.skipAll hasShape_integer ?_ ?_)
  · -- the rest of the run stands right behind a digit
    refine isAbsent_integer (fun c hc => hword.2 c (List.mem_append_right _ hc)) ?_
    refine not_headFree_reverse ⟨hshape.1.1, fun c hc => ?_⟩
    rw [contains_leftNeighbours, hword.2 c (List.mem_append_left _ hc), Bool.true_or]
  · simpa using hcount

/-- A run that holds no integer is passed over. -/
theorem counts_of_not_holdsInteger {n : Nat} (hascii : ∀ c ∈ word ++ rest, c.toNat < 128)
    (hword : IsRun Char.isDigit word) (hbefore : HeadFree Char.isDigit before.reverse)
    (hrest : HeadFree Char.isDigit rest) (hholds : ¬(Run.mk before word rest).holdsInteger = true)
    (hcount : (inSequence bareInteger).Counts (before ++ word) rest n) :
    (inSequence bareInteger).Counts before (word ++ rest) n := by
  refine Counts.skipAll hasShape_integer ?_ hcount
  by_cases hleft : HeadFree leftNeighbours.contains before.reverse
  · -- the run is a single digit, and a point stands behind it
    simp only [Run.holdsInteger, Bool.and_eq_true, Bool.or_eq_true, isFreeOnLeft_iff hbefore,
      isFreeOnRight_iff, decide_eq_true_eq, hleft, true_and, not_or] at hholds
    obtain ⟨c, rfl⟩ : ∃ c, word = [c] := by
      have hlength := List.length_pos_iff.mpr hword.1
      exact List.length_eq_one_iff.mp (by omega)
    rintro first second hsplit hne taken after htext hshape
    have hfirst : first = [] := by
      rcases List.append_eq_singleton_iff.mp hsplit.symm with ⟨hfirst, -⟩ | ⟨-, hsecond⟩
      · exact hfirst
      · exact absurd hsecond hne
    subst hfirst
    obtain rfl : [c] = second := hsplit
    obtain ⟨more, hmore, rfl⟩ := exists_eq_append_of_integerShape hascii hrest htext hshape
    have hnil : more = [] := by
      rcases List.append_eq_singleton_iff.mp hmore.symm with ⟨htaken, -⟩ | ⟨-, hmore⟩
      · exact absurd htaken hshape.1.1
      · exact hmore
    subst hnil
    exact hholds.1 hshape.2.right
  · exact isAbsent_integer hword.2 hleft

/-- From a place that is not inside of a run of digits, one match is found for every run that holds
an integer. -/
theorem counts_integer (hplace : HeadFree Char.isDigit before.reverse ∨ HeadFree Char.isDigit rest)
    (hascii : ∀ c ∈ rest, c.toNat < 128) : (inSequence bareInteger).Counts before rest
      ((runsFrom Char.isDigit before rest).countP Run.holdsInteger) := by
  revert hascii
  refine runs_induction Char.isDigit (motive := fun before rest => (∀ c ∈ rest, c.toNat < 128) →
    (inSequence bareInteger).Counts before rest
      ((runsFrom Char.isDigit before rest).countP Run.holdsInteger)) ?nil ?other ?run before rest
        hplace
  case nil =>
    intro before _
    have hspan : (inSequence bareInteger).spanAt? (before ++ []) before.length = none := by
      refine hasShape_integer.spanAt?_eq_none fun taken after htext hshape => hshape.1.1 ?_
      exact (List.append_eq_nil_iff.mp htext.symm).1
    rw [List.append_nil] at hspan
    exact Counts.nil hspan
  case other =>
    intro before c rest hc ih hascii
    rw [runsFrom, scanRuns_other hc]
    refine Counts.skip (hasShape_integer.spanAt?_eq_none fun taken after htext hshape => ?_)
      (ih fun d hd => hascii d (List.mem_cons_of_mem _ hd))
    -- no digit stands here, so the run that the match would begin with is empty
    have hempty : [] ++ c :: rest = taken ++ after := htext
    obtain ⟨more, hnil, -⟩ := exists_eq_append_of_integerShape hascii (headFree_cons.mpr hc) hempty
      hshape
    exact hshape.1.1 (List.append_eq_nil_iff.mp hnil.symm).1
  case run =>
    intro before word rest hword hbefore hrest ih hascii
    have hcount := ih fun c hc => hascii c (List.mem_append_right _ hc)
    rw [runsFrom, scanRuns_run hword hbefore hrest, List.countP_append, List.countP_singleton]
    split
    · next hholds =>
        rw [Nat.add_comm]
        exact counts_of_holdsInteger hascii hword hbefore hrest hholds hcount
    · next hholds =>
        rw [Nat.zero_add]
        exact counts_of_not_holdsInteger hascii hword hbefore hrest hholds hcount

/-- **What the rule for integers counts.**  In every text of ASCII characters, the rule counts the
maximal runs of digits that neither a letter nor a point touches on the left, and that no point
touches on the right or that have two digits at least. -/
theorem count_integer (hrule : integer.rule = .ok rule) (hascii : ∀ c ∈ text.toList, c.toNat < 128) :
    rule.count text = (maximalRuns Char.isDigit text.toList).countP fun run =>
      run.isFreeOnLeft && (run.isFreeOnRight || 2 ≤ run.chars.length) := by
  obtain rfl := Except.ok.inj ((rule_eq_ok integer).symm.trans hrule)
  exact (counts_integer (Or.inl headFree_nil) hascii).count

theorem count_integer_mixed : (∃ rule, integer.rule = .ok rule ∧
    rule.count "x1+20-3.5*46.7" = 2) ∧
    (maximalRuns Char.isDigit "x1+20-3.5*46.7".toList).map (·.chars) =
      [['1'], ['2', '0'], ['3'], ['5'], ['4', '6'], ['7']] := by
  refine ⟨⟨_, rule_eq_ok integer, ?_⟩, by decide⟩
  rw [count_integer (rule_eq_ok integer) (by simp)]
  decide

/-- The whole part of a decimal number is counted when it has two digits. -/
theorem count_integer_decimal : ∃ rule, integer.rule = .ok rule ∧ rule.count "12.5" = 1 ∧
    (maximalRuns Char.isDigit "12.5".toList).countP
      (fun run => run.isFreeOnLeft && run.isFreeOnRight) = 0 :=
  ⟨_, rule_eq_ok integer, by decide, by decide⟩

end EquationPractice
