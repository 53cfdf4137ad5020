import EquationPractice.Proofs.Exercise.Generation
import EquationPractice.Proofs.Exercise.UnitRewriting

/-!
# What loses its unit coefficient

A unit coefficient is a one right before the name of the unknown.  The rewriting takes it for one
when neither a digit nor a point stands before the one and neither a letter nor a digit behind the
name.  So of a text it changes the ends of maximal runs of letters and digits, and nothing else.  That
a letter or an underscore before the one, or an underscore or a point behind the name, makes it a
part of a longer word is not looked at; where no such character stands there, the rewriting changes
exactly the words that consist of a one and the name.

## Main definitions

* `Run.dropUnitSuffix`: what the rewriting makes of a maximal run of letters and digits.
* `Run.dropUnit`: a word without its unit coefficient, when that is all there is before the name.
* `UnitsApart`: no unit coefficient is a part of a longer word.
-/

namespace EquationPractice

open Regex

/-- A character of a word: a letter, a digit, an underscore or a point. -/
def isWordPart (c : Char) : Bool :=
  c.isAlphanum || (c == '_' || c == '.')

/-- A maximal run of letters and digits after the rewriting: where it ends in a one and the name, with
neither a digit nor a point before the one, the one is left out. -/
def Run.dropUnitSuffix (name : List Char) (run : Run) : List Char :=
  match run.chars.dropSuffix? ('1' :: name) with
  | some first =>
      if (run.before ++ first).getLast?.any fun c => c.isDigit || c == '.' then run.chars
      else first ++ name
  | none => run.chars

/-- The name alone for a word that is a one and the name, and every other word as it is. -/
def Run.dropUnit (name : List Char) (run : Run) : List Char :=
  if run.chars = '1' :: name then name else run.chars

/-- Wherever a one right before the name stands behind neither a digit nor a point and before neither
a letter nor a digit, it stands behind no letter or underscore and before no underscore or point
either. -/
def UnitsApart (name text : List Char) : Prop :=
  ∀ before after, text = before ++ ('1' :: name ++ after) →
    HeadFree (fun c => c.isDigit || c == '.') before.reverse → HeadFree Char.isAlphanum after →
      HeadFree (fun c => c.isAlpha || c == '_') before.reverse ∧
        HeadFree (fun c => c == '_' || c == '.') after

theorem unitsApart_sum : UnitsApart ['x'] "1x+2".toList := by
  rintro before after htext - -
  cases before with
  | nil =>
      obtain rfl : ['+', '2'] = after := by simpa using htext
      simp
  | cons c tail =>
      -- there is no other one in the text
      have hone : '1' ∈ ['x', '+', '2'] := by
        rw [show ['x', '+', '2'] = tail ++ _ from (List.cons.inj htext).2]
        simp
      exact absurd hone (by decide)

namespace Regex

variable {name before word rest out first text : List Char}

/-- What comes before a unit coefficient in a run of letters and digits is written as it is. -/
theorem Unitless.suffix (hname : ∀ c ∈ name, c.isAlphanum = true)
    (hfirst : ∀ c ∈ first, c.isAlphanum = true)
    (hbefore : HeadFree (fun c => c.isDigit || c == '.') (before ++ first).reverse)
    (hrest : HeadFree Char.isAlphanum rest)
    (hout : Unitless name (before ++ (first ++ '1' :: name)) rest out) :
    Unitless name before (first ++ ('1' :: name ++ rest)) (first ++ (name ++ out)) := by
  refine Rewrites.skipAll (hasShape_unit name) ?_ (Unitless.unit hname hbefore hrest ?_)
  · rintro start more rfl hmore taken after htext ⟨rfl, -, hafter⟩
    -- a match here would be longer than a one and the name
    have hword : ∀ c ∈ more ++ '1' :: name, c.isAlphanum = true := by
      intro c hc
      rcases List.mem_append.mp hc with hc | hc
      · exact hfirst c (List.mem_append_right _ hc)
      · exact isAlphanum_unit hname c hc
    have hunit := eq_of_append_eq hword (isAlphanum_unit hname) hrest hafter (by simpa using htext)
    exact hmore (List.append_left_eq_self.mp hunit)
  · rwa [List.append_assoc]

theorem dropSuffix?_eq_some {unit : List Char} : word.dropSuffix? unit = some first ↔
    word = first ++ unit := by
  simp [List.dropSuffix?_eq_some_iff]

/-- A word is written without its unit coefficient when that is all there is before the name, and as
it is otherwise. -/
theorem Unitless.wholeWord (hname : ∀ c ∈ name, c.isAlphanum = true) (hword : IsRun isWordPart word)
    (hbefore : HeadFree isWordPart before.reverse) (hrest : HeadFree isWordPart rest)
    (happart : UnitsApart name (before ++ (word ++ rest)))
    (hout : Unitless name (before ++ word) rest out) :
    Unitless name before (word ++ rest) ((Run.mk before word rest).dropUnit name ++ out) := by
  unfold Run.dropUnit
  split
  · next hunit =>
      obtain rfl : word = '1' :: name := hunit
      refine Unitless.unit hname (hbefore.imp fun c hc => ?_) (hrest.imp fun c hc => ?_) hout
      · rcases Bool.or_eq_true_iff.mp hc with hdigit | hpoint
        · simp [isWordPart, Char.isAlphanum, hdigit]
        · simp [isWordPart, hpoint]
      · simp [isWordPart, hc]
  · next hother =>
      refine Rewrites.skipAll (hasShape_unit name) ?_ hout
      rintro first second rfl hsecond taken after htext ⟨rfl, hleft, hright⟩
      -- a match here would be a word by itself
      obtain ⟨hfarLeft, hfarRight⟩ := happart (before ++ first) after (by simp [← htext]) hleft hright
      have hedge : HeadFree isWordPart (before ++ first).reverse := by
        refine (HeadFree.or hleft hfarLeft).imp fun c hc => ?_
        simp only [isWordPart, Char.isAlphanum, Bool.or_eq_true] at hc ⊢
        tauto
      have hend : HeadFree isWordPart after := HeadFree.or hright hfarRight
      cases hfirst : first with
      | nil =>
          subst hfirst
          have hunit : ∀ c ∈ '1' :: name, isWordPart c = true := by
            intro c hc
            simp [isWordPart, isAlphanum_unit hname c hc]
          exact hother (eq_of_append_eq hword.2 hunit hrest hend htext)
      | cons c more =>
          have hrun : IsRun isWordPart first :=
            ⟨by simp [hfirst], fun d hd => hword.2 d (List.mem_append_left _ hd)⟩
          exact not_headFree_reverse hrun hedge

/-- A maximal run of letters and digits loses the unit coefficient at its end. -/
theorem Unitless.run (hname : ∀ c ∈ name, c.isAlphanum = true)
    (hword : ∀ c ∈ word, c.isAlphanum = true) (hrest : HeadFree Char.isAlphanum rest)
    (hout : Unitless name (before ++ word) rest out) :
    Unitless name before (word ++ rest)
      ((Run.mk before word rest).dropUnitSuffix name ++ out) := by
  cases hsuffix : word.dropSuffix? ('1' :: name) with
  | none =>
      simp only [Run.dropUnitSuffix, hsuffix]
      refine Unitless.letters hname hword hrest (fun first hfirst => ?_) hout
      rw [dropSuffix?_eq_some.mpr hfirst] at hsuffix
      exact absurd hsuffix (by simp)
  | some first =>
      simp only [Run.dropUnitSuffix, hsuffix]
      obtain rfl := dropSuffix?_eq_some.mp hsuffix
      split
      · next hbefore =>
          refine Unitless.letters hname hword hrest (fun other hother hfree => ?_) hout
          obtain rfl := List.append_cancel_right hother
          rw [headFree_reverse, hbefore] at hfree
          exact absurd hfree (by simp)
      · next hbefore =>
          rw [Bool.not_eq_true, ← headFree_reverse] at hbefore
          rw [List.append_assoc, List.append_assoc]
          exact Unitless.suffix hname (fun c hc => hword c (List.mem_append_left _ hc)) hbefore hrest
            hout

/-- The rewriting changes the ends of maximal runs of letters and digits, and nothing else. -/
theorem replaceAll_unit (hname : ∀ c ∈ name, c.isAlphanum = true) (text : List Char) :
    (Regex.unit name).replaceAll name text =
      rewriteRuns Char.isAlphanum (Run.dropUnitSuffix name) text := by
  have hall : Unitless name [] text (rewriteFrom Char.isAlphanum (Run.dropUnitSuffix name) [] text) :=
    runs_induction Char.isAlphanum (motive := fun before rest => Unitless name before rest
      (rewriteFrom Char.isAlphanum (Run.dropUnitSuffix name) before rest)) ?nil ?other ?run [] text
      (Or.inl headFree_nil)
  case nil => exact fun before => Unitless.nil
  case other =>
    intro before c rest hc hout
    rw [rewriteFrom, scanRuns_other hc]
    refine Unitless.other ?_ hout
    rintro rfl
    exact absurd hc (by decide)
  case run =>
    intro before word rest hword hbefore hrest hout
    rw [rewriteFrom, scanRuns_run hword hbefore hrest]
    exact Unitless.run hname hword.2 hrest hout
  exact Rewrites.replaceAll hall

/-- Where no unit coefficient is a part of a longer word, the rewriting changes exactly the words that
are a one and the name. -/
theorem replaceAll_unit_of_unitsApart (hname : ∀ c ∈ name, c.isAlphanum = true)
    (happart : UnitsApart name text) :
    (Regex.unit name).replaceAll name text = rewriteRuns isWordPart (Run.dropUnit name) text := by
  have hall : text = [] ++ text →
      Unitless name [] text (rewriteFrom isWordPart (Run.dropUnit name) [] text) :=
    runs_induction isWordPart (motive := fun before rest => text = before ++ rest →
      Unitless name before rest (rewriteFrom isWordPart (Run.dropUnit name) before rest)) ?nil ?other
      ?run [] text (Or.inl headFree_nil)
  case nil => exact fun before _ => Unitless.nil
  case other =>
    intro before c rest hc hout htext
    rw [rewriteFrom, scanRuns_other hc]
    refine Unitless.other ?_ (hout (by simpa using htext))
    rintro rfl
    exact absurd hc (by decide)
  case run =>
    intro before word rest hword hbefore hrest hout htext
    rw [rewriteFrom, scanRuns_run hword hbefore hrest]
    exact Unitless.wholeWord hname hword hbefore hrest (htext ▸ happart) (hout (by simpa using htext))
  exact Rewrites.replaceAll (hall rfl)

end Regex

/-! ## The rewriting half of the time -/

section Rewriting

variable {σ : Type} [WordSource σ] {name text : String} {source : σ}

/-- **What the rewriting of unit coefficients does.**  Whatever the text, the name and the source, one
word of 64 bits is drawn.  If it lies in the upper half, the text stays as it is.  Otherwise the
maximal runs of letters and digits that end in a one and the name lose that one, unless a digit or a
point stands before it, and everything else stays as it is.  As long as no unit coefficient is a part
of a longer word, that changes exactly the words that are a one and the name. -/
theorem outcome_dropUnitCoefficients_eq (text : String) (source : σ)
    (hname : Settings.isName name.toList = true) :
    ∃ result, (dropUnitCoefficients text name).outcome source =
        some (.ok result, (WordSource.next64 source).2) ∧
      (UInt64.size / 2 ≤ (WordSource.next64 source).1.toNat → result = text) ∧
      ((WordSource.next64 source).1.toNat < UInt64.size / 2 →
        result.toList = rewriteRuns Char.isAlphanum (Run.dropUnitSuffix name.toList) text.toList ∧
        (UnitsApart name.toList text.toList →
          result.toList = rewriteRuns isWordPart (Run.dropUnit name.toList) text.toList)) := by
  have hletters := Settings.isAlphanum_of_isName hname
  refine ⟨_, outcome_dropUnitCoefficients hletters text (outcome_coin source),
    fun htails => ?_, fun hheads => ?_⟩
  · rw [decide_eq_false (not_lt.mpr htails), if_neg Bool.false_ne_true]
  · rw [decide_eq_true hheads, if_pos rfl, String.toList_ofList]
    exact ⟨Regex.replaceAll_unit hletters _, Regex.replaceAll_unit_of_unitsApart hletters⟩

theorem outcome_dropUnitCoefficients_eq_heads : Settings.isName "x".toList = true ∧
    (∃ result last, (dropUnitCoefficients "1x+31x-a1x" "x").outcome (WordFeed.ofWords [0] 1) =
      some (.ok result, last) ∧ result.toList = "x+31x-ax".toList) ∧
    ∃ result last, (dropUnitCoefficients "1x+2" "x").outcome (WordFeed.ofWords [0] 1) =
      some (.ok result, last) ∧
        result.toList = rewriteRuns isWordPart (Run.dropUnit ['x']) "1x+2".toList := by
  have hheads : (WordSource.next64 (WordFeed.ofWords [0] 1)).1.toNat < UInt64.size / 2 := by decide
  refine ⟨by decide, ?_, ?_⟩
  · obtain ⟨result, houtcome, -, hresult⟩ :=
      outcome_dropUnitCoefficients_eq "1x+31x-a1x" (WordFeed.ofWords [0] 1)
        (show Settings.isName "x".toList = true by decide)
    refine ⟨result, _, houtcome, ?_⟩
    rw [(hresult hheads).1]
    decide
  · obtain ⟨result, houtcome, -, hresult⟩ :=
      outcome_dropUnitCoefficients_eq "1x+2" (WordFeed.ofWords [0] 1)
        (show Settings.isName "x".toList = true by decide)
    exact ⟨result, _, houtcome, (hresult hheads).2 unitsApart_sum⟩

/-- A one right before the name is dropped from a longer word. -/
theorem outcome_dropUnitCoefficients_longer_word :
    ((dropUnitCoefficients "a1x" "x").outcome (WordFeed.ofWords [0] 1)).map (·.1) =
      some (.ok "ax") ∧
    rewriteRuns isWordPart (Run.dropUnit ['x']) "a1x".toList = "a1x".toList :=
  ⟨by decide +kernel, by decide⟩

end Rewriting

end EquationPractice
