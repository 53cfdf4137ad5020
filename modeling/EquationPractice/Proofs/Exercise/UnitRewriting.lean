import EquationPractice.Proofs.Exercise.UnitPattern
import EquationPractice.Proofs.Regex.Replacing
import EquationPractice.Proofs.Text.Runs

/-!
# Replacing unit coefficients

A match of the pattern for unit coefficients ends where a run of letters and digits ends, and it is
made of such characters only.  So within a run there is at most one match, and only at its end: the
last characters are a one and the name, and neither a digit nor a point stands before them.

## Main definitions

* `Regex.Unitless`: what the replacement of unit coefficients makes of the rest of a text.
-/

namespace EquationPractice

namespace Regex

variable {name before rest out word : List Char} {c : Char}

/-! ## Matches -/

theorem hasShape_letters (cs : List Char) :
    (inSequence (cs.map fun c => one (.single c))).HasShape fun _ taken _ => taken = cs := by
  induction cs with
  | nil =>
      intro before rest captures next
      simp [inSequence, runs]
  | cons c tail ih =>
      refine ((hasShape_single c).cons ih).congr fun before taken after => ?_
      constructor
      · rintro ⟨first, second, rfl, rfl, rfl⟩
        rfl
      · rintro rfl
        exact ⟨[c], tail, rfl, rfl, rfl⟩

theorem contains_beforeUnit : beforeUnit.contains c = (c.isDigit || c == '.') := by
  rw [Bool.eq_iff_iff]
  simp [beforeUnit, CharSet.contains, Char.isDigit, Char.le_def]

theorem contains_afterUnit : afterUnit.contains c = c.isAlphanum := by
  rw [Bool.eq_iff_iff, isAlphanum_iff, isAlpha_iff, isDigit_iff]
  simp [afterUnit, CharSet.contains, Char.le_def, UInt32.le_iff_toNat_le]

/-- A unit coefficient stands behind neither a digit nor a point, and no letter or digit stands
behind the name. -/
theorem hasShape_unit (name : List Char) : (unit name).HasShape fun before taken after =>
    taken = '1' :: name ∧ HeadFree (fun c => c.isDigit || c == '.') before.reverse ∧
      HeadFree Char.isAlphanum after := by
  have hletters := (hasShape_letters ('1' :: name)).append
    (show (inSequence [ahead false (one afterUnit)]).HasShape _ from hasShape_notAhead_one afterUnit)
  refine ((hasShape_notBehind_one beforeUnit).cons hletters).congr fun before taken after => ?_
  simp only [HeadFree, contains_beforeUnit, contains_afterUnit]
  constructor
  · rintro ⟨first, second, rfl, ⟨rfl, hbefore⟩, third, fourth, rfl, rfl, rfl, hafter⟩
    exact ⟨by simp, hbefore, hafter⟩
  · rintro ⟨rfl, hbefore, hafter⟩
    exact ⟨[], _, rfl, ⟨rfl, hbefore⟩, _, [], by simp, rfl, rfl, by simpa using hafter⟩

/-! ## Runs -/

/-- With `before` gone through, the replacement of unit coefficients makes `out` of `rest`. -/
def Unitless (name before rest out : List Char) : Prop :=
  (unit name).Rewrites (templateParts name) before rest out

theorem isAlphanum_unit (hname : ∀ c ∈ name, c.isAlphanum = true) :
    ∀ c ∈ '1' :: name, c.isAlphanum = true := by
  intro c hc
  rcases List.mem_cons.mp hc with rfl | hc
  · decide
  · exact hname c hc

theorem Unitless.nil : Unitless name before [] [] := by
  have hspan : (Regex.unit name).spanAt? (before ++ []) before.length = none := by
    refine (hasShape_unit name).spanAt?_eq_none ?_
    rintro taken after hrest ⟨rfl, -⟩
    simp at hrest
  rw [List.append_nil] at hspan
  exact Rewrites.nil hspan

/-- A character that is no one is written as it is. -/
theorem Unitless.other (hc : c ≠ '1') (hout : Unitless name (before ++ [c]) rest out) :
    Unitless name before (c :: rest) (c :: out) := by
  refine Rewrites.skip ((hasShape_unit name).spanAt?_eq_none ?_) hout
  rintro taken after hrest ⟨rfl, -⟩
  exact hc (List.cons.inj hrest).1

/-- A run of letters and digits is written as it is, unless it ends in a unit coefficient. -/
theorem Unitless.letters (hname : ∀ c ∈ name, c.isAlphanum = true)
    (hword : ∀ c ∈ word, c.isAlphanum = true) (hrest : HeadFree Char.isAlphanum rest)
    (hkept : ∀ first, word = first ++ '1' :: name →
      ¬HeadFree (fun c => c.isDigit || c == '.') (before ++ first).reverse)
    (hout : Unitless name (before ++ word) rest out) :
    Unitless name before (word ++ rest) (word ++ out) := by
  refine Rewrites.skipAll (hasShape_unit name) ?_ hout
  rintro first second rfl - taken after htext ⟨rfl, hbefore, hafter⟩
  have hsecond : ∀ c ∈ second, c.isAlphanum = true := fun c hc =>
    hword c (List.mem_append_right _ hc)
  obtain rfl := eq_of_append_eq hsecond (isAlphanum_unit hname) hrest hafter htext
  exact hkept first rfl hbefore

/-- Of a unit coefficient the name is left. -/
theorem Unitless.unit (hname : ∀ c ∈ name, c.isAlphanum = true)
    (hbefore : HeadFree (fun c => c.isDigit || c == '.') before.reverse)
    (hrest : HeadFree Char.isAlphanum rest)
    (hout : Unitless name (before ++ '1' :: name) rest out) :
    Unitless name before ('1' :: name ++ rest) (name ++ out) := by
  have hspan := (hasShape_unit name).spanAt?_eq_some ⟨rfl, hbefore, hrest⟩
    fun other tail _ hother => hother.1
  have hplain : '$' ∉ name := fun hmem => absurd (hname _ hmem) (by decide)
  have hwritten := Rewrites.take (by simp) hspan hout
  rwa [flatMap_expand_templateParts hplain] at hwritten

end Regex

end EquationPractice
