import EquationPractice.Exercise.Question
import EquationPractice.Proofs.Sampling.Draws

/-!
# Drawn questions

Every range that a question draws from has candidates, so no draw fails.  Whenever the draws end,
the terms have the kinds and the magnitudes that the difficulty asks for.

## Strategy

The terms of a question of the highest difficulty are shuffled and cut, which neither adds nor
removes a term; counting the terms of each kind is therefore all that is left to say about their
order.

## Main definitions

* `Question.Fits`: what the terms of a question drawn with some settings are like.
-/

namespace EquationPractice

open Draw IntRange

/-! ## Ranges -/

namespace IntRange

variable {range : IntRange} {n : Int}

/-- A draw from a range with candidates yields a number between the bounds, of a sign that is
wanted. -/
theorem yields_bounds {σ : Type} [WordSource σ]
    (hcandidates : ∃ candidates, range.candidates = .ok candidates) (attempts : Nat) :
    Yields (range.sample attempts : Draw σ SamplingError Int) fun n =>
      range.lo ≤ n ∧ n ≤ range.hi ∧ (n < 0 → '-' ∈ range.signs.toList) ∧
        (n = 0 → '0' ∈ range.signs.toList) ∧ (0 < n → '+' ∈ range.signs.toList) := by
  obtain ⟨candidates, hcandidates⟩ := hcandidates
  refine (yields_sample hcandidates attempts).imp fun n hallows => ?_
  simp only [allows, Bool.and_eq_true, decide_eq_true_eq] at hallows
  obtain ⟨⟨⟨hlo, hhi⟩, hsign⟩, -⟩ := hallows
  exact ⟨hlo, hhi, wantsSign_iff.mp hsign⟩

end IntRange

namespace Question

variable {σ : Type} [WordSource σ] (attempts : Nat)

theorem yields_easyCoefficient :
    Yields (((IntRange.symmetric 5).withSigns "+").sample attempts : Draw σ SamplingError Int)
      fun a => 1 ≤ a ∧ a ≤ 5 := by
  refine (yields_bounds ⟨_, rfl⟩ attempts).imp fun a hbounds => ?_
  obtain ⟨-, hhi, hneg, hzero, -⟩ := hbounds
  have hnonneg : ¬a < 0 := fun h => absurd (hneg h) (by decide)
  have hne : a ≠ 0 := fun h => absurd (hzero h) (by decide)
  exact ⟨by omega, hhi⟩

theorem yields_easyConstant :
    Yields (((IntRange.symmetric 10).withSigns "-").sample attempts : Draw σ SamplingError Int)
      fun b => -10 ≤ b ∧ b ≤ -1 := by
  refine (yields_bounds ⟨_, rfl⟩ attempts).imp fun b hbounds => ?_
  obtain ⟨hlo, -, -, hzero, hpos⟩ := hbounds
  have hnonpos : ¬0 < b := fun h => absurd (hpos h) (by decide)
  have hne : b ≠ 0 := fun h => absurd (hzero h) (by decide)
  exact ⟨hlo, by omega⟩

/-- Whatever the weights are, the magnitude is at most ten. -/
theorem yields_weighted {number weight : Int} (hcandidates : ∃ candidates,
      ((IntRange.symmetric 10).withWeight number weight).candidates = .ok candidates) :
    Yields (((IntRange.symmetric 10).withWeight number weight).sample attempts :
      Draw σ SamplingError Int) fun n => |n| ≤ 10 := by
  refine (yields_bounds hcandidates attempts).imp fun n hbounds => ?_
  exact abs_le.mpr ⟨hbounds.1, hbounds.2.1⟩

theorem yields_coefficient :
    Yields (((IntRange.symmetric 10).withSigns "-+").sample attempts : Draw σ SamplingError Int)
      fun n => n ≠ 0 ∧ |n| ≤ 10 := by
  refine (yields_bounds ⟨_, rfl⟩ attempts).imp fun n hbounds => ?_
  obtain ⟨hlo, hhi, -, hzero, -⟩ := hbounds
  exact ⟨fun h => absurd (hzero h) (by decide), abs_le.mpr ⟨hlo, hhi⟩⟩

/-! ## Terms -/

/-- The terms of a kind, so many of them, with coefficients of magnitude at most ten that are not
zero. -/
structure AreDrawn (ofUnknown : Bool) (count : Nat) (terms : List Term) : Prop where
  length : terms.length = count
  kind : ∀ term ∈ terms, term.ofUnknown = ofUnknown
  coefficient : ∀ term ∈ terms, term.coefficient ≠ 0 ∧ |term.coefficient| ≤ 10

theorem yields_drawTerms (ofUnknown : Bool) (count : Nat) :
    Yields (drawTerms attempts ofUnknown count : Draw σ SamplingError (List Term))
      (AreDrawn ofUnknown count) := by
  induction count with
  | zero => exact yields_pure ⟨rfl, by simp, by simp⟩
  | succ count ih =>
      refine (yields_coefficient attempts).bind fun n hn => ih.bind fun terms hterms => ?_
      refine yields_pure ⟨by simp [hterms.length], ?_, ?_⟩
      · simpa using hterms.kind
      · simpa [hn] using hterms.coefficient

/-- What the terms of a question drawn with some settings are like.  An easy question has the root
`n` and a positive coefficient; one of the highest difficulty has as many terms of each kind as were
asked for, none of them zero. -/
def Fits (settings : Settings) (question : Question) : Prop :=
  match settings.difficulty with
  | .easy => ∃ a n : Int, (1 ≤ a ∧ a ≤ 5) ∧ (1 ≤ n ∧ n ≤ 10) ∧
      question = ⟨[⟨a, true⟩, ⟨-n * a, false⟩], []⟩
  | .medium => ∃ a b : Int, |a| ≤ 10 ∧ |b| ≤ 10 ∧ question = ⟨[⟨a, true⟩, ⟨b, false⟩], []⟩
  | .hard =>
      (question.left ++ question.right).countP (·.ofUnknown) = settings.unknownTerms ∧
      (question.left ++ question.right).countP (!·.ofUnknown) = settings.constantTerms ∧
      ∀ term ∈ question.left ++ question.right, term.coefficient ≠ 0 ∧ |term.coefficient| ≤ 10

section Fits

variable {settings : Settings} {question : Question}

/-- Below the highest difficulty, a question is a multiple of the unknown and a constant. -/
theorem Fits.eq_linear (hfits : question.Fits settings)
    (hdifficulty : settings.difficulty ≠ .hard) :
    ∃ a b : Int, |a| < 100 ∧ |b| < 100 ∧ question = ⟨[⟨a, true⟩, ⟨b, false⟩], []⟩ := by
  unfold Fits at hfits
  split at hfits
  · obtain ⟨a, n, ha, hn, rfl⟩ := hfits
    refine ⟨a, -n * a, ?_, ?_, rfl⟩
    · rw [abs_lt]
      omega
    · rw [abs_lt]
      constructor
      · nlinarith
      · nlinarith
  · obtain ⟨a, b, ha, hb, rfl⟩ := hfits
    exact ⟨a, b, by omega, by omega, rfl⟩
  · next hhard => exact absurd hhard hdifficulty

theorem Fits.of_easy (hfits : question.Fits settings) (hdifficulty : settings.difficulty = .easy) :
    ∃ a n : Int, (1 ≤ a ∧ a ≤ 5) ∧ (1 ≤ n ∧ n ≤ 10) ∧
      question = ⟨[⟨a, true⟩, ⟨-n * a, false⟩], []⟩ := by
  unfold Fits at hfits
  rwa [hdifficulty] at hfits

theorem Fits.of_hard (hfits : question.Fits settings) (hdifficulty : settings.difficulty = .hard) :
    (question.left ++ question.right).countP (·.ofUnknown) = settings.unknownTerms ∧
      (question.left ++ question.right).countP (!·.ofUnknown) = settings.constantTerms ∧
      ∀ t ∈ question.left ++ question.right, t.coefficient ≠ 0 ∧ |t.coefficient| ≤ 10 := by
  unfold Fits at hfits
  rwa [hdifficulty] at hfits

/-- The coefficients of a drawn question have two digits at most. -/
theorem Fits.small (hfits : question.Fits settings) :
    ∀ t ∈ question.left ++ question.right, |t.coefficient| < 100 := by
  intro t ht
  by_cases hdifficulty : settings.difficulty = .hard
  · exact lt_of_le_of_lt ((hfits.of_hard hdifficulty).2.2 t ht).2 (by decide)
  · obtain ⟨a, b, ha, hb, rfl⟩ := hfits.eq_linear hdifficulty
    rcases List.mem_cons.mp ht with rfl | ht
    · exact ha
    · obtain rfl := List.mem_singleton.mp ht
      exact hb

/-- A drawn question has forty terms at most. -/
theorem Fits.length_le (hfits : question.Fits settings) (hunknown : settings.unknownTerms ≤ 20)
    (hconstant : settings.constantTerms ≤ 20) :
    (question.left ++ question.right).length ≤ 40 := by
  by_cases hdifficulty : settings.difficulty = .hard
  · obtain ⟨hunknowns, hconstants, -⟩ := hfits.of_hard hdifficulty
    have hsplit : (question.left ++ question.right).length =
        (question.left ++ question.right).countP (·.ofUnknown) +
          (question.left ++ question.right).countP (!·.ofUnknown) := by
      rw [List.length_eq_countP_add_countP (fun t : Term => t.ofUnknown)]
      simp
    rw [hsplit, hunknowns, hconstants]
    omega
  · obtain ⟨a, b, -, -, rfl⟩ := hfits.eq_linear hdifficulty
    simp

end Fits

/-- Shuffling and cutting keeps the terms. -/
theorem yields_spread (unknownTerms constantTerms : Nat) :
    Yields (spread attempts unknownTerms constantTerms : Draw σ SamplingError Question)
      fun question => ∃ unknowns constants, AreDrawn true unknownTerms unknowns ∧
        AreDrawn false constantTerms constants ∧
        (question.left ++ question.right).Perm (unknowns ++ constants) := by
  refine (yields_drawTerms attempts true unknownTerms).bind fun unknowns hunknowns => ?_
  refine (yields_drawTerms attempts false constantTerms).bind fun constants hconstants => ?_
  refine (yields_shuffle attempts (unknowns ++ constants)).bind fun terms hperm => ?_
  refine (yields_below64 attempts (terms.length + 1)).bind fun cut _ => ?_
  exact yields_pure ⟨unknowns, constants, hunknowns, hconstants, by simpa using hperm⟩

/-- Whenever a question is drawn to the end, its terms are as the settings ask for. -/
theorem yields_draw (settings : Settings) :
    Yields (draw attempts settings : Draw σ SamplingError Question) (Fits settings) := by
  unfold draw Fits
  cases settings.difficulty with
  | easy =>
      refine (yields_easyCoefficient attempts).bind fun a ha => ?_
      refine (yields_easyConstant attempts).bind fun b hb => ?_
      exact yields_pure ⟨a, -b, ha, by omega, by simp⟩
  | medium =>
      refine (yields_weighted attempts ⟨_, rfl⟩).bind fun a ha => ?_
      refine (yields_weighted attempts ⟨_, rfl⟩).bind fun b hb => ?_
      exact yields_pure ⟨a, b, ha, hb, rfl⟩
  | hard =>
      refine (yields_spread attempts _ _).imp fun question hquestion => ?_
      -- counting does not depend on the order, so the two kinds are counted apart
      obtain ⟨unknowns, constants, hunknowns, hconstants, hperm⟩ := hquestion
      refine ⟨?_, ?_, fun term hterm => ?_⟩
      · have hnone : constants.countP (·.ofUnknown) = 0 :=
          List.countP_eq_zero.mpr (by simpa using hconstants.kind)
        rw [hperm.countP_eq, List.countP_append, List.countP_eq_length.mpr hunknowns.kind, hnone,
          hunknowns.length, add_zero]
      · have hnone : unknowns.countP (!·.ofUnknown) = 0 :=
          List.countP_eq_zero.mpr (by simpa using hunknowns.kind)
        have hall : constants.countP (!·.ofUnknown) = constants.length :=
          List.countP_eq_length.mpr (by simpa using hconstants.kind)
        rw [hperm.countP_eq, List.countP_append, hnone, hall, hconstants.length, zero_add]
      · rcases List.mem_append.mp (hperm.mem_iff.mp hterm) with hmem | hmem
        · exact hunknowns.coefficient term hmem
        · exact hconstants.coefficient term hmem

end Question

end EquationPractice
