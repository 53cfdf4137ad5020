import EquationPractice.Exercise.Basic
import EquationPractice.Proofs.Rule.StandardForms
import EquationPractice.Proofs.Sampling.Draws

/-!
# How exercises come about

An exercise is drawn or made from a question.  Either way its question was read and solved, the
solution is expected under the name of the unknown, and answers are judged by the rules of the
standard catalogue.

## Main definitions

* `Exercise.Built`: the exercises that there can be.
* `standardJudge`: the judge of all of them.
-/

namespace EquationPractice

open StandardForm

namespace Exercise

/-- The exercises that are drawn or made from a question with the rules of a catalogue. -/
inductive Built (catalogue : Catalogue) : Exercise → Prop where
  | drawn {σ : Type} [WordSource σ] {exercise : Exercise} {attempts : Nat} {settings : Settings}
      {source last : σ} (hdrawn : (generate attempts settings catalogue).outcome source =
        some (.ok exercise, last)) : Built catalogue exercise
  | asked {exercise : Exercise} {text : String} {settings : Settings}
      (hasked : ofQuestion text settings catalogue = .ok exercise) : Built catalogue exercise

theorem outcome_liftExcept {σ α : Type} [WordSource σ] (result : Except ExerciseError α)
    (source : σ) : (generate.liftExcept result).outcome source = some (result, source) := by
  cases result with
  | ok value => rfl
  | error e => rfl

variable {catalogue : Catalogue} {exercise : Exercise}

theorem Built.build (hbuilt : exercise.Built catalogue) :
    ∃ settings question latex, build settings catalogue question latex = .ok exercise := by
  cases hbuilt with
  | drawn hdrawn =>
      unfold generate at hdrawn
      -- every link that fails ends in an error, which is no exercise
      simp only [Draw.outcome_bind_eq_some, outcome_liftExcept] at hdrawn
      rcases hdrawn with ⟨-, mid, -, hdrawn⟩ | ⟨e, -, he⟩
      · rcases hdrawn with ⟨terms, mid, -, hdrawn⟩ | ⟨e, -, he⟩
        · rcases hdrawn with ⟨body, mid, -, hbuild⟩ | ⟨e, -, he⟩
          · simp only [Option.some.injEq, Prod.mk.injEq] at hbuild
            exact ⟨_, _, _, hbuild.1⟩
          · exact absurd he (by simp)
        · exact absurd he (by simp)
      · exact absurd he (by simp)
  | asked hasked =>
      obtain ⟨-, -, hbuild⟩ := bind_eq_ok.mp hasked
      exact ⟨_, _, _, hbuild⟩

/-! ## The judge -/

/-- The judge of every exercise with the rules of the standard catalogue. -/
def standardJudge : Judge :=
  ⟨adjacentOperators.writtenRule, permittedForms.map writtenRule, Judge.usualTolerance⟩

theorem ruleFor_standard (form : StandardForm) :
    Judge.ruleFor (Catalogue.ofForms StandardForm.all) form = .ok form.writtenRule := by
  have hmem : form ∈ StandardForm.all := by cases form <;> decide
  simp [Judge.ruleFor, Catalogue.form?_ofForms, hmem]

theorem judgeOf_standard : judgeOf (Catalogue.ofForms StandardForm.all) = .ok standardJudge := by
  simp only [judgeOf, Judge.create, Judge.withForms, permittedForms, List.mapM_cons, List.mapM_nil,
    ruleFor_standard, ok_bind, pure_eq_ok]
  rfl

/-- With the standard catalogue, an exercise is built when its question is read as an equation that
is solved. -/
theorem build_standard {settings : Settings} {question latex : String} :
    Exercise.build settings (Catalogue.ofForms StandardForm.all) question latex = .ok exercise ↔
      ∃ equation outcome, parseEquation question = .ok equation ∧
        equation.solve settings.unknownName = .ok outcome ∧
        exercise = ⟨settings, question, latex, .single settings.unknownName (.ofOutcome outcome),
          standardJudge⟩ := by
  simp only [Exercise.build, bind_eq_ok, mapError_eq_ok, judgeOf_standard, Except.ok.injEq,
    exists_eq_left', pure_eq_ok]
  constructor
  · rintro ⟨equation, hread, outcome, hsolve, rfl⟩
    exact ⟨equation, outcome, hread, hsolve, rfl⟩
  · rintro ⟨equation, outcome, hread, hsolve, rfl⟩
    exact ⟨equation, hread, outcome, hsolve, rfl⟩

/-- What stands between the dollar signs can be told from the whole text. -/
theorem inlineMath_inj {body other : String} :
    inlineMath body = inlineMath other ↔ body = other := by
  simp [inlineMath]

/-- The answer to an outcome, as the only one expected: a root as a number, and a special answer. -/
theorem entries_single_ofOutcome (name : String) (outcome : Outcome) :
    (∀ q, outcome = .root q →
      (Slots.single name (Answer.ofOutcome outcome)).entries = [(name, .value (.number q))]) ∧
    (∀ kind, outcome = .special kind →
      (Slots.single name (Answer.ofOutcome outcome)).entries = [(name, .special kind)]) := by
  constructor
  · rintro q rfl
    rfl
  · rintro kind rfl
    rfl

/-- With the standard catalogue, a written question makes an exercise when the settings are valid and
the question, its blanks dropped, is read as an equation that is solved. -/
theorem ofQuestion_standard {text question : String} {settings : Settings} {equation : Equation}
    {outcome : Outcome} (hvalid : settings.validate = .ok ())
    (hblanks : String.ofList (Text.removeBlanks text.toList) = question)
    (hread : parseEquation question = .ok equation)
    (hsolve : equation.solve settings.unknownName = .ok outcome) :
    ofQuestion text settings (Catalogue.ofForms StandardForm.all) =
      .ok ⟨settings, question, inlineMath (withoutStars question),
        .single settings.unknownName (.ofOutcome outcome), standardJudge⟩ := by
  simp only [ofQuestion, hvalid, ok_bind, hblanks]
  exact build_standard.mpr ⟨equation, outcome, hread, hsolve, rfl⟩

end Exercise

end EquationPractice
