import EquationPractice.Proofs.Exercise.Generation
import EquationPractice.Proofs.Exercise.ShownQuestion

/-!
# What a drawn exercise shows

The text between the dollar signs of a drawn exercise is the drawn question in one of the two
wordings in which questions are shown.  It is read again as an equation with the outcome that the
exercise expects, whichever of the two it is.
-/

namespace EquationPractice

open Draw

variable {σ : Type} [WordSource σ] {attempts : Nat} {settings : Settings} {catalogue : Catalogue}
  {source next : σ} {question : Question} {body : String}

theorem Settings.HasName.star_notMem (hname : settings.HasName) :
    '*' ∉ settings.unknownName.toList :=
  fun hmem => absurd (hname.isAlphanum _ hmem) (by decide)

/-- What is left of the text of a question is the question as it is shown. -/
theorem exists_wording_of_drop (hname : settings.HasName)
    (hbody : (dropUnitCoefficients (Exercise.withoutStars (String.ofList
      (question.chars settings.unknownName.toList))) settings.unknownName).outcome source =
        some (.ok body, next)) :
    ∃ dropsUnits, body.toList = (Wording.shown hname.reads dropsUnits).questionChars question := by
  have hstars : (Exercise.withoutStars (String.ofList
      (question.chars settings.unknownName.toList))).toList =
        (Wording.shown hname.reads false).questionChars question := by
    rw [Exercise.withoutStars, String.toList_ofList, String.toList_ofList]
    exact Question.starless_chars hname.reads hname.star_notMem question
  obtain ⟨heads, last, hcoin⟩ : ∃ heads last,
      (coin : Draw σ ExerciseError Bool).outcome source = some (.ok heads, last) :=
    exists_outcome_coin source
  rw [outcome_dropUnitCoefficients hname.isAlphanum _ hcoin] at hbody
  simp only [Option.some.injEq, Prod.mk.injEq, Except.ok.injEq] at hbody
  obtain ⟨rfl, -⟩ := hbody
  refine ⟨heads, ?_⟩
  cases heads with
  | false => exact hstars
  | true =>
      simp only [if_true, String.toList_ofList]
      rw [hstars, Question.replaceAll_unit hname.reads hname.isAlphanum]

/-- A shown question is read again and solved as its terms say. -/
theorem parseEquation_of_drop (hvalid : settings.validate = .ok ())
    (hfits : question.Fits settings)
    (hbody : (dropUnitCoefficients (Exercise.withoutStars (String.ofList
      (question.chars settings.unknownName.toList))) settings.unknownName).outcome source =
        some (.ok body, next)) :
    '*' ∉ body.toList ∧ ∃ equation outcome, parseEquation body = .ok equation ∧
      equation.solve settings.unknownName = .ok outcome ∧
      ∀ v, outcome.admits v ↔ question.HoldsAt v := by
  obtain ⟨hname, hunknown, hconstant⟩ := Settings.bounds_of_validate hvalid
  obtain ⟨dropsUnits, htext⟩ := exists_wording_of_drop hname hbody
  have hlength := hfits.length_chars_le hname hunknown hconstant
  have hcheck := Question.checkText_shown hname.reads hname.star_notMem dropsUnits hlength
  obtain ⟨equation, outcome, hread, hsolve, hadmits⟩ :=
    (Wording.shown hname.reads dropsUnits).solve_questionChars question hcheck
  rw [String.ofList_toList] at hsolve
  refine ⟨?_, equation, outcome, ?_, hsolve, hadmits⟩
  · rw [htext]
    exact Question.star_notMem_shown hname.reads hname.star_notMem dropsUnits question
  · rw [parseEquation, htext]
    exact hread

namespace Exercise

/-- **What is shown asks the same question.**  For all valid settings and whatever the source, once
the draws of a question end, an exercise is drawn whose text in LaTeX is a body between dollar
signs: the text of the question without its stars, from which one coin may drop the unit
coefficients.  However that coin falls, and from whatever state of the source it is tossed, there is
no star in the body, and the body is read as an equation and solved with exactly the outcome that the
exercise expects. -/
theorem generate_shown_sound (hvalid : settings.validate = .ok ())
    (hcatalogue : Catalogue.standard = .ok catalogue)
    (hends : ((Question.draw attempts settings : Draw σ SamplingError Question).outcome
      source).isSome = true) :
    ∃ (question : Question) (mid : σ) (exercise : Exercise) (last : σ) (outcome : Outcome)
        (body : String),
      (Question.draw attempts settings).outcome source = some (.ok question, mid) ∧
      (generate attempts settings catalogue).outcome source = some (.ok exercise, last) ∧
      (∀ q, outcome = .root q →
        exercise.expected.entries = [(settings.unknownName, .value (.number q))]) ∧
      (∀ kind, outcome = .special kind →
        exercise.expected.entries = [(settings.unknownName, .special kind)]) ∧
      (dropUnitCoefficients (withoutStars exercise.question) settings.unknownName).outcome mid =
        some (.ok body, last) ∧
      exercise.latex = "$" ++ body ++ "$" ∧
      ∀ start : σ, ∃ shown stop,
        (dropUnitCoefficients (withoutStars exercise.question) settings.unknownName).outcome
          start = some (.ok shown, stop) ∧
        '*' ∉ shown.toList ∧ ∃ equation, parseEquation shown = .ok equation ∧
          equation.solve settings.unknownName = .ok outcome := by
  obtain rfl := Except.ok.inj (Catalogue.standard_eq_ok.symm.trans hcatalogue)
  obtain ⟨question, mid, hdraw, hfits⟩ := (Question.yields_draw attempts settings).of_isSome hends
  obtain ⟨outcome, body, last, hadmits, hbody, hgenerate⟩ := generate_of_drop hvalid hdraw hfits
  obtain ⟨hroot, hspecial⟩ := entries_single_ofOutcome settings.unknownName outcome
  refine ⟨question, mid, _, last, outcome, body, hdraw, hgenerate, hroot, hspecial, hbody, rfl, ?_⟩
  intro start
  obtain ⟨hname, -, -⟩ := Settings.bounds_of_validate hvalid
  obtain ⟨heads, stop, hcoin⟩ : ∃ heads stop,
      (coin : Draw σ ExerciseError Bool).outcome start = some (.ok heads, stop) :=
    exists_outcome_coin start
  have hshown := outcome_dropUnitCoefficients hname.isAlphanum (withoutStars (String.ofList
    (question.chars settings.unknownName.toList))) hcoin
  obtain ⟨hstar, equation, found, hparse, hsolve, hfound⟩ :=
    parseEquation_of_drop hvalid hfits hshown
  -- both outcomes admit the numbers at which the terms agree
  obtain rfl : found = outcome :=
    Outcome.eq_of_admits fun v => (hfound v).trans (hadmits v).symm
  exact ⟨_, stop, hshown, hstar, equation, hparse, hsolve⟩

/-- `-3*x1=-10` is shown as `-3x1=-10`. -/
theorem generate_shown_sound_two_terms :
    (Settings.mk .hard "x1" 1 1).validate = .ok () ∧
    Catalogue.standard = .ok (.ofForms StandardForm.all) ∧
    ∃ (exercise : Exercise) (last : WordFeed) (equation : Equation),
      (generate 8 ⟨.hard, "x1", 1, 1⟩ (.ofForms StandardForm.all)).outcome
        (WordFeed.ofWords [] 7) = some (.ok exercise, last) ∧
      exercise.question = "-3*x1=-10" ∧ exercise.latex = "$" ++ "-3x1=-10" ++ "$" ∧
      exercise.expected.entries = [("x1", .value (.number (10 / 3)))] ∧
      parseEquation "-3x1=-10" = .ok equation ∧ equation.solve "x1" = .ok (.root (10 / 3)) := by
  have hvalid : (Settings.mk .hard "x1" 1 1).validate = .ok () := by decide +kernel
  have hends : ((Question.draw 8 ⟨.hard, "x1", 1, 1⟩ : Draw WordFeed SamplingError Question).outcome
      (WordFeed.ofWords [] 7)).isSome = true := by decide +kernel
  obtain ⟨-, mid, exercise, last, outcome, body, -, hgenerate, hroot, hspecial, hbody, hlatex,
    hshown⟩ := generate_shown_sound hvalid Catalogue.standard_eq_ok hends
  -- the body is what is shown when the coin is tossed right after the draws
  obtain ⟨shown, stop, hdrop, -, equation, hread, hsolve⟩ := hshown mid
  rw [hbody] at hdrop
  obtain ⟨rfl, -⟩ : body = shown ∧ last = stop := by simpa using hdrop
  have hquestion : exercise.question = "-3*x1=-10" :=
    Draw.eq_of_outcome Exercise.question hgenerate (by decide +kernel)
  have hexpected : exercise.expected.entries = [("x1", .value (.number (10 / 3)))] :=
    Draw.eq_of_outcome (·.expected.entries) hgenerate (by decide +kernel)
  have htext : exercise.latex = "$" ++ "-3x1=-10" ++ "$" :=
    Draw.eq_of_outcome Exercise.latex hgenerate (by decide +kernel)
  obtain rfl : body = "-3x1=-10" := inlineMath_inj.mp (hlatex.symm.trans htext)
  obtain rfl := Outcome.eq_root_of_entries hroot hspecial hexpected
  exact ⟨hvalid, Catalogue.standard_eq_ok, exercise, last, equation, hgenerate, hquestion, htext,
    hexpected, hread, hsolve⟩

end Exercise

end EquationPractice
