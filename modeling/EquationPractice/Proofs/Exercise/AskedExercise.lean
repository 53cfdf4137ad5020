import EquationPractice.Proofs.Exercise.Built
import EquationPractice.Proofs.Reading.Starless
import EquationPractice.Proofs.Solution.LinearSolver

/-!
# What an exercise for a written question shows

An exercise for a question that somebody wrote shows the question without its stars.  That asks the
same as long as no star is needed: before a sign a star that is left out turns a product into a sum
or a difference, and between two literals it makes one literal of them.
-/

namespace EquationPractice

open Text

/-- A solved equation mentions no variable but the unknown. -/
theorem Equation.only_of_solve {equation : Equation} {unknownName : String} {outcome : Outcome}
    (hsolve : equation.solve unknownName = .ok outcome) :
    equation.relation = .equal ∧ equation.difference.Only unknownName := by
  obtain ⟨hequal, f, hf, g, hg, -⟩ := Equation.solve_eq_ok.mp hsolve
  exact ⟨hequal, Expr.only_sub.mpr ⟨fun _ => LinearForm.eq_of_mentions_of_ofExpr hf,
    fun _ => LinearForm.eq_of_mentions_of_ofExpr hg⟩⟩

namespace Exercise

variable {settings : Settings} {catalogue : Catalogue} {exercise : Exercise} {text body : String}
  {equation : Equation} {outcome : Outcome}

/-- An exercise for a written question: the question has no blanks, it was read and solved, and what
is shown is the question without its stars. -/
theorem ofQuestion_ok (hasked : ofQuestion text settings catalogue = .ok exercise) :
    (∀ c ∈ exercise.question.toList, isBlank c = false) ∧
    exercise.latex = inlineMath (withoutStars exercise.question) ∧
    ∃ equation outcome, parseEquation exercise.question = .ok equation ∧
      equation.solve settings.unknownName = .ok outcome ∧
      exercise.expected = .single settings.unknownName (.ofOutcome outcome) := by
  obtain ⟨-, -, hbuild⟩ := bind_eq_ok.mp hasked
  obtain ⟨equation, hread, hbuild⟩ := bind_eq_ok.mp hbuild
  obtain ⟨outcome, hsolve, hbuild⟩ := bind_eq_ok.mp hbuild
  obtain ⟨judge, -, hbuild⟩ := bind_eq_ok.mp hbuild
  obtain rfl := Except.ok.inj hbuild
  refine ⟨?_, rfl, equation, outcome, mapError_eq_ok.mp hread, mapError_eq_ok.mp hsolve, rfl⟩
  intro c hc
  rw [String.toList_ofList] at hc
  simpa using (List.mem_filter.mp hc).2

/-- **What is shown asks the same question, if no star is needed.**  Take any exercise for a written
question in which no star stands before a sign or between two literals.  If the body between the
dollar signs is read as an equation and solved for the unknown, it is the very equation of the
question, and its outcome is the one that the exercise expects. -/
theorem ofQuestion_shown_sound (hasked : ofQuestion text settings catalogue = .ok exercise)
    (hredundant : starsRedundant exercise.question.toList = true)
    (hlatex : exercise.latex = "$" ++ body ++ "$") (hread : parseEquation body = .ok equation)
    (hsolve : equation.solve settings.unknownName = .ok outcome) :
    parseEquation exercise.question = .ok equation ∧
      (∀ q, outcome = .root q →
        exercise.expected.entries = [(settings.unknownName, .value (.number q))]) ∧
      (∀ kind, outcome = .special kind →
        exercise.expected.entries = [(settings.unknownName, .special kind)]) := by
  obtain ⟨hplain, hshown, asked, found, hasks, hfound, hexpected⟩ := ofQuestion_ok hasked
  obtain rfl : withoutStars exercise.question = body := inlineMath_inj.mp (hshown.symm.trans hlatex)
  have hstarless : parseEquationChars (starless exercise.question.toList) = .ok equation := by
    rw [parseEquation, withoutStars, String.toList_ofList] at hread
    exact hread
  obtain ⟨hequal, honly⟩ := Equation.only_of_solve hfound
  obtain ⟨hequal', honly'⟩ := Equation.only_of_solve hsolve
  obtain rfl : equation = asked :=
    parseEquationChars_starless hplain hredundant hasks hstarless hequal hequal' honly honly'
  obtain rfl : outcome = found := Except.ok.inj (hsolve.symm.trans hfound)
  rw [hexpected]
  exact ⟨hasks, entries_single_ofOutcome settings.unknownName outcome⟩

/-- `2x+3(x-1)=12`: a star before a name, and one before a group. -/
theorem ofQuestion_shown_sound_group :
    ∃ exercise equation,
      ofQuestion "2 * x + 3 * (x - 1) = 12" Settings.default (.ofForms StandardForm.all) =
        .ok exercise ∧
      starsRedundant exercise.question.toList = true ∧
      exercise.latex = "$" ++ "2x+3(x-1)=12" ++ "$" ∧
      parseEquation "2x+3(x-1)=12" = .ok equation ∧ equation.solve "x" = .ok (.root 3) ∧
      parseEquation exercise.question = .ok equation ∧
      exercise.expected.entries = [("x", .value (.number 3))] := by
  have hread : parseEquation "2*x+3*(x-1)=12" = .ok ⟨.add (.mul (.number 2) (.var "x"))
      (.mul (.number 3) (.sub (.var "x") (.number 1))), .equal, .number 12⟩ := by decide +kernel
  have hshown : parseEquation "2x+3(x-1)=12" = .ok ⟨.add (.mul (.number 2) (.var "x"))
      (.mul (.number 3) (.sub (.var "x") (.number 1))), .equal, .number 12⟩ := by decide +kernel
  have hsolve : Equation.solve ⟨.add (.mul (.number 2) (.var "x"))
      (.mul (.number 3) (.sub (.var "x") (.number 1))), .equal, .number 12⟩ "x" =
        .ok (.root 3) := by decide +kernel
  have hasked : ofQuestion "2 * x + 3 * (x - 1) = 12" Settings.default
      (.ofForms StandardForm.all) = .ok _ :=
    ofQuestion_standard (by decide +kernel) (by decide +kernel) hread hsolve
  have hredundant : starsRedundant "2*x+3*(x-1)=12".toList = true := by decide +kernel
  have hlatex : inlineMath (withoutStars "2*x+3*(x-1)=12") = "$" ++ "2x+3(x-1)=12" ++ "$" := by
    decide +kernel
  obtain ⟨hsame, hroot, -⟩ := ofQuestion_shown_sound hasked hredundant hlatex hshown hsolve
  exact ⟨_, _, hasked, hredundant, hlatex, hshown, hsolve, hsame, hroot 3 rfl⟩

/-- `2*3*x=12` is shown as `23x=12`: the root of what is shown is not the one that is expected. -/
theorem ofQuestion_shown_merges_literals :
    ∃ exercise equation,
      ofQuestion "2*3*x=12" Settings.default (.ofForms StandardForm.all) = .ok exercise ∧
      exercise.latex = "$" ++ "23x=12" ++ "$" ∧ parseEquation "23x=12" = .ok equation ∧
      equation.solve "x" = .ok (.root (12 / 23)) ∧
      exercise.expected.entries = [("x", .value (.number 2))] ∧
      exercise.expected.entries ≠ [("x", .value (.number (12 / 23)))] := by
  have hread : parseEquation "2*3*x=12" = .ok ⟨.mul (.mul (.number 2) (.number 3)) (.var "x"),
      .equal, .number 12⟩ := by decide +kernel
  have hsolve : Equation.solve ⟨.mul (.mul (.number 2) (.number 3)) (.var "x"), .equal,
      .number 12⟩ "x" = .ok (.root 2) := by decide +kernel
  have hshown : parseEquation "23x=12" = .ok ⟨.mul (.number 23) (.var "x"), .equal, .number 12⟩ := by
    decide +kernel
  have hasked : ofQuestion "2*3*x=12" Settings.default (.ofForms StandardForm.all) = .ok _ :=
    ofQuestion_standard (by decide +kernel) (by decide +kernel) hread hsolve
  exact ⟨_, _, hasked, by decide +kernel, hshown, by decide +kernel, rfl, by decide +kernel⟩

end Exercise

end EquationPractice
