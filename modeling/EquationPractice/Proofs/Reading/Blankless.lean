import EquationPractice.Exercise.Basic
import EquationPractice.Proofs.Reading.Relations
import EquationPractice.Proofs.Results

/-!
# Texts without blanks

A text that is read states the same when all blanks are taken out of it, so an exercise that is made
from a question asks for the unknown of the very equation that was typed.

## Strategy

A gap keeps two tokens apart, and it keeps a name or a group from being a factor.  So it is not clear
that a text may do without its gaps.  But the grammar lets a gap stand only in front of a token that
cannot be a part of what stands before it: in front of an operator or a closing parenthesis, or behind
one of these.  `Derives.blankless` goes through the productions.  As in `Derives.behind` it leaves
open what follows the text, since that loses its blanks as well.
-/

namespace EquationPractice

open Text

variable {layer : Layer} {cs ds next other : List Char} {c : Char} {e f : Expr}

/-! ## Taking out blanks -/

@[simp] theorem removeBlanks_append : removeBlanks (cs ++ ds) = removeBlanks cs ++ removeBlanks ds :=
  List.filter_append ..

theorem removeBlanks_cons (hc : isBlank c = false) : removeBlanks (c :: cs) = c :: removeBlanks cs :=
  List.filter_cons_of_pos (by simp [hc])

theorem removeBlanks_sublist (cs : List Char) : (removeBlanks cs).Sublist cs :=
  List.filter_sublist

theorem not_isBlank_of_mem_removeBlanks (hc : c ∈ removeBlanks cs) : isBlank c = false := by
  have hplain := (List.mem_filter.mp hc).2
  simpa using hplain

theorem removeBlanks_eq_self (hplain : ∀ c ∈ cs, isBlank c = false) : removeBlanks cs = cs :=
  List.filter_eq_self.mpr fun c hc => by simp [hplain c hc]

theorem removeBlanks_eq_nil (hblanks : ∀ c ∈ cs, isBlank c = true) : removeBlanks cs = [] :=
  List.filter_eq_nil_iff.mpr fun c hc => by simp [hblanks c hc]

theorem Gaps.removeBlanks (hgaps : Gaps cs) : removeBlanks cs = [] :=
  removeBlanks_eq_nil fun c hc => isBlank_of_isGap (hgaps c hc)

/-- A token holds no blank. -/
theorem removeBlanks_token (htoken : ∀ c ∈ cs, isTokenChar c = true) : removeBlanks cs = cs :=
  removeBlanks_eq_self fun c hc => not_isBlank_of_isTokenChar (htoken c hc)

/-- Blanks do not count for how deep a text is nested. -/
theorem nestsWithin_removeBlanks {limit depth : ℕ} :
    nestsWithin limit depth (removeBlanks cs) = nestsWithin limit depth cs := by
  refine nestsWithin_filter fun c hc => ⟨?_, ?_⟩
  · rintro rfl
    exact absurd hc (by decide)
  · rintro rfl
    exact absurd hc (by decide)

/-! ## Derivations without blanks -/

theorem Signs.blankless (hrun : Signs cs e f) : Signs (removeBlanks cs) e f := by
  induction hrun with
  | none => exact .none
  | plus hgaps _ ih =>
      rw [removeBlanks_append, hgaps.removeBlanks, removeBlanks_cons (by decide)]
      exact .plus gaps_nil ih
  | minus hgaps _ ih =>
      rw [removeBlanks_append, hgaps.removeBlanks, removeBlanks_cons (by decide)]
      exact .minus gaps_nil ih

/-- Without the gaps in front of it, an operator still ends every token. -/
theorem endsAlike_operator {gaps rest rest' : List Char} (htoken : isTokenChar c = false) :
    EndsAlike (gaps ++ c :: rest) (c :: rest') :=
  Or.inr (headFree_cons.mpr htoken)

/-- What is derived is derived without its blanks, with the same tree. -/
theorem Derives.blankless (hderives : Derives layer cs next e) (halike : EndsAlike next other) :
    Derives layer (removeBlanks cs) other e := by
  induction hderives generalizing other with
  | literal hgaps hvalue hmaximal =>
      rw [removeBlanks_append, hgaps.removeBlanks, removeBlanks_token hvalue.isTokenChar]
      exact (Derives.literal gaps_nil hvalue hmaximal).behind halike
  | name hgaps hmaximal =>
      rw [removeBlanks_append, hgaps.removeBlanks, removeBlanks_token hmaximal.isToken.isTokenChar]
      exact (Derives.name gaps_nil hmaximal).behind halike
  | group hbefore hafter _ ih =>
      rw [removeBlanks_append, hbefore.removeBlanks, removeBlanks_cons (by decide),
        removeBlanks_append, removeBlanks_append, hafter.removeBlanks]
      exact .group gaps_nil gaps_nil (ih (endsAlike_operator (by decide)))
  | base _ ih => exact .base (ih halike)
  | pow hgaps _ hrun _ ihl ihr =>
      rw [removeBlanks_append, removeBlanks_append, hgaps.removeBlanks,
        removeBlanks_cons (by decide), removeBlanks_append]
      exact .pow gaps_nil (ihl (endsAlike_operator (by decide))) hrun.blankless (ihr halike)
  | signed hrun _ ih =>
      rw [removeBlanks_append]
      exact .signed hrun.blankless (ih halike)
  | operand _ ih => exact .operand (ih halike)
  | mul hgaps _ _ ihl ihr =>
      rw [removeBlanks_append, removeBlanks_append, hgaps.removeBlanks,
        removeBlanks_cons (by decide)]
      exact .mul gaps_nil (ihl (endsAlike_operator (by decide))) (ihr halike)
  | div hgaps _ _ ihl ihr =>
      rw [removeBlanks_append, removeBlanks_append, hgaps.removeBlanks,
        removeBlanks_cons (by decide)]
      exact .div gaps_nil (ihl (endsAlike_operator (by decide))) (ihr halike)
  | product _ ih => exact .product (ih halike)
  | @factor cs ds next c e f _ hends hstart _ ihl ihr =>
      -- the factor stands right behind its left operand, with or without blanks
      have hc : isBlank c = false := by
        rcases hstart with hname | rfl
        · exact not_isBlank_of_continuesName (continuesName_of_startsName hname)
        · decide
      have hright := ihr halike
      rw [removeBlanks_cons hc] at hright
      rw [removeBlanks_append, removeBlanks_cons hc]
      exact .factor (ihl (endsAlike_append_cons [] ..)) hends hstart hright
  | summand _ ih => exact .summand (ih halike)
  | add hgaps _ _ ihl ihr =>
      rw [removeBlanks_append, removeBlanks_append, hgaps.removeBlanks,
        removeBlanks_cons (by decide)]
      exact .add gaps_nil (ihl (endsAlike_operator (by decide))) (ihr halike)
  | sub hgaps _ _ ihl ihr =>
      rw [removeBlanks_append, removeBlanks_append, hgaps.removeBlanks,
        removeBlanks_cons (by decide)]
      exact .sub gaps_nil (ihl (endsAlike_operator (by decide))) (ihr halike)

/-! ## Whole texts -/

/-- A text that is read as an expression is read as the same expression without its blanks. -/
theorem parseChars_removeBlanks (hread : parseChars cs = .ok e) :
    parseChars (removeBlanks cs) = .ok e := by
  obtain ⟨hcheck, -⟩ := parseChars_eq_ok_iff.mp hread
  obtain ⟨-, hlength, hnests⟩ := checkText_eq_ok.mp hcheck
  obtain ⟨taken, blanks, rfl, hblanks, hderives⟩ := exists_derives_of_parseChars hread
  have hshorter := (removeBlanks_sublist (taken ++ blanks)).length_le
  rw [← nestsWithin_removeBlanks] at hnests
  rw [removeBlanks_append, removeBlanks_eq_nil hblanks] at hshorter hnests ⊢
  exact parseChars_of_derives (hderives.blankless (Or.inr headFree_nil)) (by simp)
    (hshorter.trans hlength) hnests

/-- A text that is read as a relation is read as the same relation without its blanks. -/
theorem parseEquationChars_removeBlanks {equation : Equation}
    (hread : parseEquationChars cs = .ok equation) :
    parseEquationChars (removeBlanks cs) = .ok equation := by
  obtain ⟨left, right, rfl, hleft, hright, -⟩ := exists_sides_of_parseEquationChars hread
  obtain ⟨hcheck, -⟩ := parseEquationChars_eq_ok_iff.mp hread
  obtain ⟨-, hlength, -⟩ := checkText_eq_ok.mp hcheck
  have hsign : removeBlanks equation.relation.chars = equation.relation.chars :=
    removeBlanks_eq_self fun c hc => by
      rw [Bool.eq_false_iff]
      intro hblank
      have hrelation := equation.relation.isRelationChar c hc
      exact absurd hrelation (by simp [not_isRelationChar_of_isBlank hblank])
  have hshorter := (removeBlanks_sublist (left ++ (equation.relation.chars ++ right))).length_le
  rw [removeBlanks_append, removeBlanks_append, hsign] at hshorter ⊢
  refine parseEquationChars_of_sides (hshorter.trans hlength) (parseChars_removeBlanks hleft)
    (parseChars_removeBlanks hright) ?_
  -- no blank is left in front of the sign
  intro front blanks htext hblanks c hc
  have hmem : c ∈ removeBlanks left := htext ▸ List.mem_append_right front hc
  exact absurd (hblanks c hc) (by simp [not_isBlank_of_mem_removeBlanks hmem])

theorem parseStatementChars_eq_equation {equation : Equation} :
    parseStatementChars cs = .ok (.equation equation) ↔ parseEquationChars cs = .ok equation := by
  unfold parseEquationChars
  cases parseStatementChars cs with
  | error e => simp
  | ok statement => cases statement <;> simp

/-- A text that states something states the same without its blanks. -/
theorem parseStatementChars_removeBlanks {statement : Statement}
    (hread : parseStatementChars cs = .ok statement) :
    parseStatementChars (removeBlanks cs) = .ok statement := by
  cases statement with
  | equation equation =>
      rw [parseStatementChars_eq_equation] at hread ⊢
      exact parseEquationChars_removeBlanks hread
  | expression e =>
      have hplain := parseChars_removeBlanks (parseStatementChars_eq_expression.mp hread).1
      exact parseStatementChars_eq_expression.mpr ⟨hplain, wholeEquation?_eq_none hplain⟩

/-! ## Exercises for typed questions -/

/-- The exercise that asks for the unknown of an equation, with the question as it is to be kept. -/
def Exercise.ofEquation (settings : Settings) (catalogue : Catalogue) (question : String)
    (equation : Equation) : Except ExerciseError Exercise := do
  let outcome ← (equation.solve settings.unknownName).mapError ExerciseError.unsolved
  let judge ← judgeOf catalogue
  return ⟨settings, question, inlineMath (withoutStars question),
    .single settings.unknownName (.ofOutcome outcome), judge⟩

/-- **Blanks do not matter in a text that is read.**  A text that states something states the same
without its blanks.  So the exercise that is made from a typed question asks for the unknown of the
equation that the question as it was typed is read as. -/
theorem parseStatement_withoutBlanks (text : String) :
    (∀ statement, parseStatement text = .ok statement →
      parseStatement (String.ofList (removeBlanks text.toList)) = .ok statement) ∧
    ∀ equation settings catalogue, parseEquation text = .ok equation →
      settings.validate = .ok () →
      Exercise.ofQuestion text settings catalogue =
        Exercise.ofEquation settings catalogue (String.ofList (removeBlanks text.toList))
          equation := by
  constructor
  · intro statement hread
    rw [parseStatement, String.toList_ofList]
    exact parseStatementChars_removeBlanks hread
  · intro equation settings catalogue hread hvalid
    have hreread : parseEquation (String.ofList (removeBlanks text.toList)) = .ok equation := by
      rw [parseEquation, String.toList_ofList]
      exact parseEquationChars_removeBlanks hread
    simp only [Exercise.ofQuestion, hvalid, ok_bind, Exercise.build, hreread]
    rfl

/-- Gaps before a group, behind a sign and around the relation sign, and a no-break space at the
end. -/
theorem parseStatement_withoutBlanks_spaced :
    parseStatement " 2(x - 1)\t=  - 3x + .5\u00a0" = .ok (.equation
      ⟨.mul (.number 2) (.sub (.var "x") (.number 1)), .equal,
        .add (.mul (.number (-3)) (.var "x")) (.number (1 / 2))⟩) ∧
    Settings.default.validate = .ok () ∧
    parseStatement "2(x-1)=-3x+.5" = .ok (.equation
      ⟨.mul (.number 2) (.sub (.var "x") (.number 1)), .equal,
        .add (.mul (.number (-3)) (.var "x")) (.number (1 / 2))⟩) ∧
    ∀ catalogue, Exercise.ofQuestion " 2(x - 1)\t=  - 3x + .5\u00a0" .default catalogue =
      Exercise.ofEquation .default catalogue "2(x-1)=-3x+.5"
        ⟨.mul (.number 2) (.sub (.var "x") (.number 1)), .equal,
          .add (.mul (.number (-3)) (.var "x")) (.number (1 / 2))⟩ := by
  have hread : parseStatement " 2(x - 1)\t=  - 3x + .5\u00a0" = .ok (.equation
      ⟨.mul (.number 2) (.sub (.var "x") (.number 1)), .equal,
        .add (.mul (.number (-3)) (.var "x")) (.number (1 / 2))⟩) := by decide +kernel
  have hvalid : Settings.default.validate = .ok () := by decide +kernel
  have hblanks : String.ofList (removeBlanks " 2(x - 1)\t=  - 3x + .5\u00a0".toList) =
      "2(x-1)=-3x+.5" := by decide +kernel
  obtain ⟨hsame, hexercise⟩ := parseStatement_withoutBlanks " 2(x - 1)\t=  - 3x + .5\u00a0"
  rw [hblanks] at hsame hexercise
  refine ⟨hread, hvalid, hsame _ hread, fun catalogue => hexercise _ _ catalogue ?_ hvalid⟩
  exact parseStatementChars_eq_equation.mp hread

end EquationPractice
