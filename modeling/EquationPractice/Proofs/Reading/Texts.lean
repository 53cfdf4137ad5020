import EquationPractice.Proofs.Reading.Phrases
import EquationPractice.Statement

/-!
# Whole texts

A text that is checked and spells a sum is read as that sum, and two sums around an equality sign
are read as an equation.
-/

namespace EquationPractice

open Text

/-- A text is let in when it is not blank, not too long and not nested too deeply. -/
theorem checkText_eq_ok {cs : List Char} : checkText cs = .ok () ↔
    (∃ c ∈ cs, isBlank c = false) ∧ cs.length ≤ maxLength ∧ nestsWithin maxNesting 0 cs = true := by
  have hblank : (∃ c ∈ cs, isBlank c = false) ↔ ¬cs.all isBlank = true := by simp
  rw [hblank, ← not_lt]
  unfold checkText
  split
  · next hall => simp [hall]
  · next hall =>
      split
      · next hlong => simp [hlong]
      · next hshort =>
          split
          · next hdeep => simp_all
          · next hshallow => simp_all

/-- Characters that are no parentheses do not change how deep a text is nested. -/
theorem nestsWithin_append {limit depth : Nat} {cs rest : List Char}
    (hplain : ∀ c ∈ cs, c ≠ '(' ∧ c ≠ ')') :
    nestsWithin limit depth (cs ++ rest) = nestsWithin limit depth rest := by
  induction cs with
  | nil => rfl
  | cons c tail ih =>
      have hc := hplain c List.mem_cons_self
      rw [List.cons_append, nestsWithin, if_neg hc.1, if_neg hc.2]
      exact ih fun d hd => hplain d (List.mem_cons_of_mem _ hd)

/-- Only parentheses count for how deep a text is nested. -/
theorem nestsWithin_filter {limit depth : Nat} {p : Char → Bool} {cs : List Char}
    (hplain : ∀ c, p c = false → c ≠ '(' ∧ c ≠ ')') :
    nestsWithin limit depth (cs.filter p) = nestsWithin limit depth cs := by
  induction cs generalizing depth with
  | nil => rfl
  | cons c rest ih =>
      cases hc : p c with
      | true => rw [List.filter_cons_of_pos hc, nestsWithin, nestsWithin, ih, ih, ih]
      | false =>
          obtain ⟨hopen, hclose⟩ := hplain c hc
          rw [List.filter_cons_of_neg (by simp [hc]), ih, nestsWithin, if_neg hopen, if_neg hclose]

/-- A text without parentheses is let in when it is not blank and not too long. -/
theorem checkText_of_plain {cs : List Char} (hblank : ∃ c ∈ cs, isBlank c = false)
    (hlength : cs.length ≤ maxLength) (hplain : ∀ c ∈ cs, c ≠ '(' ∧ c ≠ ')') :
    checkText cs = .ok () := by
  refine checkText_eq_ok.mpr ⟨hblank, hlength, ?_⟩
  rw [← List.append_nil cs, nestsWithin_append hplain]
  rfl

theorem not_isBlank_of_continuesName {c : Char} (hname : continuesName c = true) :
    isBlank c = false := by
  rw [continuesName_iff, startsName_iff, isAlpha_iff, isDigit_iff] at hname
  simp only [isBlank, Bool.or_eq_false_iff, Bool.and_eq_false_iff, decide_eq_false_iff_not,
    beq_eq_false_iff_ne]
  omega

theorem readExpr_of_sum {cs : List Char} {e : Expr}
    (hsum : SpellsSum (expression cs.length) cs e) : readExpr cs = .ok (e, []) := by
  have hread := hsum.sum [] stops_nil
  rwa [List.append_nil] at hread

/-- A text that is let in and spells a sum is read as that sum. -/
theorem parseChars_of_sum {cs : List Char} {e : Expr} (hcheck : checkText cs = .ok ())
    (hsum : SpellsSum (expression cs.length) cs e) : parseChars cs = .ok e := by
  simp only [parseChars, parseBy, hcheck, readExpr_of_sum hsum]
  rfl

/-- Two sums around an equality sign are read as an equation. -/
theorem parseEquationChars_of_sums {left right : List Char} {l r : Expr}
    (hcheck : checkText (left ++ '=' :: right) = .ok ())
    (hleft : SpellsSum (expression (left ++ '=' :: right).length) left l)
    (hright : SpellsSum (expression right.length) right r) :
    parseEquationChars (left ++ '=' :: right) = .ok ⟨l, .equal, r⟩ := by
  -- the left sum ends at the equality sign, which continues nothing
  have hstops : Stops sumOperators ('=' :: right) :=
    stops_cons (by decide) (by decide) (by decide)
  have hrelation : relation ('=' :: right) = .ok (.equal, right) := by
    unfold relation
    rw [skipGaps_cons_of_not_isGap (by decide)]
    rfl
  have hread : readEquation (left ++ '=' :: right) = .ok (⟨l, .equal, r⟩, []) := by
    have hreadLeft : readExpr (left ++ '=' :: right) = .ok (l, '=' :: right) :=
      hleft.sum _ hstops
    simp only [readEquation, readEquationBy, hreadLeft, hrelation, readExpr_of_sum hright]
  have hwhole : wholeEquation? (left ++ '=' :: right) = some ⟨l, .equal, r⟩ := by
    rw [readEquation] at hread
    simp [wholeEquation?, wholeEquationBy?, hread]
  rw [wholeEquation?] at hwhole
  simp only [parseEquationChars, parseStatementChars, parseStatementBy, hcheck, hwhole]

/-! ## Taking an equation apart -/

section Inversion

variable {cs rest : List Char} {equation : Equation}

theorem relation_eq_equal (hread : relation cs = .ok (.equal, rest)) : skipGaps cs = '=' :: rest := by
  unfold relation at hread
  split at hread
  all_goals simp_all

theorem readEquation_eq_ok (hread : readEquation cs = .ok (equation, rest)) :
    ∃ afterLeft afterSign, readExpr cs = .ok (equation.lhs, afterLeft) ∧
      relation afterLeft = .ok (equation.relation, afterSign) ∧
      readExpr afterSign = .ok (equation.rhs, rest) := by
  unfold readEquation readEquationBy at hread
  split at hread
  · exact absurd hread (by simp)
  · next lhs afterLeft hleft =>
      split at hread
      · exact absurd hread (by simp)
      · next sign afterSign hsign =>
          split at hread
          · exact absurd hread (by simp)
          · next rhs last hright =>
              simp only [Except.ok.injEq, Prod.mk.injEq] at hread
              obtain ⟨rfl, rfl⟩ := hread
              exact ⟨afterLeft, afterSign, hleft, hsign, hright⟩

/-- A reader has read a whole text when nothing but blanks is left. -/
theorem exists_rest_iff {α : Type} {found value : α} :
    (∃ last, (Except.ok (found, rest) : Except Mismatch (α × List Char)) = .ok (value, last) ∧
      last.all isBlank = true) ↔ rest.all isBlank = true ∧ found = value := by
  simp only [Except.ok.injEq, Prod.mk.injEq]
  constructor
  · rintro ⟨_, ⟨rfl, rfl⟩, hblank⟩
    exact ⟨hblank, rfl⟩
  · rintro ⟨hblank, rfl⟩
    exact ⟨rest, ⟨rfl, rfl⟩, hblank⟩

theorem wholeEquation?_eq_some : wholeEquation? cs = some equation ↔
    ∃ rest, readEquation cs = .ok (equation, rest) ∧ rest.all isBlank = true := by
  unfold wholeEquation? wholeEquationBy? readEquation
  cases readEquationBy readExpr cs with
  | error stuck => simp
  | ok result =>
      obtain ⟨found, rest⟩ := result
      rw [exists_rest_iff, Option.ite_none_right_eq_some, Option.some.injEq]

theorem parseChars_eq_ok_iff {e : Expr} : parseChars cs = .ok e ↔
    checkText cs = .ok () ∧ ∃ rest, readExpr cs = .ok (e, rest) ∧ rest.all isBlank = true := by
  unfold parseChars parseBy
  cases checkText cs with
  | error e => simp
  | ok _ =>
      cases readExpr cs with
      | error stuck => simp
      | ok result =>
          obtain ⟨found, rest⟩ := result
          rw [exists_rest_iff]
          cases hblank : rest.all isBlank <;> simp [hblank]

/-- A text is read as a relation when it is let in and is one from its beginning to its end. -/
theorem parseEquationChars_eq_ok_iff : parseEquationChars cs = .ok equation ↔
    checkText cs = .ok () ∧ wholeEquation? cs = some equation := by
  unfold parseEquationChars parseStatementChars parseStatementBy wholeEquation?
  cases checkText cs with
  | error e => simp
  | ok _ =>
      cases wholeEquationBy? readExpr cs with
      | some found => simp
      | none =>
          cases readExpr cs with
          | error stuck => simp
          | ok result => cases hblank : result.2.all isBlank <;> simp [hblank]

/-- A text states the value of an expression when it is read as the expression and is no relation. -/
theorem parseStatementChars_eq_expression {e : Expr} :
    parseStatementChars cs = .ok (.expression e) ↔
      parseChars cs = .ok e ∧ wholeEquation? cs = none := by
  rw [parseChars_eq_ok_iff]
  unfold parseStatementChars parseStatementBy wholeEquation?
  cases checkText cs with
  | error e => simp
  | ok _ =>
      cases wholeEquationBy? readExpr cs with
      | some found => simp
      | none =>
          cases readExpr cs with
          | error stuck => simp
          | ok result =>
              obtain ⟨found, rest⟩ := result
              rw [exists_rest_iff]
              cases hblank : rest.all isBlank <;> simp [hblank]

theorem parseEquationChars_eq_ok (hread : parseEquationChars cs = .ok equation) :
    ∃ rest, readEquation cs = .ok (equation, rest) ∧ rest.all isBlank = true :=
  wholeEquation?_eq_some.mp (parseEquationChars_eq_ok_iff.mp hread).2

end Inversion

end EquationPractice
