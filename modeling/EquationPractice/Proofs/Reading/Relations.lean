import EquationPractice.Proofs.Reading.Derived
import EquationPractice.Proofs.Text.Runs

/-!
# Texts that state a relation

A text is read as a relation if and only if it consists of a text that is read as an expression, a
relation sign, and another such text.  So the reader, which takes the longest expression it can off
the front of the whole text, cuts the text at the sign and nowhere else.

## Strategy

No expression holds a character of a relation sign.  The left side therefore ends at the sign, also
for the reader of the longer text, and of two signs that begin alike the longer one is the only
choice.  An expression leaves no parenthesis open, so both sides may be nested as deeply as the whole
text.  Blanks that are no gaps are passed over at the end of a text, but not in front of a sign.

## Main definitions

* `Splits`: a text that is made of two expressions and a relation sign.
-/

namespace EquationPractice

open Text

variable {cs rest : List Char} {e : Expr} {equation : Equation} {sign : Relation}

/-! ## Relation signs -/

/-- A character of a relation sign. -/
def isRelationChar (c : Char) : Bool :=
  c ∈ ['=', '!', '<', '>']

theorem isRelationChar_iff {c : Char} :
    isRelationChar c = true ↔ c = '=' ∨ c = '!' ∨ c = '<' ∨ c = '>' := by
  simp [isRelationChar]

theorem Relation.isRelationChar (sign : Relation) :
    ∀ c ∈ sign.chars, isRelationChar c = true := by
  have hall : sign.chars.all EquationPractice.isRelationChar = true := by
    cases sign <;> rfl
  exact List.all_eq_true.mp hall

theorem Relation.exists_cons (sign : Relation) : ∃ c more, sign.chars = c :: more ∧
    EquationPractice.isRelationChar c = true := by
  cases sign <;> exact ⟨_, _, rfl, by decide⟩

theorem Relation.chars_injective : Function.Injective Relation.chars := by
  intro first second heq
  cases first <;> cases second <;> first | rfl | exact absurd heq (by decide)

theorem not_isRelationChar_of_isPhraseChar {c : Char} (hphrase : isPhraseChar c = true) :
    isRelationChar c = false := by
  rw [Bool.eq_false_iff]
  intro hrelation
  rcases isRelationChar_iff.mp hrelation with rfl | rfl | rfl | rfl
  all_goals exact absurd hphrase (by decide)

theorem not_isRelationChar_of_isBlank {c : Char} (hblank : isBlank c = true) :
    isRelationChar c = false := by
  rw [Bool.eq_false_iff]
  intro hrelation
  rcases isRelationChar_iff.mp hrelation with rfl | rfl | rfl | rfl
  all_goals exact absurd hblank (by decide)

/-- What is read as a sign stands in the text, gaps aside. -/
theorem exists_gaps_of_relation (hread : relation cs = .ok (sign, rest)) :
    ∃ gaps, Gaps gaps ∧ cs = gaps ++ (sign.chars ++ rest) := by
  refine exists_gaps ?_
  unfold relation at hread
  split at hread
  case h_7 => exact absurd hread (by simp)
  all_goals
    next hskip =>
      obtain ⟨rfl, rfl⟩ := Prod.mk.inj (Except.ok.inj hread)
      exact hskip

/-- A sign is read whole, unless an equality sign behind it would make it longer. -/
theorem relation_of_gaps {gaps : List Char} (hgaps : Gaps gaps)
    (hrest : HeadFree isRelationChar rest) :
    relation (gaps ++ (sign.chars ++ rest)) = .ok (sign, rest) := by
  obtain ⟨c, more, hchars, hc⟩ := sign.exists_cons
  have hgap : isGap c = false := by
    rw [Bool.eq_false_iff]
    intro hgap
    exact absurd hc (by simp [not_isRelationChar_of_isBlank (isBlank_of_isGap hgap)])
  have hskip : skipGaps (gaps ++ (sign.chars ++ rest)) = sign.chars ++ rest := by
    rw [hchars, List.cons_append, hgaps.skipGaps_cons hgap]
  -- the branches for the shorter signs are taken since no equality sign follows
  have hnext : ∀ tail, rest ≠ '=' :: tail := by
    rintro tail rfl
    exact absurd (headFree_cons.mp hrest) (by decide)
  unfold relation
  rw [hskip]
  cases sign
  all_goals simp [Relation.chars]

/-! ## Expressions in front of a sign -/

/-- A whole text that is read as an expression is derived as one, but for blanks at its end. -/
theorem exists_derives_of_parseChars (hread : parseChars cs = .ok e) :
    ∃ taken blanks, cs = taken ++ blanks ∧ (∀ c ∈ blanks, isBlank c = true) ∧
      Derives .sum taken blanks e := by
  obtain ⟨-, blanks, hexpr, hblanks⟩ := parseChars_eq_ok_iff.mp hread
  obtain ⟨taken, htext, hderives⟩ := takes_readExpr _ _ _ hexpr
  exact ⟨taken, blanks, htext, List.all_eq_true.mp hblanks, hderives⟩

/-- A derived text with blanks behind it is read, if it is neither too long nor nested too deeply. -/
theorem parseChars_of_derives {taken blanks : List Char} (hderives : Derives .sum taken blanks e)
    (hblanks : ∀ c ∈ blanks, isBlank c = true) (hlength : (taken ++ blanks).length ≤ maxLength)
    (hnests : nestsWithin maxNesting 0 (taken ++ blanks) = true) :
    parseChars (taken ++ blanks) = .ok e := by
  obtain ⟨c, hc, hplain⟩ := hderives.exists_not_isBlank
  have hcheck : checkText (taken ++ blanks) = .ok () :=
    checkText_eq_ok.mpr ⟨⟨c, List.mem_append_left _ hc, hplain⟩, hlength, hnests⟩
  have hread := hderives.readExpr (noneAhead_blanks hblanks) (not_startsFactor_blanks hblanks)
  exact parseChars_eq_ok_iff.mpr ⟨hcheck, blanks, hread, List.all_eq_true.mpr hblanks⟩

/-- No character of a relation sign stands in a text that is read as an expression. -/
theorem not_isRelationChar_of_parseChars (hread : parseChars cs = .ok e) :
    ∀ c ∈ cs, isRelationChar c = false := by
  obtain ⟨taken, blanks, rfl, hblanks, hderives⟩ := exists_derives_of_parseChars hread
  exact List.forall_mem_append.mpr
    ⟨fun c hc => not_isRelationChar_of_isPhraseChar (hderives.isPhraseChar c hc),
      fun c hc => not_isRelationChar_of_isBlank (hblanks c hc)⟩

/-- In front of gaps and a sign, every token ends. -/
theorem headFree_sign {gaps : List Char} (hgaps : Gaps gaps) (sign : Relation) (rest : List Char) :
    HeadFree isTokenChar (gaps ++ (sign.chars ++ rest)) := by
  refine HeadFree.append hgaps.headFree_isTokenChar ?_
  cases sign <;> exact headFree_cons.mpr (by decide)

/-- In front of gaps and a sign, an expression is read to its end. -/
theorem readExpr_before_sign {taken gaps next : List Char} (hderives : Derives .sum taken next e)
    (hgaps : Gaps gaps) : readExpr (taken ++ (gaps ++ (sign.chars ++ rest))) =
      .ok (e, gaps ++ (sign.chars ++ rest)) := by
  have hread := hderives.behind (Or.inr (headFree_sign hgaps sign rest))
  obtain ⟨c, more, hchars, hc⟩ := sign.exists_cons
  have hends : isGap c = false ∧ c ∉ sumOperators ∧ startsName c = false ∧ c ≠ '(' := by
    rcases isRelationChar_iff.mp hc with rfl | rfl | rfl | rfl
    all_goals decide
  rw [hchars, List.cons_append] at hread ⊢
  exact hread.readExpr (hgaps.noneAhead hends.1 hends.2.1) (hgaps.not_startsFactor hends.2.2)

/-! ## Sides of a relation -/

/-- No blank stands at the end of the text, gaps aside. -/
def EndsInGaps (cs : List Char) : Prop :=
  ∀ front blanks, cs = front ++ blanks → (∀ c ∈ blanks, isBlank c = true) → Gaps blanks

section Sides

variable {left right : List Char} {l r : Expr}

/-- Behind a side that leaves no parenthesis open, the other side is nested as if it stood alone. -/
theorem nestsWithin_sides {limit : ℕ} (hbalanced : Balanced left) :
    nestsWithin limit 0 (left ++ (sign.chars ++ right)) =
      (nestsWithin limit 0 left && nestsWithin limit 0 right) := by
  have hplain : ∀ c ∈ sign.chars, c ≠ '(' ∧ c ≠ ')' := by
    intro c hc
    rcases isRelationChar_iff.mp (sign.isRelationChar c hc) with rfl | rfl | rfl | rfl
    all_goals decide
  rw [hbalanced, nestsWithin_append hplain]

/-- What is read as a relation consists of two sides and a sign. -/
theorem exists_sides_of_parseEquationChars (hread : parseEquationChars cs = .ok equation) :
    ∃ left right, cs = left ++ (equation.relation.chars ++ right) ∧
      parseChars left = .ok equation.lhs ∧ parseChars right = .ok equation.rhs ∧
      EndsInGaps left := by
  obtain ⟨hcheck, hwhole⟩ := parseEquationChars_eq_ok_iff.mp hread
  obtain ⟨blanks, hequation, hblanks⟩ := wholeEquation?_eq_some.mp hwhole
  obtain ⟨afterLeft, right, hleft, hsign, hright⟩ := readEquation_eq_ok hequation
  obtain ⟨taken, rfl, hderives⟩ := takes_readExpr _ _ _ hleft
  obtain ⟨taken', hright', hderives'⟩ := takes_readExpr _ _ _ hright
  obtain ⟨gaps, hgaps, rfl⟩ := exists_gaps_of_relation hsign
  have hgapBlanks : ∀ c ∈ gaps, isBlank c = true := fun c hc => isBlank_of_isGap (hgaps c hc)
  -- the text is let in, and both sides are parts of it
  rw [← List.append_assoc] at hcheck ⊢
  obtain ⟨-, hlength, hnests⟩ := checkText_eq_ok.mp hcheck
  rw [nestsWithin_sides (hderives.balanced.append hgaps.balanced), Bool.and_eq_true] at hnests
  simp only [List.length_append] at hlength
  refine ⟨taken ++ gaps, right, rfl, ?_, ?_, ?_⟩
  · refine parseChars_of_derives (hderives.behind (Or.inr hgaps.headFree_isTokenChar)) hgapBlanks ?_
      hnests.1
    rw [List.length_append]
    omega
  · obtain ⟨c, hc, hblank⟩ := hderives'.exists_not_isBlank
    have hmem : c ∈ right := hright' ▸ List.mem_append_left _ hc
    exact parseChars_eq_ok_iff.mpr ⟨checkText_eq_ok.mpr ⟨⟨c, hmem, hblank⟩, by omega, hnests.2⟩,
      blanks, hright, hblanks⟩
  · intro front last htext hlast c hc
    have hmem : c ∈ taken ++ gaps := htext ▸ List.mem_append_right _ hc
    refine isGap_of_isPhraseChar ?_ (hlast c hc)
    rcases List.mem_append.mp hmem with htaken | hgap
    · exact hderives.isPhraseChar c htaken
    · exact isPhraseChar_of_isGap (hgaps c hgap)

/-- Two sides with a sign between them are read as the relation. -/
theorem parseEquationChars_of_sides
    (hlength : (left ++ (sign.chars ++ right)).length ≤ maxLength)
    (hleft : parseChars left = .ok l) (hright : parseChars right = .ok r)
    (hends : EndsInGaps left) :
    parseEquationChars (left ++ (sign.chars ++ right)) = .ok ⟨l, sign, r⟩ := by
  obtain ⟨hcheckLeft, -⟩ := parseChars_eq_ok_iff.mp hleft
  obtain ⟨hcheckRight, last, hreadRight, hlast⟩ := parseChars_eq_ok_iff.mp hright
  obtain ⟨⟨c, hc, hblank⟩, -, hnestsLeft⟩ := checkText_eq_ok.mp hcheckLeft
  obtain ⟨-, -, hnestsRight⟩ := checkText_eq_ok.mp hcheckRight
  obtain ⟨taken, gaps, rfl, hblanks, hderives⟩ := exists_derives_of_parseChars hleft
  have hgaps : Gaps gaps := hends taken gaps rfl hblanks
  have hfree : HeadFree isRelationChar right := fun c hc =>
    not_isRelationChar_of_parseChars hright c (List.mem_of_mem_head? hc)
  have hequation : readEquation (taken ++ gaps ++ (sign.chars ++ right)) =
      .ok (⟨l, sign, r⟩, last) := by
    rw [List.append_assoc]
    simp only [readEquation, readEquationBy, readExpr_before_sign hderives hgaps,
      relation_of_gaps hgaps hfree, hreadRight]
  refine parseEquationChars_eq_ok_iff.mpr ⟨checkText_eq_ok.mpr ⟨⟨c, List.mem_append_left _ hc,
    hblank⟩, hlength, ?_⟩, wholeEquation?_eq_some.mpr ⟨last, hequation, hlast⟩⟩
  rw [nestsWithin_sides (hderives.balanced.append hgaps.balanced), hnestsLeft, hnestsRight,
    Bool.and_self]

/-- What is read as an expression is no relation: no sign stands in it. -/
theorem wholeEquation?_eq_none (hread : parseChars cs = .ok e) : wholeEquation? cs = none := by
  rw [Option.eq_none_iff_forall_ne_some]
  intro equation hwhole
  obtain ⟨blanks, hequation, -⟩ := wholeEquation?_eq_some.mp hwhole
  obtain ⟨afterLeft, right, hleft, hsign, -⟩ := readEquation_eq_ok hequation
  obtain ⟨taken, rfl, -⟩ := takes_readExpr _ _ _ hleft
  obtain ⟨gaps, -, rfl⟩ := exists_gaps_of_relation hsign
  obtain ⟨c, more, hchars, hc⟩ := equation.relation.exists_cons
  have hnone := not_isRelationChar_of_parseChars hread c (by simp [hchars])
  exact absurd hc (by simp [hnone])

/-- A text has at most one sign between two sides. -/
theorem eq_of_sides {first second : Relation} {left' right' : List Char} {l' r' : Expr}
    (hleft : parseChars left = .ok l) (hright : parseChars right = .ok r)
    (hleft' : parseChars left' = .ok l') (hright' : parseChars right' = .ok r')
    (htext : left ++ (first.chars ++ right) = left' ++ (second.chars ++ right')) :
    left = left' ∧ first = second ∧ right = right' := by
  have hplain : ∀ {side : List Char} {e : Expr}, parseChars side = .ok e →
      ∀ c ∈ side, (!isRelationChar c) = true :=
    fun hside c hc => by simp [not_isRelationChar_of_parseChars hside c hc]
  have hsign : ∀ (sign : Relation) (rest : List Char),
      HeadFree (fun c => !isRelationChar c) (sign.chars ++ rest) := by
    intro sign rest
    obtain ⟨c, more, hchars, hc⟩ := sign.exists_cons
    rw [hchars, List.cons_append, headFree_cons, hc, Bool.not_true]
  have hfree : ∀ {side : List Char} {e : Expr}, parseChars side = .ok e →
      HeadFree isRelationChar side :=
    fun hside c hc => not_isRelationChar_of_parseChars hside c (List.mem_of_mem_head? hc)
  -- the left side ends where the first character of a sign stands, and the sign where the last does
  obtain rfl := eq_of_append_eq (hplain hleft) (hplain hleft') (hsign _ _) (hsign _ _) htext
  have hbehind := List.append_cancel_left htext
  have hchars := eq_of_append_eq first.isRelationChar second.isRelationChar (hfree hright)
    (hfree hright') hbehind
  obtain rfl := Relation.chars_injective hchars
  exact ⟨rfl, rfl, List.append_cancel_left hbehind⟩

end Sides

/-! ## Whole texts -/

/-- The text is made of two sides and the sign between them, with no blank but gaps in front of the
sign. -/
structure Splits (text left right : String) (equation : Equation) : Prop where
  text_eq : text = left ++ equation.relation.text ++ right
  reads_left : parse left = .ok equation.lhs
  reads_right : parse right = .ok equation.rhs
  ends : EndsInGaps left.toList

theorem Splits.toList_eq {text left right : String} (hsplits : Splits text left right equation) :
    text.toList = left.toList ++ (equation.relation.chars ++ right.toList) := by
  rw [hsplits.text_eq, String.toList_append, String.toList_append, Relation.text,
    String.toList_ofList, List.append_assoc]

/-- **A relation is split at its sign and nowhere else.**  A text that is not too long is read as a
relation if and only if it is made of a text that is read as the left side, the relation sign, and a
text that is read as the right side, where no blanks but gaps stand in front of the sign.  There is
no other such split.  A text states the value of an expression if and only if it is read as that
expression. -/
theorem parseEquation_eq_ok_iff (text : String) :
    (text.length ≤ maxLength → ∀ equation, parseEquation text = .ok equation ↔
      ∃ left right, Splits text left right equation) ∧
    (∀ left right equation left' right' equation', Splits text left right equation →
      Splits text left' right' equation' →
        left = left' ∧ right = right' ∧ equation = equation') ∧
    ∀ e, parseStatement text = .ok (.expression e) ↔ parse text = .ok e := by
  refine ⟨fun hlength equation => ?_, ?_, fun e => ?_⟩
  · constructor
    · intro hread
      obtain ⟨left, right, htext, hleft, hright, hends⟩ := exists_sides_of_parseEquationChars hread
      refine ⟨String.ofList left, String.ofList right, ?_, ?_, ?_, ?_⟩
      · rw [← String.toList_inj, String.toList_append, String.toList_append, Relation.text]
        simp only [String.toList_ofList, List.append_assoc, htext]
      · rwa [parse, String.toList_ofList]
      · rwa [parse, String.toList_ofList]
      · rwa [String.toList_ofList]
    · rintro ⟨left, right, hsplits⟩
      rw [← String.length_toList, hsplits.toList_eq] at hlength
      rw [parseEquation, hsplits.toList_eq]
      exact parseEquationChars_of_sides hlength hsplits.reads_left hsplits.reads_right hsplits.ends
  · intro left right equation left' right' equation' hsplits hsplits'
    obtain ⟨hleft, hsign, hright⟩ := eq_of_sides hsplits.reads_left hsplits.reads_right
      hsplits'.reads_left hsplits'.reads_right (hsplits.toList_eq.symm.trans hsplits'.toList_eq)
    obtain rfl := String.toList_inj.mp hleft
    obtain rfl := String.toList_inj.mp hright
    have hlhs := Except.ok.inj (hsplits.reads_left.symm.trans hsplits'.reads_left)
    have hrhs := Except.ok.inj (hsplits.reads_right.symm.trans hsplits'.reads_right)
    refine ⟨rfl, rfl, ?_⟩
    cases equation
    cases equation'
    simp_all
  · rw [parseStatement, parse, parseStatementChars_eq_expression]
    exact and_iff_left_of_imp wholeEquation?_eq_none

/-- Of the two signs that `2(x+1) <= -.5` might begin with, the longer one is read, and a group that
follows a number is a part of the left side. -/
theorem parseEquation_longer_sign :
    "2(x+1) <= -.5".length ≤ maxLength ∧
    parseEquation "2(x+1) <= -.5" =
      .ok ⟨.mul (.number 2) (.add (.var "x") (.number 1)), .atMost, .number (-1 / 2)⟩ ∧
    ∃ left right, Splits "2(x+1) <= -.5" left right
      ⟨.mul (.number 2) (.add (.var "x") (.number 1)), .atMost, .number (-1 / 2)⟩ := by
  have hlength : "2(x+1) <= -.5".length ≤ maxLength := by decide +kernel
  have hread : parseEquation "2(x+1) <= -.5" =
      .ok ⟨.mul (.number 2) (.add (.var "x") (.number 1)), .atMost, .number (-1 / 2)⟩ := by
    decide +kernel
  exact ⟨hlength, hread, ((parseEquation_eq_ok_iff _).1 hlength _).mp hread⟩

end EquationPractice
