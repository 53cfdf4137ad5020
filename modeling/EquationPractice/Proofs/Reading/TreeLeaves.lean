import EquationPractice.Proofs.Evaluation.Constants
import EquationPractice.Proofs.Exercise.TypedNumber
import EquationPractice.Proofs.Reading.Relations
import EquationPractice.Proofs.Reading.WholeTokens

/-!
# The leaves of a tree

The numbers and variables of the tree that a text is read as are the tokens of the text, from left
to right.  None is lost and none is made up; only the sign of a literal may have changed, since the
signs in front of it become a part of the number.  So no sign is left in front of a number in the
tree.

## Strategy

The induction is on the derivation, with everything behind the derived text cut up already.
Operators, signs, parentheses and gaps belong to no token, so the tokens of two operands are those of
the first one and then those of the second one.  A factor that follows at once does not begin with a
digit or a point: no literal begins right behind a token.

## Main definitions

* `Expr.leaves`: the numbers and variables of an expression, from left to right.
* `Expr.SignsFolded`: no sign stands in front of a number.
* `WrittenWith`: the digits of a literal.
-/

namespace EquationPractice

open EquationPractice.Expr Text

variable {layer : Layer} {cs next rest run gaps text whole fraction : List Char} {c : Char}
  {e f l r leaf : Expr} {later : List Expr} {q : ℚ} {name : String}

/-! ## Leaves -/

namespace Expr

/-- A number or a variable. -/
def isLeaf : Expr → Bool
  | number _ | var _ => true
  | _ => false

/-- The numbers and variables of the expression, from left to right. -/
def leaves (e : Expr) : List Expr :=
  e.parts.filter isLeaf

theorem mem_leaves : leaf ∈ e.leaves ↔ leaf ∈ e.parts ∧ leaf.isLeaf = true :=
  List.mem_filter

theorem leaves_over (hparts : e.parts = e :: (l.parts ++ r.parts)) (hinner : e.isLeaf = false) :
    e.leaves = l.leaves ++ r.leaves := by
  unfold leaves
  rw [hparts, List.filter_cons_of_neg (by simp [hinner]), List.filter_append]

/-! ## Signs in front of numbers -/

/-- No sign stands in front of a number. -/
def SignsFolded (e : Expr) : Prop :=
  ∀ q, neg (number q) ∉ e.parts

theorem SignsFolded.over (hleft : l.SignsFolded) (hright : r.SignsFolded)
    (hparts : e.parts = e :: (l.parts ++ r.parts)) (hne : ∀ q, neg (number q) ≠ e) :
    e.SignsFolded := by
  intro q hmem
  rw [hparts, List.mem_cons, List.mem_append] at hmem
  rcases hmem with heq | hmem | hmem
  · exact hne q heq
  · exact hleft q hmem
  · exact hright q hmem

theorem SignsFolded.negate (hfolded : e.SignsFolded) : (negate e).SignsFolded := by
  cases e with
  | number q => simp [EquationPractice.negate, SignsFolded, parts]
  | var | add | sub | mul | div | pow | neg =>
      intro q hmem
      rcases List.mem_cons.mp hmem with heq | hmem
      · simp at heq
      · exact hfolded q hmem

end Expr

theorem Signs.signsFolded (hrun : Signs run e f) (hfolded : e.SignsFolded) : f.SignsFolded := by
  induction hrun with
  | none => exact hfolded
  | plus _ _ ih => exact ih hfolded
  | minus _ _ ih => exact (ih hfolded).negate

/-- In a derived tree every sign in front of a number has become a part of it. -/
theorem Derives.signsFolded (hderives : Derives layer cs next e) : e.SignsFolded := by
  induction hderives with
  | literal | name => simp [SignsFolded, parts]
  | group _ _ _ ih => exact ih
  | base _ ih | operand _ ih | product _ ih | summand _ ih => exact ih
  | signed hrun _ ih => exact hrun.signsFolded ih
  | pow _ _ hrun _ ihb ihx => exact ihb.over (hrun.signsFolded ihx) rfl (by simp)
  | mul _ _ _ ihl ihr | div _ _ _ ihl ihr | add _ _ _ ihl ihr | sub _ _ _ ihl ihr
  | factor _ _ _ _ ihl ihr => exact ihl.over ihr rfl (by simp)

/-! ## Leaves and tokens -/

theorem Gaps.not_isTokenChar (hgaps : Gaps gaps) : ∀ c ∈ gaps, isTokenChar c = false :=
  fun c hc => not_isTokenChar_of_isBlank (isBlank_of_isGap (hgaps c hc))

/-- Gaps and a character that belongs to no token do not change what the tokens write. -/
theorem Lexed.behind (hrest : Lexed rest later) (hgaps : Gaps gaps) (hc : isTokenChar c = false) :
    Lexed (gaps ++ c :: rest) later :=
  (Lexed.other hc hrest).others hgaps.not_isTokenChar

theorem Gaps.headFree_startsLiteral (hgaps : Gaps gaps) (hc : isTokenChar c = false) :
    HeadFree startsLiteral (gaps ++ c :: rest) := by
  have hfree : HeadFree isTokenChar (gaps ++ c :: rest) :=
    hgaps.headFree_isTokenChar.append (headFree_cons.mpr hc)
  exact hfree.imp fun d hd => isTokenChar_of_startsLiteral hd

/-- The first token of a text may as well write the opposite number. -/
theorem Lexed.opposite (hlexed : Lexed text (.number q :: later)) :
    Lexed text (.number (-q) :: later) := by
  generalize hall : Expr.number q :: later = all at hlexed
  induction hlexed with
  | nil => exact absurd hall (by simp)
  | other hc _ ih => exact .other hc (ih hall)
  | token hwrites hmaximal hends hrest _ =>
      obtain ⟨rfl, rfl⟩ := List.cons.inj hall
      cases hwrites with
      | literal hvalue => exact .token (.opposite hvalue) hmaximal hends hrest
      | opposite hvalue =>
          rw [neg_neg]
          exact .token (.literal hvalue) hmaximal hends hrest

theorem Lexed.negate (hlexed : Lexed text (e.leaves ++ later)) :
    Lexed text ((EquationPractice.negate e).leaves ++ later) := by
  cases e with
  | number q => exact hlexed.opposite
  | var | add | sub | mul | div | pow | neg => exact hlexed

theorem Signs.lexed (hrun : Signs run e f) (hrest : Lexed rest (e.leaves ++ later)) :
    Lexed (run ++ rest) (f.leaves ++ later) := by
  induction hrun with
  | none => exact hrest
  | plus hgaps _ ih =>
      rw [List.append_assoc]
      exact (ih hrest).behind hgaps (by decide)
  | minus hgaps _ ih =>
      rw [List.append_assoc]
      exact (ih hrest).negate.behind hgaps (by decide)

/-- The tokens of a derived text are the leaves of its tree. -/
theorem Derives.lexed (hderives : Derives layer cs next e) (hends : HeadFree startsLiteral next)
    (hnext : Lexed next later) : Lexed (cs ++ next) (e.leaves ++ later) := by
  induction hderives generalizing later with
  | literal hgaps hvalue hmaximal =>
      have htoken := maximal_token_of_literal hmaximal
      rw [List.append_assoc]
      exact (Lexed.token (.literal hvalue) htoken hends hnext).others hgaps.not_isTokenChar
  | name hgaps hmaximal =>
      have htoken := maximal_token_of_name hmaximal
      rw [List.append_assoc]
      exact (Lexed.token (.name hmaximal.isToken) htoken hends hnext).others hgaps.not_isTokenChar
  | group hbefore hafter _ ih =>
      have hclose := hnext.behind hafter (c := ')') (by decide)
      have hbody := ih (hafter.headFree_startsLiteral (by decide)) hclose
      simpa using hbody.behind hbefore (c := '(') (by decide)
  | base _ ih | operand _ ih | product _ ih | summand _ ih => exact ih hends hnext
  | signed hrun _ ih =>
      rw [List.append_assoc]
      exact hrun.lexed (ih hends hnext)
  | pow hgaps _ hrun _ ihb ihx =>
      have hright := hrun.lexed (ihx hends hnext)
      have hleft := ihb (hgaps.headFree_startsLiteral (by decide)) (hright.behind hgaps (by decide))
      rw [leaves_over rfl rfl]
      simpa using hleft
  | mul hgaps _ _ ihl ihr | div hgaps _ _ ihl ihr | add hgaps _ _ ihl ihr | sub hgaps _ _ ihl ihr =>
      have hright := ihr hends hnext
      have hleft := ihl (hgaps.headFree_startsLiteral (by decide)) (hright.behind hgaps (by decide))
      rw [leaves_over rfl rfl]
      simpa using hleft
  | @factor cs ds next c e f _ _ hstart _ ihl ihr =>
      -- a factor that follows at once begins with no literal
      have hfirst : HeadFree startsLiteral (c :: (ds ++ next)) := by
        rw [headFree_cons]
        rcases hstart with hname | rfl
        · exact not_startsLiteral_of_startsName hname
        · decide
      have hleft := ihl hfirst (ihr hends hnext)
      rw [leaves_over rfl rfl]
      simpa using hleft

/-- The tokens of a text are the leaves of the tree that it is read as, from left to right. -/
theorem lexed_of_parseChars (hread : parseChars text = .ok e) : Lexed text e.leaves := by
  obtain ⟨taken, blanks, rfl, hblanks, hderives⟩ := exists_derives_of_parseChars hread
  have hends : HeadFree startsLiteral blanks :=
    (headFree_isTokenChar_of_blanks hblanks).imp fun c hc => isTokenChar_of_startsLiteral hc
  have hlast : Lexed blanks [] := by
    simpa using Lexed.nil.others fun c hc => not_isTokenChar_of_isBlank (hblanks c hc)
  simpa using hderives.lexed hends hlast

/-! ## Names and literals -/

/-- The variables among the leaves are the names that are whole in the text. -/
theorem Lexed.var_mem_iff (hlexed : Lexed text later) :
    Expr.var name ∈ later ↔ WholeIn IsName text name.toList := by
  rw [wholeIn_isName]
  constructor
  · intro hmem
    obtain ⟨cs, hwrites, hwhole⟩ := hlexed.exists_wholeIn hmem
    cases hwrites with
    | name hname =>
        rw [String.toList_ofList]
        exact ⟨hwhole, hname⟩
  · rintro ⟨hwhole, hname⟩
    obtain ⟨leaf, hmem, hwrites⟩ := hlexed.exists_writes hwhole
    cases hwrites with
    | name _ => rwa [String.ofList_toList] at hmem
    | literal hvalue | opposite hvalue =>
        exact absurd hname.headFree_startsLiteral hvalue.not_headFree

/-- The literal has these digits before its point and these behind it.  Without a point it has none
behind. -/
structure WrittenWith (literal whole fraction : List Char) : Prop where
  literal_eq : literal = whole ++ '.' :: fraction ∨ literal = whole ∧ fraction = []
  whole : ∀ c ∈ whole, c.isDigit = true
  fraction : ∀ c ∈ fraction, c.isDigit = true

theorem IsLiteral.exists_writtenWith (hvalue : IsLiteral cs q) :
    ∃ whole fraction, WrittenWith cs whole fraction ∧ q = decimalValue whole fraction := by
  cases hvalue with
  | whole hne hdigits => exact ⟨cs, [], ⟨Or.inr ⟨rfl, rfl⟩, hdigits, by simp⟩, rfl⟩
  | @point whole fraction hne hwhole hfraction =>
      exact ⟨whole, fraction, ⟨Or.inl rfl, hwhole, hfraction⟩, rfl⟩

theorem decimalValue_eq_div (whole fraction : List Char) : decimalValue whole fraction =
    (digitsValue whole * 10 ^ fraction.length + digitsValue fraction) / 10 ^ fraction.length := by
  have hpow : (10 : ℚ) ^ fraction.length ≠ 0 := by positivity
  calc decimalValue whole fraction
      = digitsValue whole + digitsValue fraction / 10 ^ fraction.length :=
        decimalValue_eq whole fraction
    _ = digitsValue whole * 10 ^ fraction.length / 10 ^ fraction.length +
          digitsValue fraction / 10 ^ fraction.length := by rw [mul_div_cancel_right₀ _ hpow]
    _ = _ := (add_div _ _ _).symm

theorem den_decimalValue_dvd (whole fraction : List Char) :
    (decimalValue whole fraction).den ∣ 10 ^ fraction.length := by
  unfold decimalValue
  rw [← Rat.divInt_ofNat]
  exact Int.natCast_dvd.mp (Rat.den_dvd _ _)

/-- A number among the leaves is a literal that is whole in the text, or its opposite. -/
theorem Lexed.exists_literal (hlexed : Lexed text later) (hmem : Expr.number q ∈ later) :
    ∃ literal whole fraction, WholeIn IsToken text literal ∧ WrittenWith literal whole fraction ∧
      (q = decimalValue whole fraction ∨ q = -decimalValue whole fraction) := by
  obtain ⟨literal, hwrites, hwhole⟩ := hlexed.exists_wholeIn hmem
  cases hwrites with
  | literal hvalue =>
      obtain ⟨whole, fraction, hwritten, rfl⟩ := hvalue.exists_writtenWith
      exact ⟨literal, whole, fraction, hwhole, hwritten, Or.inl rfl⟩
  | opposite hvalue =>
      obtain ⟨whole, fraction, hwritten, rfl⟩ := hvalue.exists_writtenWith
      exact ⟨literal, whole, fraction, hwhole, hwritten, Or.inr rfl⟩

/-! ## Whole texts -/

/-- **A tree holds the tokens of its text.**  In the tree that a text is read as, no sign stands in
front of a number.  The variables are the names that stand in the text and are not parts of longer
ones: each of them and no other.  Every number is, with one sign or the other, a literal that stands
in the text and is not a part of a longer literal or of a name.  The literal is read exactly: with
`k` digits behind the point, its digits make one number of `10 ^ k`-ths. -/
theorem tokens_of_parse (text : String) (e : Expr) (hparse : parse text = .ok e) :
    (∀ q, Expr.neg (.number q) ∉ e.parts) ∧
    (∀ name, e.mentions name = true ↔ WholeIn IsName text.toList name.toList) ∧
    ∀ q, Expr.number q ∈ e.parts → ∃ literal whole fraction,
      WholeIn IsToken text.toList literal ∧ WrittenWith literal whole fraction ∧
      (q = decimalValue whole fraction ∨ q = -decimalValue whole fraction) ∧
      decimalValue whole fraction = (digitsValue whole * 10 ^ fraction.length +
        digitsValue fraction) / 10 ^ fraction.length ∧
      q.den ∣ 10 ^ fraction.length := by
  have hlexed := lexed_of_parseChars hparse
  obtain ⟨taken, blanks, -, -, hderives⟩ := exists_derives_of_parseChars hparse
  refine ⟨hderives.signsFolded, fun name => ?_, fun q hmem => ?_⟩
  · rw [← hlexed.var_mem_iff, mem_leaves, mentions_iff_mem_parts]
    exact (and_iff_left rfl).symm
  · obtain ⟨literal, whole, fraction, hwhole, hwritten, hvalue⟩ :=
      hlexed.exists_literal (mem_leaves.mpr ⟨hmem, rfl⟩)
    have hden : q.den ∣ 10 ^ fraction.length := by
      rcases hvalue with rfl | rfl
      · exact den_decimalValue_dvd whole fraction
      · rw [Rat.neg_den]
        exact den_decimalValue_dvd whole fraction
    exact ⟨literal, whole, fraction, hwhole, hwritten, hvalue, decimalValue_eq_div whole fraction,
      hden⟩

/-- Both the literal in front of a name and the one whose sign is a part of the number are tokens of
`2.50x1^-.5`, and the digit of the name is none. -/
theorem tokens_of_parse_name_with_digit :
    let e := Expr.mul (.number (5 / 2)) (.pow (.var "x1") (.number (-1 / 2)))
    parse "2.50x1^-.5" = .ok e ∧ WholeIn IsName "2.50x1^-.5".toList "x1".toList ∧
      ¬WholeIn IsName "2.50x1^-.5".toList "x".toList ∧
      ∃ literal whole fraction, WholeIn IsToken "2.50x1^-.5".toList literal ∧
        WrittenWith literal whole fraction ∧
        ((-1 / 2 : ℚ) = decimalValue whole fraction ∨
          (-1 / 2 : ℚ) = -decimalValue whole fraction) := by
  intro e
  have hparse : parse "2.50x1^-.5" = .ok e := by decide +kernel
  obtain ⟨-, hnames, hnumbers⟩ := tokens_of_parse "2.50x1^-.5" e hparse
  obtain ⟨literal, whole, fraction, hwhole, hwritten, hvalue, -⟩ :=
    hnumbers (-1 / 2) (by simp [e, parts])
  refine ⟨hparse, (hnames "x1").mp (by decide), ?_, literal, whole, fraction, hwhole, hwritten,
    hvalue⟩
  rw [← hnames "x"]
  decide

end EquationPractice
