import EquationPractice.Exercise.Basic
import EquationPractice.Proofs.Exercise.TypedNumber
import EquationPractice.Proofs.Rule.StandardForms

/-!
# The forms of typed numbers

The three forms in which an answer may be typed are exactly those of typed numbers, in digits of any
script.  No typed number in ASCII digits has two operators in a row.

## Main definitions

* `sideShape`: what a side of a quotient takes, and where it may stand.
-/

namespace EquationPractice

open Text StandardForm Regex

variable {before taken after : List Char}

/-! ## Pieces -/

theorem hasShape_leftEdge : leftEdge.HasShape fun before taken _ =>
    taken = [] ∧ HeadFree leftNeighbours.contains before.reverse :=
  hasShape_notBehind_one leftNeighbours

theorem hasShape_rightEdge : rightEdge.HasShape fun _ taken after =>
    taken = [] ∧ HeadFree (· == '.') after :=
  hasShape_notAhead_one (.single '.')

theorem hasShape_digitRun : digitRun.HasShape fun _ taken _ => IsRun isDecimalDigit taken := by
  refine (hasShape_many .digit 1 true false).congr fun before taken after => ?_
  refine and_congr_left fun _ => ?_
  rw [← List.length_pos_iff]
  rfl

theorem hasShape_sign : signRegex.HasShape fun _ taken _ => ∃ sign : Sign, taken = [sign.char] := by
  refine ((hasShape_single '+').alt (hasShape_single '-')).congr fun before taken after => ?_
  constructor
  · rintro (rfl | rfl)
    · exact ⟨.plus, rfl⟩
    · exact ⟨.minus, rfl⟩
  · rintro ⟨sign, rfl⟩
    cases sign with
    | plus => exact Or.inl rfl
    | minus => exact Or.inr rfl

theorem not_leftNeighbour_sign (sign : Sign) : leftNeighbours.contains sign.char = false := by
  cases sign <;> decide

/-! ## Sides of a quotient -/

/-- Where an integer may stand: no letter, digit or point right before it, no point right after. -/
structure Detached (before after : List Char) : Prop where
  left : HeadFree leftNeighbours.contains before.reverse
  right : HeadFree (· == '.') after

theorem hasShape_bareInteger : (inSequence bareInteger).HasShape fun before taken after =>
    IsRun isDecimalDigit taken ∧ Detached before after := by
  have hright : (inSequence [digitRun, rightEdge]).HasShape _ :=
    HasShape.cons hasShape_digitRun hasShape_rightEdge
  have hall : (inSequence bareInteger).HasShape _ := HasShape.cons hasShape_leftEdge hright
  refine hall.congr fun before taken after => ?_
  constructor
  · rintro ⟨first, second, rfl, ⟨rfl, hleft⟩, digits, last, rfl, hrun, rfl, hright⟩
    simp only [List.nil_append, List.append_nil] at hrun ⊢
    exact ⟨hrun, hleft, hright⟩
  · rintro ⟨hrun, hleft, hright⟩
    exact ⟨[], taken, rfl, ⟨rfl, hleft⟩, taken, [], by simp, hrun, rfl, hright⟩

theorem hasShape_enclosedInteger : (inSequence enclosedInteger).HasShape fun _ taken _ =>
    ∃ sign digits, IsRun isDecimalDigit digits ∧
      taken = (TypedSide.enclosed sign digits).chars := by
  -- from the back: the closing parenthesis, the digits, the sign, the opening parenthesis
  have hclosed : (inSequence (bareInteger ++ [one (.single ')')])).HasShape _ :=
    HasShape.append hasShape_bareInteger (hasShape_single ')')
  have hsigned : (inSequence (signRegex :: (bareInteger ++ [one (.single ')')]))).HasShape _ :=
    HasShape.cons hasShape_sign hclosed
  have hall : (inSequence enclosedInteger).HasShape _ :=
    HasShape.cons (hasShape_single '(') hsigned
  refine hall.congr fun before taken after => ?_
  constructor
  · rintro ⟨_, _, rfl, rfl, _, _, rfl, ⟨sign, rfl⟩, digits, _, rfl, ⟨hrun, -⟩, rfl⟩
    exact ⟨sign, digits, hrun, rfl⟩
  · rintro ⟨sign, digits, hrun, rfl⟩
    -- a sign stands before the digits, and it is no left neighbour
    have hleft : HeadFree leftNeighbours.contains (before ++ ['('] ++ [sign.char]).reverse := by
      simp [not_leftNeighbour_sign]
    exact ⟨['('], _, rfl, rfl, [sign.char], _, rfl, ⟨sign, rfl⟩, digits, [')'], rfl,
      ⟨hrun, hleft, by simp⟩, rfl⟩

/-- A side in parentheses may stand anywhere, one without them where an integer may stand. -/
def TypedSide.Fits (before after : List Char) : TypedSide → Prop
  | .bare _ => Detached before after
  | .enclosed _ _ => True

/-- What a side of a quotient takes. -/
def sideShape (enclosed : Bool) : Shape := fun before taken after =>
  ∃ side : TypedSide, side.isEnclosed = enclosed ∧ IsRun isDecimalDigit side.digits ∧
    side.Fits before after ∧ taken = side.chars

/-- The pattern of a side of a quotient. -/
def sideRegex : Bool → List Regex
  | false => bareInteger
  | true => enclosedInteger

theorem hasShape_sideRegex (enclosed : Bool) :
    (inSequence (sideRegex enclosed)).HasShape (sideShape enclosed) := by
  cases enclosed with
  | false =>
      refine hasShape_bareInteger.congr fun before taken after => ?_
      constructor
      · rintro ⟨hrun, hdetached⟩
        exact ⟨.bare taken, rfl, hrun, hdetached, rfl⟩
      · rintro ⟨side, hside, hrun, hfits, rfl⟩
        cases side with
        | bare digits => exact ⟨hrun, hfits⟩
        | enclosed sign digits => exact absurd hside (by simp [TypedSide.isEnclosed])
  | true =>
      refine hasShape_enclosedInteger.congr fun before taken after => ?_
      constructor
      · rintro ⟨sign, digits, hrun, rfl⟩
        exact ⟨.enclosed sign digits, rfl, hrun, trivial, rfl⟩
      · rintro ⟨side, hside, hrun, -, rfl⟩
        cases side with
        | bare digits => exact absurd hside (by simp [TypedSide.isEnclosed])
        | enclosed sign digits => exact ⟨sign, digits, hrun, rfl⟩

theorem hasShape_quotient (first second : Bool) :
    (quotient (sideRegex first) (sideRegex second)).HasShape
      ((sideShape first).andThen (Shape.andThen (fun _ taken _ => taken = ['/'])
        (sideShape second))) :=
  (hasShape_sideRegex first).append
    (HasShape.cons (hasShape_single '/') (hasShape_sideRegex second))

/-! ## Forms as wholes -/

/-- A whole text matches the signed variant of a rule when what follows an optional sign has the
shape of the rule. -/
theorem matchesSigned_iff {rule : Rule} {shape : Shape} (hshape : rule.regex.HasShape shape)
    {text : String} : rule.matchesSigned text = true ↔ ∃ sign body,
      text.toList = Sign.optionalChars sign ++ body ∧ shape (Sign.optionalChars sign) body [] := by
  have hsigned : rule.signedRegex.HasShape _ := hasShape_sign.optional.seq hshape
  unfold Rule.matchesSigned
  rw [hsigned.matchesWhole]
  constructor
  · rintro ⟨_, body, htext, rfl | ⟨sign, rfl⟩, hbody⟩
    · exact ⟨none, body, htext, hbody⟩
    · exact ⟨some sign, body, htext, hbody⟩
  · rintro ⟨sign, body, htext, hbody⟩
    refine ⟨Sign.optionalChars sign, body, htext, ?_, hbody⟩
    cases sign with
    | none => exact Or.inl rfl
    | some sign => exact Or.inr ⟨sign, rfl⟩

theorem headFree_optionalChars (sign : Option Sign) :
    HeadFree leftNeighbours.contains (Sign.optionalChars sign).reverse := by
  cases sign with
  | none => simp [Sign.optionalChars]
  | some sign => simp [Sign.optionalChars, not_leftNeighbour_sign]

variable {text : String}

theorem matchesSigned_integer : integer.writtenRule.matchesSigned text = true ↔
    ∃ sign digits, IsRun isDecimalDigit digits ∧
      text.toList = TypedNumber.chars ⟨sign, .integer digits⟩ := by
  have hshape : integer.writtenRule.regex.HasShape _ := hasShape_bareInteger
  rw [matchesSigned_iff hshape]
  constructor
  · rintro ⟨sign, digits, htext, hrun, -⟩
    exact ⟨sign, digits, hrun, htext⟩
  · rintro ⟨sign, digits, hrun, htext⟩
    exact ⟨sign, digits, htext, hrun, headFree_optionalChars sign, headFree_nil⟩

theorem matchesSigned_decimal : decimal.writtenRule.matchesSigned text = true ↔
    ∃ sign whole fraction, IsRun isDecimalDigit whole ∧ IsRun isDecimalDigit fraction ∧
      text.toList = TypedNumber.chars ⟨sign, .decimal whole fraction⟩ := by
  have hshape : decimal.writtenRule.regex.HasShape _ := HasShape.cons hasShape_leftEdge <|
    HasShape.cons hasShape_digitRun <| HasShape.cons (hasShape_single '.')
      (show (inSequence [digitRun]).HasShape _ from hasShape_digitRun)
  rw [matchesSigned_iff hshape]
  constructor
  · rintro ⟨sign, _, htext, _, _, rfl, ⟨rfl, -⟩, whole, _, rfl, hwhole, _, fraction, rfl, rfl,
      hfraction⟩
    exact ⟨sign, whole, fraction, hwhole, hfraction, htext⟩
  · rintro ⟨sign, whole, fraction, hwhole, hfraction, htext⟩
    exact ⟨sign, _, htext, [], _, rfl, ⟨rfl, headFree_optionalChars sign⟩, whole, _, rfl, hwhole,
      ['.'], fraction, rfl, rfl, hfraction⟩

theorem TypedSide.fits (side : TypedSide) (hdetached : Detached before after) :
    side.Fits before after := by
  cases side with
  | bare digits => exact hdetached
  | enclosed sign digits => trivial

/-- After an optional sign, a quotient takes all that is left when its sides are of the given
kinds. -/
theorem quotient_whole {sign : Option Sign} {body : List Char} {first second : Bool} :
    (sideShape first).andThen (Shape.andThen (fun _ taken _ => taken = ['/']) (sideShape second))
        (Sign.optionalChars sign) body [] ↔
      ∃ top bottom : TypedSide, top.isEnclosed = first ∧ bottom.isEnclosed = second ∧
        IsRun isDecimalDigit top.digits ∧ IsRun isDecimalDigit bottom.digits ∧
        body = top.chars ++ '/' :: bottom.chars := by
  constructor
  · rintro ⟨_, _, rfl, ⟨top, hfirst, htop, -, rfl⟩, _, _, rfl, rfl, bottom, hsecond, hbottom, -,
      rfl⟩
    exact ⟨top, bottom, hfirst, hsecond, htop, hbottom, rfl⟩
  · rintro ⟨top, bottom, hfirst, hsecond, htop, hbottom, rfl⟩
    refine ⟨_, _, rfl, ⟨top, hfirst, htop, top.fits ?_, rfl⟩, ['/'], _, rfl, rfl, bottom, hsecond,
      hbottom, bottom.fits ?_, rfl⟩
    · exact ⟨headFree_optionalChars sign, by simp⟩
    · exact ⟨by simp; decide, headFree_nil⟩

theorem matchesSigned_quotient : signedFraction.writtenRule.matchesSigned text = true ↔
    ∃ sign top bottom, IsRun isDecimalDigit top.digits ∧ IsRun isDecimalDigit bottom.digits ∧
      text.toList = TypedNumber.chars ⟨sign, .quotient top bottom⟩ := by
  have hshape : signedFraction.writtenRule.regex.HasShape _ :=
    (hasShape_quotient false false).alt <| (hasShape_quotient true false).alt <|
      (hasShape_quotient false true).alt (hasShape_quotient true true)
  rw [matchesSigned_iff hshape]
  simp only [quotient_whole]
  constructor
  · rintro ⟨sign, body, htext, hbody⟩
    rcases hbody with ⟨top, bottom, -, -, htop, hbottom, rfl⟩ |
      ⟨top, bottom, -, -, htop, hbottom, rfl⟩ | ⟨top, bottom, -, -, htop, hbottom, rfl⟩ |
      ⟨top, bottom, -, -, htop, hbottom, rfl⟩
    all_goals exact ⟨sign, top, bottom, htop, hbottom, htext⟩
  · rintro ⟨sign, top, bottom, htop, hbottom, htext⟩
    refine ⟨sign, _, htext, ?_⟩
    -- which alternative matches depends on the parentheses alone
    cases hfirst : top.isEnclosed with
    | false =>
        cases hsecond : bottom.isEnclosed with
        | false => exact Or.inl ⟨top, bottom, hfirst, hsecond, htop, hbottom, rfl⟩
        | true => exact Or.inr (Or.inr (Or.inl ⟨top, bottom, hfirst, hsecond, htop, hbottom, rfl⟩))
    | true =>
        cases hsecond : bottom.isEnclosed with
        | false => exact Or.inr (Or.inl ⟨top, bottom, hfirst, hsecond, htop, hbottom, rfl⟩)
        | true => exact Or.inr (Or.inr (Or.inr ⟨top, bottom, hfirst, hsecond, htop, hbottom, rfl⟩))

/-- A text has one of the permitted forms when it writes a number in digits of any script. -/
theorem permitsForm_iff {judge : Judge}
    (hforms : judge.forms = Exercise.permittedForms.map writtenRule) :
    judge.permitsForm text = true ↔
      ∃ number : TypedNumber, number.WrittenIn isDecimalDigit ∧ text.toList = number.chars := by
  have hiff : judge.permitsForm text = true ↔ decimal.writtenRule.matchesSigned text = true ∨
      integer.writtenRule.matchesSigned text = true ∨
        signedFraction.writtenRule.matchesSigned text = true := by
    simp [Judge.permitsForm, hforms, Exercise.permittedForms]
  rw [hiff, matchesSigned_decimal, matchesSigned_integer, matchesSigned_quotient]
  constructor
  · rintro (⟨sign, whole, fraction, hwhole, hfraction, htext⟩ | ⟨sign, digits, hrun, htext⟩ |
      ⟨sign, top, bottom, htop, hbottom, htext⟩)
    · exact ⟨_, by simpa [TypedNumber.WrittenIn, TypedBody.runs] using ⟨hwhole, hfraction⟩, htext⟩
    · exact ⟨_, by simpa [TypedNumber.WrittenIn, TypedBody.runs] using hrun, htext⟩
    · exact ⟨_, by simpa [TypedNumber.WrittenIn, TypedBody.runs] using ⟨htop, hbottom⟩, htext⟩
  · rintro ⟨⟨sign, body⟩, hwritten, htext⟩
    cases body with
    | integer digits =>
        exact Or.inr (Or.inl ⟨sign, digits, hwritten digits (by simp [TypedBody.runs]), htext⟩)
    | decimal whole fraction =>
        exact Or.inl ⟨sign, whole, fraction, hwritten whole (by simp [TypedBody.runs]),
          hwritten fraction (by simp [TypedBody.runs]), htext⟩
    | quotient top bottom =>
        exact Or.inr (Or.inr ⟨sign, top, bottom, hwritten top.digits (by simp [TypedBody.runs]),
          hwritten bottom.digits (by simp [TypedBody.runs]), htext⟩)

/-! ## Operators in a row -/

/-- No two operators stand in a row. -/
def NoneInRow (cs : List Char) : Prop :=
  cs.IsChain fun first second => operators.contains first = true → operators.contains second = false

/-- A text in which no two operators stand in a row has no match of the rule against them. -/
theorem not_isFoundIn_of_noneInRow (hnone : NoneInRow text.toList) :
    adjacentOperators.writtenRule.isFoundIn text = false := by
  have hshape : adjacentOperators.writtenRule.regex.HasShape _ :=
    hasShape_times operators 2 true true
  unfold Rule.isFoundIn
  rw [Bool.eq_false_iff, Ne, hshape.isFoundIn]
  rintro ⟨before, taken, after, htext, hlength, hall⟩
  obtain ⟨first, second, rfl⟩ := List.length_eq_two.mp hlength
  -- a match takes two operators in a row out of the text
  have hpair : [first, second].IsChain _ :=
    List.IsChain.infix hnone ⟨before, after, by simp [htext]⟩
  have hnot := List.isChain_pair.mp hpair (hall first (by simp))
  rw [hall second (by simp)] at hnot
  exact absurd hnot (by simp)

end EquationPractice
