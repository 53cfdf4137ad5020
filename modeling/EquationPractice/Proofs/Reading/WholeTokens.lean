import EquationPractice.Proofs.Reading.Derived

/-!
# The tokens of a text

Where a reader finds the tokens of a text depends on where it looks.  The text itself knows its
tokens without a reader: they are the literals and names in it that are not parts of longer ones.
For a text that is cut up into tokens and other characters, with no literal right behind a token,
these are the tokens of the cut and no others.

## Strategy

No token reaches over the end of a token of the cut (`not_isToken_across`).  It would have to be a
name, since of the characters of tokens only a letter or an underscore can stand there.  Then the
token of the cut is a name as well, and goes on with that character.  So whatever token of the text
shares a character with a token of the cut lies inside of it.

## Main definitions

* `IsToken`: a literal or a name.
* `WholeIn`: a token in a text that is not a part of a longer one.
* `Lexed`: a text cut up into tokens and other characters, with the leaves that the tokens write.
-/

namespace EquationPractice

variable {token : List Char → Prop} {text cs next rest front back left right more : List Char}
  {leaf : Expr} {leaves : List Expr} {q : ℚ} {c : Char}

/-! ## Tokens -/

/-- A literal or a name. -/
def IsToken (cs : List Char) : Prop :=
  IsName cs ∨ ∃ q, IsLiteral cs q

/-- A character that a literal may begin with. -/
def startsLiteral (c : Char) : Bool :=
  c.isDigit || c == '.'

theorem isTokenChar_of_startsLiteral (hc : startsLiteral c = true) : isTokenChar c = true := by
  simp only [startsLiteral, Bool.or_eq_true, beq_iff_eq] at hc
  rcases hc with hdigit | rfl
  · simp [isTokenChar, continuesName_of_isDigit hdigit]
  · decide

theorem not_startsLiteral_of_startsName (hc : startsName c = true) : startsLiteral c = false := by
  have hpoint : c ≠ '.' := by
    rintro rfl
    exact absurd hc (by decide)
  simp [startsLiteral, not_isDigit_of_startsName hc, hpoint]

theorem IsLiteral.startsLiteral (hvalue : IsLiteral cs q) :
    ∀ c ∈ cs, EquationPractice.startsLiteral c = true := by
  intro c hc
  simpa [EquationPractice.startsLiteral] using hvalue.digit_or_point c hc

theorem IsName.headFree_startsLiteral (hname : IsName cs) : HeadFree startsLiteral cs := by
  cases cs with
  | nil => exact headFree_nil
  | cons c tail => exact headFree_cons.mpr (not_startsLiteral_of_startsName hname.1)

/-- The first character of a literal is a digit or a point. -/
theorem IsLiteral.not_headFree (hvalue : IsLiteral cs q) :
    ¬HeadFree EquationPractice.startsLiteral cs := by
  cases cs with
  | nil => exact absurd rfl hvalue.ne_nil
  | cons c tail => simp [hvalue.startsLiteral c List.mem_cons_self]

theorem headFree_append_of_ne_nil {p : Char → Bool} (hne : cs ≠ []) :
    HeadFree p (cs ++ rest) ↔ HeadFree p cs := by
  cases cs with
  | nil => exact absurd rfl hne
  | cons c tail => simp

namespace IsToken

theorem ne_nil (htoken : IsToken cs) : cs ≠ [] := by
  rcases htoken with hname | ⟨q, hvalue⟩
  · exact hname.ne_nil
  · exact hvalue.ne_nil

theorem isTokenChar (htoken : IsToken cs) : ∀ c ∈ cs, EquationPractice.isTokenChar c = true := by
  rcases htoken with hname | ⟨q, hvalue⟩
  · exact hname.isTokenChar
  · exact hvalue.isTokenChar

/-- A token with a character that no literal begins with is a name. -/
theorem isName (htoken : IsToken cs) (hmem : c ∈ cs) (hc : startsLiteral c = false) :
    IsName cs := by
  refine htoken.resolve_right ?_
  rintro ⟨q, hvalue⟩
  exact absurd (hvalue.startsLiteral c hmem) (by simp [hc])

end IsToken

/-! ## Maximal tokens -/

/-- A maximal literal is a maximal token: no name begins like a literal. -/
theorem maximal_token_of_literal
    (hmaximal : Maximal (fun token => ∃ value, IsLiteral token value) cs next) :
    Maximal IsToken cs next := by
  refine ⟨Or.inr hmaximal.isToken, fun more rest hnext hlong => ?_⟩
  obtain ⟨q, hvalue⟩ := hmaximal.isToken
  rcases hlong with hname | hliteral
  · have hfree := (headFree_append_of_ne_nil hvalue.ne_nil).mp hname.headFree_startsLiteral
    exact absurd hfree hvalue.not_headFree
  · exact hmaximal.longest more rest hnext hliteral

/-- A maximal name is a maximal token: no literal begins like a name. -/
theorem maximal_token_of_name (hmaximal : Maximal IsName cs next) : Maximal IsToken cs next := by
  refine ⟨Or.inl hmaximal.isToken, fun more rest hnext hlong => ?_⟩
  have hname := hmaximal.isToken
  rcases hlong with hlong | ⟨q, hvalue⟩
  · exact hmaximal.longest more rest hnext hlong
  · have hfree := hname.headFree_startsLiteral
    rw [← headFree_append_of_ne_nil hname.ne_nil] at hfree
    exact absurd hfree hvalue.not_headFree

/-- No token reaches over the end of a maximal one behind which no literal begins. -/
theorem not_isToken_across (hmaximal : Maximal IsToken cs next)
    (hends : HeadFree startsLiteral next) (hleft : left <:+ cs) (hright : right <+: next)
    (hne : left ≠ []) (hover : right ≠ []) : ¬IsToken (left ++ right) := by
  intro htoken
  obtain ⟨c, first, rfl⟩ := List.exists_cons_of_ne_nil hne
  obtain ⟨d, tail, rfl⟩ := List.exists_cons_of_ne_nil hover
  obtain ⟨rest, hnext⟩ := hright
  rw [← hnext, List.cons_append, headFree_cons] at hends
  -- the token is a name, and so is the one in which it begins
  have hname := htoken.isName (by simp) hends
  have hc : c ∈ cs := hleft.subset List.mem_cons_self
  have hcs := hmaximal.isToken.isName hc (not_startsLiteral_of_startsName hname.1)
  have hlonger : IsName (cs ++ [d]) := hcs.concat (hname.continuesName d (by simp))
  have hnil := hmaximal.longest [d] (tail ++ rest) (by simpa using hnext.symm) (Or.inl hlonger)
  exact absurd hnil (by simp)

/-! ## Whole tokens -/

/-- What stands between the two texts is a token, and no token there is longer. -/
structure WholeBetween (token : List Char → Prop) (front cs back : List Char) : Prop where
  isToken : token cs
  longest : ∀ left right, left <:+ front → right <+: back → token (left ++ (cs ++ right)) →
    left = [] ∧ right = []

/-- A token stands somewhere in the text, and not as a part of a longer one. -/
def WholeIn (token : List Char → Prop) (text cs : List Char) : Prop :=
  ∃ front back, text = front ++ (cs ++ back) ∧ WholeBetween token front cs back

/-- A token that is whole is so wherever less stands in front of it. -/
theorem WholeBetween.suffix (hwhole : WholeBetween token (more ++ front) cs back) :
    WholeBetween token front cs back :=
  ⟨hwhole.isToken, fun left right hleft =>
    hwhole.longest left right (hleft.trans (List.suffix_append more front))⟩

/-- A token that is whole is so behind other characters as well, unless a longer one begins in
them. -/
theorem WholeBetween.behind (hwhole : WholeBetween token front cs back)
    (hnone : ∀ left right, left <:+ more → left ≠ [] → right <+: back →
      ¬token (left ++ (front ++ (cs ++ right)))) : WholeBetween token (more ++ front) cs back := by
  refine ⟨hwhole.isToken, fun left right hleft hright htoken => ?_⟩
  rcases List.suffix_or_suffix_of_suffix hleft (List.suffix_append more front) with
    hshort | ⟨reaching, rfl⟩
  · exact hwhole.longest left right hshort hright htoken
  · obtain ⟨before, hmore⟩ := hleft
    rw [← List.append_assoc, List.append_left_inj] at hmore
    rw [List.append_assoc] at htoken
    rcases eq_or_ne reaching [] with rfl | hne
    · exact hwhole.longest _ right (List.suffix_refl _) hright htoken
    · exact absurd htoken (hnone reaching right ⟨before, hmore⟩ hne hright)

/-- A whole token that begins inside of a maximal one is that one. -/
theorem WholeBetween.eq_of_overlap (hwhole : WholeBetween IsToken front cs back)
    (hmaximal : Maximal IsToken (front ++ more) rest) (hends : HeadFree startsLiteral rest)
    (htext : cs ++ back = more ++ rest) (hne : more ≠ []) : front ++ more = cs := by
  have hinside : ∃ beyond, more = cs ++ beyond ∧ back = beyond ++ rest := by
    rcases List.append_eq_append_iff.mp htext with hinside | ⟨beyond, rfl, hrest⟩
    · exact hinside
    · rcases eq_or_ne beyond [] with rfl | hover
      · exact ⟨[], by simp, by simpa using hrest.symm⟩
      · have hprefix : beyond <+: rest := hrest ▸ List.prefix_append beyond back
        exact absurd hwhole.isToken (not_isToken_across hmaximal hends
          (List.suffix_append front more) hprefix hne hover)
  obtain ⟨beyond, rfl, rfl⟩ := hinside
  obtain ⟨rfl, rfl⟩ := hwhole.longest front beyond (List.suffix_refl _) (List.prefix_append _ _)
    hmaximal.isToken
  simp

/-- A name in a text that is not a part of a longer name is not a part of a literal either. -/
theorem WholeBetween.of_name (hwhole : WholeBetween IsName front cs back) :
    WholeBetween IsToken front cs back := by
  refine ⟨Or.inl hwhole.isToken, fun left right hleft hright htoken => ?_⟩
  obtain ⟨c, tail, rfl⟩ := List.exists_cons_of_ne_nil hwhole.isToken.ne_nil
  have hc := not_startsLiteral_of_startsName hwhole.isToken.1
  exact hwhole.longest left right hleft hright (htoken.isName (by simp) hc)

theorem WholeBetween.name (hwhole : WholeBetween IsToken front cs back) (hname : IsName cs) :
    WholeBetween IsName front cs back :=
  ⟨hname, fun left right hleft hright hlong =>
    hwhole.longest left right hleft hright (Or.inl hlong)⟩

/-- Among names, a name is whole in a text if and only if it is among all tokens. -/
theorem wholeIn_isName : WholeIn IsName text cs ↔ WholeIn IsToken text cs ∧ IsName cs := by
  constructor
  · rintro ⟨front, back, htext, hwhole⟩
    exact ⟨⟨front, back, htext, hwhole.of_name⟩, hwhole.isToken⟩
  · rintro ⟨⟨front, back, htext, hwhole⟩, hname⟩
    exact ⟨front, back, htext, hwhole.name hname⟩

/-! ## Texts that are cut up -/

/-- A token and a leaf that it writes.  A name writes a variable, and a literal its number with
either sign. -/
inductive Writes : List Char → Expr → Prop
  | name {cs : List Char} (hname : IsName cs) : Writes cs (.var (String.ofList cs))
  | literal {cs : List Char} {q : ℚ} (hvalue : IsLiteral cs q) : Writes cs (.number q)
  | opposite {cs : List Char} {q : ℚ} (hvalue : IsLiteral cs q) : Writes cs (.number (-q))

theorem Writes.isToken (hwrites : Writes cs leaf) : IsToken cs := by
  cases hwrites with
  | name hname => exact Or.inl hname
  | literal hvalue | opposite hvalue => exact Or.inr ⟨_, hvalue⟩

/-- The text is cut up into tokens and characters that belong to none.  No token can be made longer,
and no literal begins right behind one.  The tokens write these leaves, from left to right. -/
inductive Lexed : List Char → List Expr → Prop
  | nil : Lexed [] []
  | other {c : Char} {rest : List Char} {leaves : List Expr} (hc : isTokenChar c = false)
      (hrest : Lexed rest leaves) : Lexed (c :: rest) leaves
  | token {cs rest : List Char} {leaf : Expr} {leaves : List Expr} (hwrites : Writes cs leaf)
      (hmaximal : Maximal IsToken cs rest) (hends : HeadFree startsLiteral rest)
      (hrest : Lexed rest leaves) : Lexed (cs ++ rest) (leaf :: leaves)

namespace Lexed

theorem others (hcs : ∀ c ∈ cs, isTokenChar c = false) (hrest : Lexed rest leaves) :
    Lexed (cs ++ rest) leaves := by
  induction cs with
  | nil => exact hrest
  | cons c tail ih =>
      have htail := ih fun d hd => hcs d (List.mem_cons_of_mem _ hd)
      exact .other (hcs c List.mem_cons_self) htail

/-- Every leaf is written by a token that is whole in the text. -/
theorem exists_wholeIn (hlexed : Lexed text leaves) (hmem : leaf ∈ leaves) :
    ∃ cs, Writes cs leaf ∧ WholeIn IsToken text cs := by
  induction hlexed with
  | nil => exact absurd hmem List.not_mem_nil
  | @other c rest leaves hc _ ih =>
      obtain ⟨cs, hwrites, front, back, rfl, hwhole⟩ := ih hmem
      refine ⟨cs, hwrites, [c] ++ front, back, rfl, hwhole.behind ?_⟩
      intro left right hleft hne _ hlong
      -- the character belongs to no token
      rcases List.suffix_cons_iff.mp hleft with rfl | hnil
      · exact absurd (hlong.isTokenChar c (by simp)) (by simp [hc])
      · exact hne (List.suffix_nil.mp hnil)
  | @token ds rest other leaves hwrites hmaximal hends _ ih =>
      rcases List.mem_cons.mp hmem with rfl | hmem
      · refine ⟨ds, hwrites, [], rest, rfl, hwrites.isToken, ?_⟩
        intro left right hleft hright hlong
        obtain rfl := List.suffix_nil.mp hleft
        obtain ⟨behind, hrest⟩ := hright
        exact ⟨rfl, hmaximal.longest right behind hrest.symm hlong⟩
      · obtain ⟨cs, hwrites', front, back, rfl, hwhole⟩ := ih hmem
        refine ⟨cs, hwrites', ds ++ front, back, by simp, hwhole.behind ?_⟩
        intro left right hleft hne hright
        have hover : front ++ (cs ++ right) ≠ [] := by simp [hwhole.isToken.ne_nil]
        have hprefix : front ++ (cs ++ right) <+: front ++ (cs ++ back) := by
          simpa [List.prefix_append_right_inj] using hright
        exact not_isToken_across hmaximal hends hleft hprefix hne hover

/-- Every token that is whole in the text writes a leaf. -/
theorem exists_writes (hlexed : Lexed text leaves) (hwhole : WholeIn IsToken text cs) :
    ∃ leaf ∈ leaves, Writes cs leaf := by
  obtain ⟨front, back, htext, hwhole⟩ := hwhole
  induction hlexed generalizing front with
  | nil => simp [hwhole.isToken.ne_nil] at htext
  | @other c rest leaves hc _ ih =>
      cases front with
      | nil =>
          obtain ⟨d, tail, rfl⟩ := List.exists_cons_of_ne_nil hwhole.isToken.ne_nil
          obtain ⟨rfl, -⟩ : c = d ∧ _ := by simpa using htext
          exact absurd (hwhole.isToken.isTokenChar c List.mem_cons_self) (by simp [hc])
      | cons d front =>
          obtain ⟨-, hrest⟩ := List.cons.inj htext
          have hwhole' : WholeBetween IsToken ([d] ++ front) cs back := hwhole
          exact ih front hrest hwhole'.suffix
  | @token ds rest leaf leaves hwrites hmaximal hends _ ih =>
      have hlater : ∀ front, rest = front ++ (cs ++ back) → WholeBetween IsToken front cs back →
          ∃ other ∈ leaf :: leaves, Writes cs other := by
        intro front hrest hwhole
        obtain ⟨other, hmem, hwrites'⟩ := ih front hrest hwhole
        exact ⟨other, List.mem_cons_of_mem _ hmem, hwrites'⟩
      rcases List.append_eq_append_iff.mp htext with ⟨more, rfl, hrest⟩ | ⟨more, rfl, hrest⟩
      · exact hlater more hrest hwhole.suffix
      · rcases eq_or_ne more [] with rfl | hne
        · exact hlater [] hrest.symm (WholeBetween.suffix (by simpa using hwhole))
        · obtain rfl := hwhole.eq_of_overlap hmaximal hends hrest hne
          exact ⟨leaf, List.mem_cons_self, hwrites⟩

end Lexed

end EquationPractice
