import EquationPractice.Proofs.Reading.Recognition

/-!
# What derived texts are like

Facts about every text that the grammar derives: which characters it is made of, that its
parentheses are balanced, and that it does not matter what stands behind it, as long as nothing there
could be a part of its last token.

## Main definitions

* `isPhraseChar`: the characters of expressions.
* `EndsAlike`: two texts behind which, or in front of which, the same tokens end.
* `Balanced`: a text that leaves no parenthesis open.
-/

namespace EquationPractice

open Text

variable {layer : Layer} {cs ds next other : List Char} {e : Expr}

/-! ## Characters -/

/-- A character of a literal or a name. -/
def isTokenChar (c : Char) : Bool :=
  continuesName c || c == '.'

/-- A character that an expression may hold. -/
def isPhraseChar (c : Char) : Bool :=
  isGap c || isTokenChar c || c ∈ ['+', '-', '*', '/', '^', '(', ')']

theorem isPhraseChar_of_isGap {c : Char} (hgap : isGap c = true) : isPhraseChar c = true := by
  simp [isPhraseChar, hgap]

theorem isPhraseChar_of_isTokenChar {c : Char} (htoken : isTokenChar c = true) :
    isPhraseChar c = true := by
  simp [isPhraseChar, htoken]

theorem IsLiteral.isTokenChar {q : ℚ} (hvalue : IsLiteral cs q) :
    ∀ c ∈ cs, isTokenChar c = true := by
  intro c hc
  rcases hvalue.digit_or_point c hc with hdigit | rfl
  · simp [EquationPractice.isTokenChar, continuesName_of_isDigit hdigit]
  · decide

theorem IsName.isTokenChar (hname : IsName cs) : ∀ c ∈ cs, isTokenChar c = true := by
  intro c hc
  simp [EquationPractice.isTokenChar, hname.continuesName c hc]

theorem Signs.isPhraseChar {f : Expr} (hrun : Signs cs e f) : ∀ c ∈ cs, isPhraseChar c = true := by
  induction hrun with
  | none => simp
  | plus hgaps _ ih | minus hgaps _ ih =>
      simp only [List.forall_mem_append, List.forall_mem_cons]
      exact ⟨fun c hc => isPhraseChar_of_isGap (hgaps c hc), by decide, ih⟩

theorem Derives.isPhraseChar (hderives : Derives layer cs next e) :
    ∀ c ∈ cs, isPhraseChar c = true := by
  have hgap : ∀ {gaps : List Char}, Gaps gaps → ∀ c ∈ gaps, EquationPractice.isPhraseChar c = true :=
    fun hgaps c hc => isPhraseChar_of_isGap (hgaps c hc)
  induction hderives with
  | literal hgaps hvalue _ =>
      exact List.forall_mem_append.mpr ⟨hgap hgaps, fun c hc =>
        isPhraseChar_of_isTokenChar (hvalue.isTokenChar c hc)⟩
  | name hgaps hmaximal =>
      exact List.forall_mem_append.mpr ⟨hgap hgaps, fun c hc =>
        isPhraseChar_of_isTokenChar (hmaximal.isToken.isTokenChar c hc)⟩
  | group hbefore hafter _ ih =>
      simp only [List.forall_mem_append, List.forall_mem_cons]
      exact ⟨hgap hbefore, by decide, ih, hgap hafter, by decide, by simp⟩
  | base _ ih | operand _ ih | product _ ih | summand _ ih => exact ih
  | pow hgaps _ hrun _ ihl ihr =>
      simp only [List.forall_mem_append, List.forall_mem_cons]
      exact ⟨ihl, hgap hgaps, by decide, hrun.isPhraseChar, ihr⟩
  | signed hrun _ ih => exact List.forall_mem_append.mpr ⟨hrun.isPhraseChar, ih⟩
  | mul hgaps _ _ ihl ihr | div hgaps _ _ ihl ihr | add hgaps _ _ ihl ihr | sub hgaps _ _ ihl ihr =>
      simp only [List.forall_mem_append, List.forall_mem_cons]
      exact ⟨ihl, hgap hgaps, by decide, ihr⟩
  | factor _ _ _ _ ihl ihr => exact List.forall_mem_append.mpr ⟨ihl, ihr⟩

/-- A blank in an expression is a gap. -/
theorem isGap_of_isPhraseChar {c : Char} (hphrase : isPhraseChar c = true)
    (hblank : isBlank c = true) : isGap c = true := by
  simp only [EquationPractice.isPhraseChar, isTokenChar, Bool.or_eq_true, beq_iff_eq,
    decide_eq_true_eq] at hphrase
  rcases hphrase with (hgap | hname | rfl) | hoperator
  · exact hgap
  · exact absurd hblank (by simp [not_isBlank_of_continuesName hname])
  · exact absurd hblank (by decide)
  · simp only [List.mem_cons, List.not_mem_nil, or_false] at hoperator
    rcases hoperator with rfl | rfl | rfl | rfl | rfl | rfl | rfl
    all_goals exact absurd hblank (by decide)

theorem not_isBlank_of_isTokenChar {c : Char} (htoken : isTokenChar c = true) :
    isBlank c = false := by
  simp only [isTokenChar, Bool.or_eq_true, beq_iff_eq] at htoken
  rcases htoken with hname | rfl
  · exact not_isBlank_of_continuesName hname
  · decide

theorem not_isTokenChar_of_isBlank {c : Char} (hblank : isBlank c = true) :
    isTokenChar c = false := by
  rw [Bool.eq_false_iff]
  intro htoken
  exact absurd hblank (by simp [not_isBlank_of_isTokenChar htoken])

theorem exists_not_isBlank_of_token (hne : cs ≠ []) (htoken : ∀ c ∈ cs, isTokenChar c = true) :
    ∃ c ∈ cs, isBlank c = false := by
  obtain ⟨c, hc⟩ := List.exists_mem_of_ne_nil cs hne
  exact ⟨c, hc, not_isBlank_of_isTokenChar (htoken c hc)⟩

/-- A derived text is not blank: it holds a token or a parenthesis. -/
theorem Derives.exists_not_isBlank (hderives : Derives layer cs next e) :
    ∃ c ∈ cs, isBlank c = false := by
  have hleft : ∀ {before behind : List Char}, (∃ c ∈ before, isBlank c = false) →
      ∃ c ∈ before ++ behind, isBlank c = false :=
    fun ⟨c, hc, hblank⟩ => ⟨c, List.mem_append_left _ hc, hblank⟩
  have hright : ∀ {before behind : List Char}, (∃ c ∈ behind, isBlank c = false) →
      ∃ c ∈ before ++ behind, isBlank c = false :=
    fun ⟨c, hc, hblank⟩ => ⟨c, List.mem_append_right _ hc, hblank⟩
  induction hderives with
  | literal _ hvalue _ => exact hright (exists_not_isBlank_of_token hvalue.ne_nil hvalue.isTokenChar)
  | name _ hmaximal =>
      have hname := hmaximal.isToken
      refine hright (exists_not_isBlank_of_token ?_ hname.isTokenChar)
      rintro rfl
      exact hname
  | group => exact hright ⟨'(', List.mem_cons_self, by decide⟩
  | base _ ih | operand _ ih | product _ ih | summand _ ih => exact ih
  | signed _ _ ih => exact hright ih
  | pow _ _ _ _ ihl _ | mul _ _ _ ihl _ | div _ _ _ ihl _ | factor _ _ _ _ ihl _
  | add _ _ _ ihl _ | sub _ _ _ ihl _ => exact hleft ihl

theorem headFree_isTokenChar_of_blanks (hblanks : ∀ c ∈ cs, isBlank c = true) :
    HeadFree isTokenChar cs :=
  fun c hc => not_isTokenChar_of_isBlank (hblanks c (List.mem_of_mem_head? hc))

theorem Gaps.headFree_isTokenChar (hgaps : Gaps cs) : HeadFree isTokenChar cs :=
  headFree_isTokenChar_of_blanks fun c hc => isBlank_of_isGap (hgaps c hc)

/-! ## What stands behind -/

/-- The same tokens end in front of both texts: they begin alike, or the second one does not begin
like the continuation of any token. -/
def EndsAlike (next other : List Char) : Prop :=
  other.head? = next.head? ∨ HeadFree isTokenChar other

theorem endsAlike_append_cons (cs : List Char) (c : Char) (next other : List Char) :
    EndsAlike (cs ++ c :: next) (cs ++ c :: other) := by
  left
  cases cs with
  | nil => rfl
  | cons d rest => rfl

theorem EndsAlike.maximal {token : List Char → Prop} (halike : EndsAlike next other)
    (hmaximal : Maximal token cs next)
    (hshorter : ∀ c more, token (cs ++ c :: more) → token (cs ++ [c]) ∧ isTokenChar c = true) :
    Maximal token cs other := by
  refine ⟨hmaximal.isToken, fun more rest hother hlong => ?_⟩
  cases more with
  | nil => rfl
  | cons c tail =>
      obtain ⟨htoken, hchar⟩ := hshorter c tail hlong
      rw [hother] at halike
      rcases halike with hhead | hfree
      · obtain ⟨behind, hnext⟩ := List.head?_eq_some_iff.mp hhead.symm
        exact absurd (hmaximal.longest [c] behind hnext htoken) (by simp)
      · exact absurd hchar (by simp [headFree_cons.mp hfree])

theorem IsLiteral.shorter {q v : ℚ} {c : Char} {more : List Char} (hvalue : IsLiteral cs q)
    (hlong : IsLiteral (cs ++ c :: more) v) :
    (∃ value, IsLiteral (cs ++ [c]) value) ∧ EquationPractice.isTokenChar c = true := by
  refine ⟨?_, hlong.isTokenChar c (by simp)⟩
  cases hvalue with
  | whole hne hdigits =>
      rcases hlong.digit_or_point c (by simp) with hdigit | rfl
      · refine ⟨_, .whole (by simp) ?_⟩
        exact List.forall_mem_append.mpr ⟨hdigits, List.forall_mem_singleton.mpr hdigit⟩
      · exact ⟨_, .point (Or.inl hne) hdigits (by simp)⟩
  | @point whole fraction hne hwhole hfraction =>
      rw [List.append_assoc, List.cons_append] at hlong ⊢
      have hdigits := hlong.digits_of_point hwhole
      refine ⟨_, .point (Or.inr (by simp)) hwhole ?_⟩
      exact List.forall_mem_append.mpr ⟨hfraction, by simpa using hdigits c (by simp)⟩

theorem IsName.shorter {c : Char} {more : List Char} (hname : IsName cs)
    (hlong : IsName (cs ++ c :: more)) :
    IsName (cs ++ [c]) ∧ EquationPractice.isTokenChar c = true :=
  ⟨hname.concat (hlong.continuesName c (by simp)), hlong.isTokenChar c (by simp)⟩

theorem EndsAlike.maximal_literal (halike : EndsAlike next other)
    (hmaximal : Maximal (fun token => ∃ value, IsLiteral token value) cs next) :
    Maximal (fun token => ∃ value, IsLiteral token value) cs other :=
  halike.maximal hmaximal fun _ _ hlong =>
    hmaximal.isToken.elim fun _ hvalue => hlong.elim fun _ hlong => hvalue.shorter hlong

theorem EndsAlike.maximal_name (halike : EndsAlike next other) (hmaximal : Maximal IsName cs next) :
    Maximal IsName cs other :=
  halike.maximal hmaximal fun _ _ hlong => hmaximal.isToken.shorter hlong

/-- A token at the end of the text that ends in front of the first text behind it also ends in front
of the second one. -/
structure TokensEnd (cs next other : List Char) : Prop where
  literal : ∀ {front token}, cs = front ++ token →
    Maximal (fun token => ∃ value, IsLiteral token value) token next →
    Maximal (fun token => ∃ value, IsLiteral token value) token other
  name : ∀ {front token}, cs = front ++ token → Maximal IsName token next →
    Maximal IsName token other

theorem EndsAlike.tokensEnd (halike : EndsAlike next other) : TokensEnd cs next other where
  literal _ := halike.maximal_literal
  name _ := halike.maximal_name

theorem TokensEnd.suffix {front : List Char} (hends : TokensEnd (front ++ cs) next other) :
    TokensEnd cs next other where
  literal htext := hends.literal (by rw [htext, List.append_assoc])
  name htext := hends.name (by rw [htext, List.append_assoc])

/-- The right operand of a text ends like the text. -/
theorem TokensEnd.operand {gaps : List Char} {c : Char}
    (hends : TokensEnd (cs ++ (gaps ++ c :: ds)) next other) : TokensEnd ds next other := by
  have hright : TokensEnd ((cs ++ (gaps ++ [c])) ++ ds) next other := by simpa using hends
  exact hright.suffix

/-- What stands behind a derived text does not matter, as long as its last token ends there. -/
theorem Derives.behind_tokens (hderives : Derives layer cs next e)
    (hends : TokensEnd cs next other) : Derives layer cs other e := by
  induction hderives generalizing other with
  | literal hgaps hvalue hmaximal => exact .literal hgaps hvalue (hends.literal rfl hmaximal)
  | name hgaps hmaximal => exact .name hgaps (hends.name rfl hmaximal)
  | group hbefore hafter _ ih =>
      exact .group hbefore hafter (ih (endsAlike_append_cons ..).tokensEnd)
  | base _ ih => exact .base (ih hends)
  | pow hgaps _ hrun _ ihl ihr =>
      exact .pow hgaps (ihl (endsAlike_append_cons ..).tokensEnd) hrun (ihr hends.operand.suffix)
  | signed hrun _ ih => exact .signed hrun (ih hends.suffix)
  | operand _ ih => exact .operand (ih hends)
  | mul hgaps _ _ ihl ihr =>
      exact .mul hgaps (ihl (endsAlike_append_cons ..).tokensEnd) (ihr hends.operand)
  | div hgaps _ _ ihl ihr =>
      exact .div hgaps (ihl (endsAlike_append_cons ..).tokensEnd) (ihr hends.operand)
  | product _ ih => exact .product (ih hends)
  | factor _ hnumber hstart _ ihl ihr =>
      exact .factor (ihl (endsAlike_append_cons [] ..).tokensEnd) hnumber hstart (ihr hends.suffix)
  | summand _ ih => exact .summand (ih hends)
  | add hgaps _ _ ihl ihr =>
      exact .add hgaps (ihl (endsAlike_append_cons ..).tokensEnd) (ihr hends.operand)
  | sub hgaps _ _ ihl ihr =>
      exact .sub hgaps (ihl (endsAlike_append_cons ..).tokensEnd) (ihr hends.operand)

/-- What stands behind a derived text does not matter, as long as the same tokens end there. -/
theorem Derives.behind (hderives : Derives layer cs next e) (halike : EndsAlike next other) :
    Derives layer cs other e :=
  hderives.behind_tokens halike.tokensEnd

/-! ## Parentheses -/

/-- A text that leaves no parenthesis open and closes none that it did not open: a text behind it is
nested as if it stood alone. -/
def Balanced (cs : List Char) : Prop :=
  ∀ limit depth rest, nestsWithin limit depth (cs ++ rest) =
    (nestsWithin limit depth cs && nestsWithin limit depth rest)

theorem balanced_of_plain (hplain : ∀ c ∈ cs, c ≠ '(' ∧ c ≠ ')') : Balanced cs := by
  intro limit depth rest
  have hself : nestsWithin limit depth cs = true := by
    rw [← List.append_nil cs, nestsWithin_append hplain, nestsWithin]
  rw [nestsWithin_append hplain, hself, Bool.true_and]

theorem Balanced.append (hfirst : Balanced cs) (hsecond : Balanced ds) : Balanced (cs ++ ds) := by
  intro limit depth rest
  rw [List.append_assoc, hfirst, hsecond, hfirst limit depth ds, Bool.and_assoc]

theorem Balanced.cons {c : Char} (hc : c ≠ '(' ∧ c ≠ ')') (hrest : Balanced cs) :
    Balanced (c :: cs) := by
  have hfirst : Balanced [c] := balanced_of_plain (by simpa using hc)
  exact hfirst.append hrest

theorem Balanced.enclosed (hbody : Balanced cs) : Balanced ('(' :: (cs ++ [')'])) := by
  intro limit depth rest
  have hclose : ∀ rest, nestsWithin limit (depth + 1) (')' :: rest) =
      nestsWithin limit depth rest := by
    intro rest
    rw [nestsWithin, if_neg (by decide), if_pos rfl, Nat.add_sub_cancel]
  rw [List.cons_append, List.append_assoc, nestsWithin, if_pos rfl, nestsWithin, if_pos rfl,
    hbody, hbody, List.cons_append, hclose, hclose, List.nil_append, nestsWithin]
  simp [Bool.and_assoc]

theorem balanced_of_blanks (hblanks : ∀ c ∈ cs, isBlank c = true) : Balanced cs := by
  refine balanced_of_plain fun c hc => ⟨?_, ?_⟩
  · rintro rfl
    exact absurd (hblanks _ hc) (by decide)
  · rintro rfl
    exact absurd (hblanks _ hc) (by decide)

theorem not_parenthesis_of_isTokenChar {c : Char} (htoken : isTokenChar c = true) :
    c ≠ '(' ∧ c ≠ ')' := by
  constructor
  · rintro rfl
    exact absurd htoken (by decide)
  · rintro rfl
    exact absurd htoken (by decide)

theorem Gaps.balanced (hgaps : Gaps cs) : Balanced cs :=
  balanced_of_blanks fun c hc => isBlank_of_isGap (hgaps c hc)

theorem Signs.balanced {f : Expr} (hrun : Signs cs e f) : Balanced cs := by
  induction hrun with
  | none => exact balanced_of_plain (by simp)
  | plus hgaps _ ih | minus hgaps _ ih => exact hgaps.balanced.append (ih.cons (by decide))

/-- Every derived text is balanced. -/
theorem Derives.balanced (hderives : Derives layer cs next e) : Balanced cs := by
  induction hderives with
  | literal hgaps hvalue _ =>
      exact hgaps.balanced.append (balanced_of_plain fun c hc =>
        not_parenthesis_of_isTokenChar (hvalue.isTokenChar c hc))
  | name hgaps hmaximal =>
      exact hgaps.balanced.append (balanced_of_plain fun c hc =>
        not_parenthesis_of_isTokenChar (hmaximal.isToken.isTokenChar c hc))
  | group hbefore hafter _ ih =>
      have henclosed := (ih.append hafter.balanced).enclosed
      rw [List.append_assoc] at henclosed
      exact hbefore.balanced.append henclosed
  | base _ ih | operand _ ih | product _ ih | summand _ ih => exact ih
  | pow hgaps _ hrun _ ihl ihr =>
      exact ihl.append (hgaps.balanced.append ((hrun.balanced.append ihr).cons (by decide)))
  | signed hrun _ ih => exact hrun.balanced.append ih
  | mul hgaps _ _ ihl ihr | div hgaps _ _ ihl ihr | add hgaps _ _ ihl ihr | sub hgaps _ _ ihl ihr =>
      exact ihl.append (hgaps.balanced.append (ihr.cons (by decide)))
  | factor _ _ _ _ ihl ihr => exact ihl.append ihr

end EquationPractice
