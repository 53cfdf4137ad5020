import EquationPractice.Proofs.Reading.Grammar
import Mathlib.Data.List.TakeWhile

/-!
# Tokens of the grammar

The scanners for literals, names and signs take exactly the maximal tokens of the grammar.  Each of
them is settled twice: what stands in the grammar is taken, and what is taken stands in the grammar.
-/

namespace EquationPractice

open Text

/-! ## Gaps -/

section Gaps

variable {gaps cs rest : List Char} {c : Char} {operators : List Char}

theorem gaps_nil : Gaps [] := by
  simp [Gaps]

theorem exists_gaps (hskip : skipGaps cs = rest) : ∃ gaps, Gaps gaps ∧ cs = gaps ++ rest := by
  refine ⟨cs.takeWhile isGap, ?_, ?_⟩
  · intro c hc
    exact List.mem_takeWhile_imp hc
  · rw [← hskip]
    exact List.takeWhile_append_dropWhile.symm

theorem Gaps.skipGaps_cons (hgaps : Gaps gaps) (hc : isGap c = false) :
    skipGaps (gaps ++ c :: rest) = c :: rest := by
  rw [skipGaps_append hgaps, skipGaps_cons_of_not_isGap hc]

/-- Where such a character comes next, gaps aside, no token goes on and no operator follows. -/
theorem stops_of_ahead (hahead : skipGaps rest = c :: cs)
    (htoken : (continuesName c || c == '.' || c == '(') = false) (hnot : c ∉ operators) :
    Stops operators rest := by
  obtain ⟨gaps, hgaps, hrest⟩ := exists_gaps hahead
  have hfree := headFree_skipGaps rest
  rw [hahead, headFree_cons] at hfree
  rw [hrest]
  exact stops_append hgaps (stops_cons hfree htoken hnot)

/-- None of the given operators comes next, gaps aside. -/
def NoneAhead (operators rest : List Char) : Prop :=
  HeadFree (· ∈ operators) (skipGaps rest)

theorem NoneAhead.subset {fewer : List Char} (hnone : NoneAhead operators rest)
    (hsub : fewer ⊆ operators) : NoneAhead fewer rest :=
  headFree_mem_subset hnone hsub

theorem Gaps.noneAhead (hgaps : Gaps gaps) (hc : isGap c = false) (hnot : c ∉ operators) :
    NoneAhead operators (gaps ++ c :: rest) := by
  unfold NoneAhead
  rw [hgaps.skipGaps_cons hc, headFree_cons]
  exact decide_eq_false hnot

end Gaps

/-! ## Maximal tokens -/

section Maximal

variable {token : List Char → Prop} {p : Char → Bool} {cs next rest : List Char} {q : ℚ}

/-- A character that would make a maximal token longer does not stand behind it. -/
theorem Maximal.headFree (hmaximal : Maximal token cs next)
    (hlonger : ∀ c, p c = true → token (cs ++ [c])) : HeadFree p next := by
  cases next with
  | nil => exact headFree_nil
  | cons c rest =>
      rw [headFree_cons, Bool.eq_false_iff]
      intro hc
      exact absurd (hmaximal.longest [c] rest rfl (hlonger c hc)) (by simp)

/-- A token is maximal when no character stands behind it with which a longer one could go on. -/
theorem Maximal.of_headFree (htoken : token cs) (hfree : HeadFree p next)
    (hlonger : ∀ c more, token (cs ++ c :: more) → p c = true) : Maximal token cs next := by
  refine ⟨htoken, ?_⟩
  intro more rest hnext hlong
  cases more with
  | nil => rfl
  | cons c tail =>
      rw [hnext] at hfree
      have hc := hlonger c tail hlong
      rw [headFree_cons.mp hfree] at hc
      exact absurd hc Bool.false_ne_true

/-! ### Literals -/

theorem IsLiteral.digit_or_point (hvalue : IsLiteral cs q) :
    ∀ c ∈ cs, c.isDigit = true ∨ c = '.' := by
  intro c hc
  cases hvalue with
  | whole hne hdigits => exact Or.inl (hdigits c hc)
  | point hne hwhole hfraction =>
      rcases List.mem_append.mp hc with hc | hc
      · exact Or.inl (hwhole c hc)
      · rcases List.mem_cons.mp hc with rfl | hc
        · exact Or.inr rfl
        · exact Or.inl (hfraction c hc)

theorem IsLiteral.ne_nil (hvalue : IsLiteral cs q) : cs ≠ [] := by
  cases hvalue with
  | whole hne hdigits => exact hne
  | point hne hwhole hfraction => simp

/-- What stands behind the first point of a literal are digits. -/
theorem IsLiteral.digits_of_point {whole tail : List Char} (hwhole : ∀ c ∈ whole, c.isDigit = true)
    (hvalue : IsLiteral (whole ++ '.' :: tail) q) : ∀ c ∈ tail, c.isDigit = true := by
  have hpoint : ∀ rest, HeadFree Char.isDigit ('.' :: rest) :=
    fun rest => headFree_cons.mpr (by decide)
  generalize hcs : whole ++ '.' :: tail = cs at hvalue
  cases hvalue with
  | whole hne hdigits =>
      have hdigit := hdigits '.' (by rw [← hcs]; simp)
      exact absurd hdigit (by decide)
  | point hne hwhole' hfraction =>
      have hdrop := congrArg (List.dropWhile Char.isDigit) hcs
      rw [dropWhile_append_of_headFree hwhole (hpoint _),
        dropWhile_append_of_headFree hwhole' (hpoint _), List.cons.injEq] at hdrop
      rw [hdrop.2]
      exact hfraction

/-- A maximal literal is read with its value. -/
theorem decimal?_of_maximal (hvalue : IsLiteral cs q)
    (hmaximal : Maximal (fun token => ∃ value, IsLiteral token value) cs next) :
    decimal? (cs ++ next) = some (q, next) := by
  cases hvalue with
  | whole hne hdigits =>
      refine decimal?_digits hne hdigits (hmaximal.headFree ?_)
      intro c hc
      simp only [Bool.or_eq_true, beq_iff_eq] at hc
      rcases hc with hdigit | rfl
      · refine ⟨_, .whole (by simp) ?_⟩
        exact List.forall_mem_append.mpr ⟨hdigits, List.forall_mem_singleton.mpr hdigit⟩
      · exact ⟨_, .point (Or.inl hne) hdigits (by simp)⟩
  | @point whole fraction hne hwhole hfraction =>
      rw [List.append_assoc, List.cons_append]
      refine decimal?_point hne hwhole hfraction (hmaximal.headFree ?_)
      intro c hdigit
      rw [List.append_assoc, List.cons_append]
      refine ⟨_, .point (Or.inr (by simp)) hwhole ?_⟩
      exact List.forall_mem_append.mpr ⟨hfraction, List.forall_mem_singleton.mpr hdigit⟩

/-- What is read as a number is a maximal literal. -/
theorem maximal_of_decimal? (hread : decimal? cs = some (q, rest)) :
    ∃ taken, cs = taken ++ rest ∧ IsLiteral taken q ∧
      Maximal (fun token => ∃ value, IsLiteral token value) taken rest := by
  have hdigits : ∀ c ∈ cs.takeWhile Char.isDigit, c.isDigit = true :=
    fun c hc => List.mem_takeWhile_imp hc
  have hsplit : cs.takeWhile Char.isDigit ++ cs.dropWhile Char.isDigit = cs :=
    List.takeWhile_append_dropWhile
  have hfree := headFree_dropWhile Char.isDigit cs
  unfold decimal? at hread
  simp only at hread
  split at hread
  · next tail hdrop =>
      split at hread
      · exact absurd hread (by simp)
      · next hsome =>
          simp only [Option.some.injEq, Prod.mk.injEq] at hread
          obtain ⟨rfl, rfl⟩ := hread
          rw [hdrop] at hsplit
          have hne : cs.takeWhile Char.isDigit ≠ [] ∨ tail.takeWhile Char.isDigit ≠ [] := by
            rw [Bool.and_eq_true, List.isEmpty_iff, List.isEmpty_iff] at hsome
            exact not_and_or.mp hsome
          have hvalue := IsLiteral.point hne hdigits
            (fun c hc => List.mem_takeWhile_imp (p := Char.isDigit) (l := tail) hc)
          refine ⟨_, ?_, hvalue, Maximal.of_headFree ⟨_, hvalue⟩ (headFree_dropWhile _ tail) ?_⟩
          · rw [List.append_assoc, List.cons_append, List.takeWhile_append_dropWhile, hsplit]
          · intro c more hlong
            obtain ⟨value, hlong⟩ := hlong
            rw [List.append_assoc, List.cons_append] at hlong
            exact hlong.digits_of_point hdigits c (by simp)
  · next hpoint =>
      split at hread
      · exact absurd hread (by simp)
      · next hsome =>
          simp only [Option.some.injEq, Prod.mk.injEq] at hread
          obtain ⟨rfl, rfl⟩ := hread
          have hvalue := IsLiteral.whole (fun hnil => hsome (List.isEmpty_iff.mpr hnil)) hdigits
          refine ⟨_, hsplit.symm, hvalue, Maximal.of_headFree
            (p := fun c => c.isDigit || c == '.') ⟨_, hvalue⟩ ?_ ?_⟩
          · intro c hc
            have hdigit := hfree c hc
            have hne : c ≠ '.' := by
              rintro rfl
              obtain ⟨tail, htail⟩ := List.head?_eq_some_iff.mp hc
              exact hpoint tail htail
            simp [hdigit, hne]
          · intro c more hlong
            obtain ⟨value, hlong⟩ := hlong
            simpa using hlong.digit_or_point c (by simp)

/-! ### Names -/

/-- A name is maximal when nothing behind it continues it. -/
theorem maximal_name (hname : IsName cs) (hnext : HeadFree continuesName next) :
    Maximal IsName cs next :=
  Maximal.of_headFree hname hnext fun c _ hlong => hlong.continuesName c (by simp)

/-- Nothing behind a maximal name continues it. -/
theorem Maximal.name_ends (hmaximal : Maximal IsName cs next) : HeadFree continuesName next :=
  hmaximal.headFree fun _ hc => hmaximal.isToken.concat hc

/-- A maximal name is read. -/
theorem name?_of_maximal (hmaximal : Maximal IsName cs next) :
    name? (cs ++ next) = some (String.ofList cs, next) :=
  name?_name hmaximal.isToken hmaximal.name_ends

/-- What is read as a name is a maximal one. -/
theorem maximal_of_name? {name : String} (hread : name? cs = some (name, rest)) :
    ∃ taken, cs = taken ++ rest ∧ name = String.ofList taken ∧ Maximal IsName taken rest := by
  cases cs with
  | nil => exact absurd hread (by simp [name?])
  | cons c tail =>
      simp only [name?] at hread
      split at hread
      · next hstart =>
          simp only [Option.some.injEq, Prod.mk.injEq] at hread
          obtain ⟨rfl, rfl⟩ := hread
          have hname : IsName (c :: tail.takeWhile continuesName) :=
            ⟨hstart, fun d hd => List.mem_takeWhile_imp hd⟩
          refine ⟨_, ?_, rfl, Maximal.of_headFree hname (headFree_dropWhile _ tail) ?_⟩
          · rw [List.cons_append, List.takeWhile_append_dropWhile]
          · intro d more hlong
            exact hlong.2 d (by simp)
      · exact absurd hread (by simp)

end Maximal

/-! ## Runs of signs -/

section Signs

variable {cs rest run : List Char} {c : Char} {e f : Expr}

theorem applySigns_succ (minus : ℕ) (e : Expr) :
    applySigns (minus + 1) e = negate (applySigns minus e) := by
  induction minus generalizing e with
  | zero => rfl
  | succ minus ih =>
      rw [applySigns, ih]
      rfl

/-- One sign of a run. -/
theorem signs_cons (hread : oneOf ['-', '+'] cs = .ok (c, rest)) :
    signs cs = ((signs rest).1 + if c = '-' then 1 else 0, (signs rest).2) := by
  unfold signs
  rw [many_cons hread (length_lt_of_oneOf hread)]
  simp [List.count_cons]

/-- A run of signs is read whole before anything that has no sign. -/
theorem Signs.signs_append (hrun : Signs run e f) (hrest : Unsigned rest) :
    ∃ minus, signs (run ++ rest) = (minus, rest) ∧ applySigns minus e = f := by
  induction hrun with
  | none => exact ⟨0, signs_of_unsigned hrest, rfl⟩
  | @plus gaps run e f hgaps hrun ih =>
      obtain ⟨minus, hsigns, happly⟩ := ih
      have hread : oneOf ['-', '+'] (gaps ++ '+' :: (run ++ rest)) = .ok ('+', run ++ rest) :=
        oneOf_eq_ok.mpr ⟨hgaps.skipGaps_cons (by decide), by simp⟩
      refine ⟨minus, ?_, happly⟩
      rw [List.append_assoc, List.cons_append, signs_cons hread, hsigns]
      rfl
  | @minus gaps run e f hgaps hrun ih =>
      obtain ⟨minus, hsigns, happly⟩ := ih
      have hread : oneOf ['-', '+'] (gaps ++ '-' :: (run ++ rest)) = .ok ('-', run ++ rest) :=
        oneOf_eq_ok.mpr ⟨hgaps.skipGaps_cons (by decide), by simp⟩
      refine ⟨minus + 1, ?_, ?_⟩
      · rw [List.append_assoc, List.cons_append, signs_cons hread, hsigns]
        rfl
      · rw [applySigns_succ, happly]

/-- What is read as a run of signs is one. -/
theorem signs_of_signs (cs : List Char) :
    ∃ run, cs = run ++ (signs cs).2 ∧ ∀ e, Signs run e (applySigns (signs cs).1 e) := by
  induction hlength : cs.length using Nat.strong_induction_on generalizing cs with
  | _ length ih =>
      cases hread : oneOf ['-', '+'] cs with
      | error stuck =>
          have hsigns : signs cs = (0, cs) := by
            unfold signs
            rw [many_stop hread]
            rfl
          rw [hsigns]
          exact ⟨[], rfl, fun e => .none⟩
      | ok result =>
          obtain ⟨c, rest⟩ := result
          obtain ⟨hskip, hsign⟩ := oneOf_eq_ok.mp hread
          obtain ⟨gaps, hgaps, hcs⟩ := exists_gaps hskip
          obtain ⟨run, hrest, hrun⟩ :=
            ih rest.length (hlength ▸ length_lt_of_oneOf hread) rest rfl
          have htext : cs = (gaps ++ c :: run) ++ (signs rest).2 := by
            rw [List.append_assoc, List.cons_append, ← hrest, hcs]
          rw [signs_cons hread]
          refine ⟨gaps ++ c :: run, htext, ?_⟩
          intro e
          rcases List.mem_cons.mp hsign with rfl | hplus
          · rw [if_pos rfl, applySigns_succ]
            exact .minus hgaps (hrun e)
          · rw [List.mem_singleton.mp hplus, if_neg (by decide)]
            exact .plus hgaps (hrun e)

end Signs

end EquationPractice
