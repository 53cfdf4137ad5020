import EquationPractice.Proofs.Reading.Tokens
import Mathlib.Data.List.TakeWhile

/-!
# Runs of characters

Of a kind of characters, a text is made of maximal runs and of other characters between them.  A run
is kept together with what stands before and after it, because what becomes of it often depends on
its neighbours.

## Strategy

A run begins at a character of the kind with no such character right before it.  So one pass over the
text that remembers what it has gone through meets every run once, at its first character.  Listing
the runs and replacing them are both such passes.  Whatever is to be proved of all places of a text
that are not inside of a run is proved by `runs_induction`, run by run.

## Main definitions

* `IsRun`: at least one character, all of a kind.
* `Run.IsMaximal`: a run in a text that cannot be made longer.
* `maximalRuns`: the maximal runs of a text, from left to right.
* `rewriteRuns`: the text with every maximal run replaced.
-/

namespace EquationPractice

/-- A run of at least one character of a kind. -/
def IsRun (kind : Char → Bool) (cs : List Char) : Prop :=
  cs ≠ [] ∧ ∀ c ∈ cs, kind c = true

/-- Characters in a text, with what stands before and after them. -/
structure Run where
  before : List Char
  chars : List Char
  after : List Char
  deriving DecidableEq, Repr

/-- A run in a text that no character of its kind touches. -/
structure Run.IsMaximal (kind : Char → Bool) (text : List Char) (run : Run) : Prop where
  text_eq : text = run.before ++ (run.chars ++ run.after)
  isRun : IsRun kind run.chars
  left : HeadFree kind run.before.reverse
  right : HeadFree kind run.after

/-- What a pass over a text puts out from a place on: something for every run that begins there or
later, and something for every character between the runs. -/
def scanRuns {α : Type} (kind : Char → Bool) (atRun : Run → List α) (atOther : Char → List α) :
    List Char → List Char → List α
  | _, [] => []
  | before, c :: rest =>
      (if !kind c then atOther c
      else if before.getLast?.any kind then []
      else atRun ⟨before, (c :: rest).takeWhile kind, (c :: rest).dropWhile kind⟩) ++
        scanRuns kind atRun atOther (before ++ [c]) rest

/-- The maximal runs that begin at a place or later. -/
def runsFrom (kind : Char → Bool) : List Char → List Char → List Run :=
  scanRuns kind (fun run => [run]) fun _ => []

/-- The maximal runs of a text, from left to right. -/
def maximalRuns (kind : Char → Bool) (text : List Char) : List Run :=
  runsFrom kind [] text

/-- What becomes of the rest of a text when every maximal run is replaced. -/
def rewriteFrom (kind : Char → Bool) (write : Run → List Char) :
    List Char → List Char → List Char :=
  scanRuns kind write fun c => [c]

/-- The text with every maximal run replaced, and every other character as it was. -/
def rewriteRuns (kind : Char → Bool) (write : Run → List Char) (text : List Char) : List Char :=
  rewriteFrom kind write [] text

variable {α : Type} {kind : Char → Bool} {atRun : Run → List α} {atOther : Char → List α}
  {before word other rest tail : List Char} {c : Char} {run : Run}

theorem headFree_reverse : HeadFree kind before.reverse ↔ before.getLast?.any kind = false := by
  rw [HeadFree, List.head?_reverse]
  cases before.getLast? with
  | none => simp
  | some c => simp

/-- A text begins with one run of characters of a kind only that no such character follows. -/
theorem eq_of_append_eq (hword : ∀ c ∈ word, kind c = true) (hother : ∀ c ∈ other, kind c = true)
    (hrest : HeadFree kind rest) (htail : HeadFree kind tail)
    (htext : word ++ rest = other ++ tail) : word = other := by
  calc word = (word ++ rest).takeWhile kind := (takeWhile_append_of_headFree hword hrest).symm
    _ = (other ++ tail).takeWhile kind := by rw [htext]
    _ = other := takeWhile_append_of_headFree hother htail

/-- Characters of a kind at the front of a text belong to the run there. -/
theorem exists_eq_append_of_append_eq (hother : ∀ c ∈ other, kind c = true)
    (hrest : HeadFree kind rest) (htext : word ++ rest = other ++ tail) :
    ∃ more, word = other ++ more ∧ tail = more ++ rest := by
  rcases List.append_eq_append_iff.mp htext with ⟨more, rfl, rfl⟩ | ⟨more, rfl, rfl⟩
  · -- nothing of what follows the run is of the kind
    cases more with
    | nil => exact ⟨[], by simp, rfl⟩
    | cons c more =>
        have hc := hother c (by simp)
        simp [headFree_cons.mp hrest] at hc
  · exact ⟨more, rfl, rfl⟩

/-- No run begins right behind a character of its kind. -/
theorem not_headFree_reverse (hword : IsRun kind word) :
    ¬HeadFree kind (before ++ word).reverse := by
  obtain ⟨init, c, rfl⟩ := (List.eq_nil_or_concat' word).resolve_left hword.1
  have hc := hword.2 c (by simp)
  simp [hc]

/-! ## A pass over a text -/

theorem scanRuns_other (hc : kind c = false) : scanRuns kind atRun atOther before (c :: rest) =
    atOther c ++ scanRuns kind atRun atOther (before ++ [c]) rest := by
  rw [scanRuns, hc]
  rfl

/-- What is not of the kind stays as it is. -/
theorem rewriteFrom_others {write : Run → List Char} (hother : ∀ c ∈ other, kind c = false) :
    rewriteFrom kind write before (other ++ rest) =
      other ++ rewriteFrom kind write (before ++ other) rest := by
  induction other generalizing before with
  | nil => simp
  | cons c more ih =>
      have hmore : rewriteFrom kind write (before ++ [c]) (more ++ rest) = _ :=
        ih fun d hd => hother d (List.mem_cons_of_mem _ hd)
      rw [rewriteFrom, List.cons_append, scanRuns_other (hother c List.mem_cons_self)]
      simpa [rewriteFrom] using hmore

/-- Nothing is put out for the characters of a run behind its first one. -/
theorem scanRuns_within (hword : ∀ c ∈ word, kind c = true)
    (hbefore : ¬HeadFree kind before.reverse) : scanRuns kind atRun atOther before (word ++ rest) =
      scanRuns kind atRun atOther (before ++ word) rest := by
  induction word generalizing before with
  | nil => simp
  | cons c more ih =>
      have hc := hword c List.mem_cons_self
      have hinside : ¬HeadFree kind (before ++ [c]).reverse :=
        not_headFree_reverse ⟨by simp, by simpa using hc⟩
      have hmore := ih (fun d hd => hword d (List.mem_cons_of_mem _ hd)) hinside
      rw [headFree_reverse, Bool.not_eq_false] at hbefore
      rw [List.cons_append, scanRuns, hc, hbefore, hmore]
      simp

theorem scanRuns_run (hword : IsRun kind word) (hbefore : HeadFree kind before.reverse)
    (hrest : HeadFree kind rest) : scanRuns kind atRun atOther before (word ++ rest) =
      atRun ⟨before, word, rest⟩ ++ scanRuns kind atRun atOther (before ++ word) rest := by
  cases word with
  | nil => exact absurd rfl hword.1
  | cons c more =>
      have hc := hword.2 c List.mem_cons_self
      have hinside : ¬HeadFree kind (before ++ [c]).reverse :=
        not_headFree_reverse ⟨by simp, by simpa using hc⟩
      rw [List.cons_append, scanRuns,
        scanRuns_within (fun d hd => hword.2 d (List.mem_cons_of_mem _ hd)) hinside,
        ← List.cons_append,
        takeWhile_append_of_headFree hword.2 hrest, dropWhile_append_of_headFree hword.2 hrest, hc,
        headFree_reverse.mp hbefore]
      simp

/-- From a place that is not inside of a run, a text is gone through run by run. -/
theorem runs_induction (kind : Char → Bool) {motive : List Char → List Char → Prop}
    (hnil : ∀ before, motive before [])
    (hother : ∀ before c rest, kind c = false → motive (before ++ [c]) rest →
      motive before (c :: rest))
    (hrun : ∀ before word rest, IsRun kind word → HeadFree kind before.reverse →
      HeadFree kind rest → motive (before ++ word) rest → motive before (word ++ rest))
    (before rest : List Char) (hplace : HeadFree kind before.reverse ∨ HeadFree kind rest) :
    motive before rest := by
  induction hlength : rest.length using Nat.strong_induction_on generalizing before rest with
  | _ length ih =>
      subst hlength
      cases rest with
      | nil => exact hnil before
      | cons c tail =>
          cases hc : kind c with
          | false =>
              have hfree : HeadFree kind (before ++ [c]).reverse := by simpa using hc
              exact hother before c tail hc (ih _ (by simp) _ _ (Or.inl hfree) rfl)
          | true =>
              have hbefore := hplace.resolve_right (by simp [hc])
              have hafter : HeadFree kind (tail.dropWhile kind) := headFree_dropWhile kind tail
              have hword : IsRun kind (c :: tail.takeWhile kind) :=
                ⟨by simp, by simpa [hc] using fun d hd => List.mem_takeWhile_imp hd⟩
              have hstep := hrun before _ _ hword hbefore hafter
                (ih _ (by simpa using (List.dropWhile_sublist kind).length_le) _ _ (Or.inr hafter)
                  rfl)
              rwa [List.cons_append, List.takeWhile_append_dropWhile] at hstep

/-! ## The maximal runs -/

/-- What is listed right at a place: the run that begins there, if one does. -/
theorem mem_runAt : run ∈ (if !kind c then []
      else if before.getLast?.any kind then []
      else [⟨before, (c :: tail).takeWhile kind, (c :: tail).dropWhile kind⟩]) ↔
    run.before = before ∧ c :: tail = run.chars ++ run.after ∧ IsRun kind run.chars ∧
      HeadFree kind run.before.reverse ∧ HeadFree kind run.after := by
  constructor
  · intro hmem
    split_ifs at hmem with hc hbefore
    · exact absurd hmem List.not_mem_nil
    · exact absurd hmem List.not_mem_nil
    · obtain rfl := List.mem_singleton.mp hmem
      simp only [Bool.not_eq_true', Bool.not_eq_false] at hc
      refine ⟨rfl, (List.takeWhile_append_dropWhile).symm, ⟨?_, ?_⟩, ?_, headFree_dropWhile _ _⟩
      · simp [hc]
      · exact fun d hd => List.mem_takeWhile_imp hd
      · exact headFree_reverse.mpr (by simpa using hbefore)
  · obtain ⟨_, chars, after⟩ := run
    rintro ⟨rfl, htext, hrun, hleft, hright⟩
    have hc : kind c = true := by
      cases chars with
      | nil => exact absurd rfl hrun.1
      | cons d more => exact (List.cons.inj htext).1 ▸ hrun.2 d List.mem_cons_self
    rw [hc, headFree_reverse.mp hleft, htext, takeWhile_append_of_headFree hrun.2 hright,
      dropWhile_append_of_headFree hrun.2 hright]
    simp

/-- A pass from a place on lists the maximal runs that begin there or later. -/
theorem mem_runsFrom : run ∈ runsFrom kind before rest ↔ ∃ taken, run.before = before ++ taken ∧
    rest = taken ++ (run.chars ++ run.after) ∧ IsRun kind run.chars ∧
      HeadFree kind run.before.reverse ∧ HeadFree kind run.after := by
  induction rest generalizing before with
  | nil =>
      simp only [runsFrom, scanRuns, List.not_mem_nil, false_iff]
      rintro ⟨taken, -, hrest, hrun, -⟩
      simp [hrun.1] at hrest
  | cons c tail ih =>
      have hlater : run ∈ scanRuns kind (fun run => [run]) (fun _ => []) (before ++ [c]) tail ↔ _ :=
        ih
      rw [runsFrom, scanRuns, List.mem_append, hlater, mem_runAt]
      constructor
      · rintro (⟨hbefore, hrest, hrun⟩ | ⟨taken, hbefore, rfl, hrun⟩)
        · exact ⟨[], by simpa using hbefore, hrest, hrun⟩
        · exact ⟨c :: taken, by simpa using hbefore, rfl, hrun⟩
      · rintro ⟨taken, hbefore, hrest, hrun⟩
        cases taken with
        | nil => exact Or.inl ⟨by simpa using hbefore, hrest, hrun⟩
        | cons d taken =>
            obtain ⟨rfl, rfl⟩ := List.cons.inj hrest
            exact Or.inr ⟨taken, by simpa using hbefore, rfl, hrun⟩

/-- The listed runs are exactly the maximal ones. -/
theorem mem_maximalRuns {text : List Char} :
    run ∈ maximalRuns kind text ↔ run.IsMaximal kind text := by
  rw [maximalRuns, mem_runsFrom]
  constructor
  · rintro ⟨taken, hbefore, htext, hrun, hleft, hright⟩
    rw [List.nil_append] at hbefore
    exact ⟨by rw [htext, hbefore], hrun, hleft, hright⟩
  · rintro ⟨htext, hrun, hleft, hright⟩
    exact ⟨run.before, rfl, htext, hrun, hleft, hright⟩

/-- Every maximal run is listed once, and the runs are listed from left to right. -/
theorem pairwise_maximalRuns (kind : Char → Bool) (text : List Char) :
    (maximalRuns kind text).Pairwise fun first second =>
      first.before.length < second.before.length := by
  have hfrom : ∀ before, (runsFrom kind before text).Pairwise fun first second =>
      first.before.length < second.before.length := by
    induction text with
    | nil => exact fun _ => List.Pairwise.nil
    | cons c tail ih =>
        intro before
        rw [runsFrom, scanRuns, List.pairwise_append]
        refine ⟨by split_ifs <;> simp, ih _, fun first hfirst second hsecond => ?_⟩
        -- whatever is listed later begins behind the character
        obtain ⟨taken, hlater, -⟩ := mem_runsFrom.mp hsecond
        rw [(mem_runAt.mp hfirst).1, hlater]
        simp
  exact hfrom []

end EquationPractice
