import EquationPractice.Proofs.Sampling.Draws

/-!
# What can be drawn from a range

A range starts between two bounds, or around zero, and is then narrowed by calls in any order and
number.  What such a chain of calls amounts to can be said without following it: the signs are those
that were set last, a number is left out if any call leaves it out, and it weighs what it was given
last.  From that description alone the candidates are determined: whether there are any, which ones,
and with which weights.

The bounds are any integers, those of 64 bits and their extremes among them.

## Strategy

Each field of the range is read off the calls by induction from the last call backwards, since the
last one decides: `signs_built`, `mem_excluded_built` and `mem_weights_built`.  The weights are kept
in order of their numbers, so a number never has two of them, and a weight that is replaced leaves
nothing behind (`mem_setWeight`).

## Main definitions

* `IntRange.Bounds`, `IntRange.Call`, `IntRange.built`: a range and the chain of calls that builds it.
* `IntRange.lastSigns`, `IntRange.lastWeight?`: what was set last.
* `IntRange.Admits`: the numbers that a chain of calls leaves.
-/

namespace EquationPractice

namespace IntRange

/-! ## Building a range -/

/-- How a range starts. -/
inductive Bounds where
  | between (lo hi : Int)
  | symmetric (bound : Int)

namespace Bounds

def lo : Bounds → Int
  | between lo _ => lo
  | symmetric bound => -bound

def hi : Bounds → Int
  | between _ hi => hi
  | symmetric bound => bound

/-- The range as it starts, of every sign. -/
def range : Bounds → IntRange
  | between lo hi => IntRange.between lo hi
  | symmetric bound => IntRange.symmetric bound

end Bounds

/-- A call that changes what can be drawn. -/
inductive Call where
  | signs (signs : String)
  | exclude (number : Int)
  | excluding (numbers : List Int)
  | weight (number amount : Int)

namespace Call

/-- The range after a call. -/
def adjust (range : IntRange) : Call → IntRange
  | signs text => range.withSigns text
  | exclude number => range.excluding [number]
  | excluding numbers => range.excluding numbers
  | weight number amount => range.withWeight number amount

/-- The signs that a call sets. -/
def signs? : Call → Option String
  | signs text => some text
  | _ => none

/-- Whether a call leaves out a number. -/
def Excludes (n : Int) : Call → Prop
  | exclude number => n = number
  | excluding numbers => n ∈ numbers
  | _ => False

/-- The weight that a call gives to a number. -/
def weight? (n : Int) : Call → Option Int
  | weight number amount => if n = number then some amount else none
  | _ => none

end Call

/-- The range that a chain of calls builds. -/
def built (bounds : Bounds) (calls : List Call) : IntRange :=
  calls.foldl Call.adjust bounds.range

/-- The signs that were set last, or else every sign. -/
def lastSigns (calls : List Call) : String :=
  (calls.reverse.findSome? Call.signs?).getD "+-0"

/-- The weight that a number was given last. -/
def lastWeight? (calls : List Call) (n : Int) : Option Int :=
  calls.reverse.findSome? (Call.weight? n)

/-- The numbers that a chain of calls leaves: those between the bounds that have an allowed sign and
that no call leaves out. -/
structure Admits (bounds : Bounds) (calls : List Call) (n : Int) : Prop where
  lo_le : bounds.lo ≤ n
  le_hi : n ≤ bounds.hi
  negative : n < 0 → '-' ∈ (lastSigns calls).toList
  zero : n = 0 → '0' ∈ (lastSigns calls).toList
  positive : 0 < n → '+' ∈ (lastSigns calls).toList
  kept : ∀ call ∈ calls, ¬call.Excludes n

variable {bounds : Bounds} {calls : List Call} {call : Call} {n : Int}

@[simp] theorem built_nil : built bounds [] = bounds.range := rfl

@[simp] theorem built_concat : built bounds (calls ++ [call]) = call.adjust (built bounds calls) := by
  simp [built]

theorem lastSigns_concat :
    lastSigns (calls ++ [call]) = call.signs?.getD (lastSigns calls) := by
  rw [lastSigns, List.reverse_concat, List.findSome?_cons]
  cases call.signs? <;> rfl

theorem lastWeight?_concat :
    lastWeight? (calls ++ [call]) n = (call.weight? n).or (lastWeight? calls n) := by
  rw [lastWeight?, List.reverse_concat, List.findSome?_cons]
  cases call.weight? n <;> rfl

/-! ## Weights -/

section weights

variable {number weight v : Int} {weights : List (Int × Int)}

/-- The number that is weighed has the new weight and no other; all others keep theirs. -/
theorem mem_setWeight (hincreasing : weights.Pairwise fun first second => first.1 < second.1) :
    (n, v) ∈ setWeight number weight weights ↔
      n = number ∧ v = weight ∨ n ≠ number ∧ (n, v) ∈ weights := by
  induction weights with
  | nil => simp [setWeight]
  | cons entry rest ih =>
      obtain ⟨other, old⟩ := entry
      obtain ⟨hfirst, hrest⟩ := List.pairwise_cons.mp hincreasing
      have hlater : ∀ {m w : Int}, (m, w) ∈ rest → other < m := fun hmem => hfirst _ hmem
      simp only [setWeight]
      split
      · next hlt =>
          simp only [List.mem_cons, Prod.mk.injEq]
          refine or_congr_right ⟨fun hmem => ⟨?_, hmem⟩, And.right⟩
          rcases hmem with ⟨rfl, -⟩ | hmem
          · exact hlt.ne'
          · exact (hlt.trans (hlater hmem)).ne'
      · next hnotlt =>
          split
          · next heq =>
              subst heq
              simp only [List.mem_cons, Prod.mk.injEq]
              refine or_congr_right ⟨fun hmem => ⟨(hlater hmem).ne', Or.inr hmem⟩, ?_⟩
              rintro ⟨hne, ⟨heq, -⟩ | hmem⟩
              · exact absurd heq hne
              · exact hmem
          · next hne =>
              simp only [List.mem_cons, Prod.mk.injEq, ih hrest]
              constructor
              · rintro (⟨rfl, rfl⟩ | hset | ⟨hother, hmem⟩)
                · exact Or.inr ⟨Ne.symm hne, Or.inl ⟨rfl, rfl⟩⟩
                · exact Or.inl hset
                · exact Or.inr ⟨hother, Or.inr hmem⟩
              · rintro (hset | ⟨hother, hold | hmem⟩)
                · exact Or.inr (Or.inl hset)
                · exact Or.inl hold
                · exact Or.inr (Or.inr ⟨hother, hmem⟩)

theorem pairwise_setWeight (hincreasing : weights.Pairwise fun first second => first.1 < second.1) :
    (setWeight number weight weights).Pairwise fun first second => first.1 < second.1 := by
  induction weights with
  | nil => exact List.pairwise_singleton _ _
  | cons entry rest ih =>
      obtain ⟨other, old⟩ := entry
      obtain ⟨hfirst, hrest⟩ := List.pairwise_cons.mp hincreasing
      simp only [setWeight]
      split
      · next hlt =>
          refine List.pairwise_cons.mpr ⟨List.forall_mem_cons.mpr ⟨hlt, ?_⟩, hincreasing⟩
          exact fun later hlater => hlt.trans (hfirst later hlater)
      · next hnotlt =>
          split
          · next heq =>
              subst heq
              exact List.pairwise_cons.mpr ⟨hfirst, hrest⟩
          · next hne =>
              refine List.pairwise_cons.mpr ⟨?_, ih hrest⟩
              intro later hlater
              rcases (mem_setWeight hrest).mp hlater with ⟨hnumber, -⟩ | ⟨-, hold⟩
              · rw [hnumber]
                exact lt_of_le_of_ne (not_lt.mp hnotlt) (Ne.symm hne)
              · exact hfirst _ hold

end weights

/-! ## The fields of a built range -/

theorem lo_adjust (range : IntRange) : (call.adjust range).lo = range.lo := by
  cases call <;> rfl

theorem hi_adjust (range : IntRange) : (call.adjust range).hi = range.hi := by
  cases call <;> rfl

theorem signs_adjust (range : IntRange) :
    (call.adjust range).signs = call.signs?.getD range.signs := by
  cases call <;> rfl

theorem mem_excluded_adjust (range : IntRange) :
    n ∈ (call.adjust range).excluded ↔ call.Excludes n ∨ n ∈ range.excluded := by
  cases call <;> simp [Call.adjust, Call.Excludes, withSigns, excluding, withWeight]

/-- Calls keep the weights in order, and only the weight that they give changes. -/
theorem weights_adjust (call : Call) {range : IntRange}
    (hincreasing : range.weights.Pairwise fun first second => first.1 < second.1) :
    ((call.adjust range).weights.Pairwise fun first second => first.1 < second.1) ∧
      ∀ n v, (n, v) ∈ (call.adjust range).weights ↔
        call.weight? n = some v ∨ call.weight? n = none ∧ (n, v) ∈ range.weights := by
  cases call with
  | signs text => exact ⟨hincreasing, by simp [Call.adjust, Call.weight?, withSigns]⟩
  | exclude number => exact ⟨hincreasing, by simp [Call.adjust, Call.weight?, excluding]⟩
  | excluding numbers => exact ⟨hincreasing, by simp [Call.adjust, Call.weight?, excluding]⟩
  | weight number amount =>
      refine ⟨pairwise_setWeight hincreasing, fun n v => (mem_setWeight hincreasing).trans ?_⟩
      by_cases hn : n = number
      · simp [Call.weight?, hn, eq_comm]
      · simp [Call.weight?, hn]

@[simp] theorem lo_built : (built bounds calls).lo = bounds.lo := by
  induction calls using List.reverseRecOn with
  | nil => cases bounds <;> rfl
  | append_singleton calls call ih => rw [built_concat, lo_adjust, ih]

@[simp] theorem hi_built : (built bounds calls).hi = bounds.hi := by
  induction calls using List.reverseRecOn with
  | nil => cases bounds <;> rfl
  | append_singleton calls call ih => rw [built_concat, hi_adjust, ih]

@[simp] theorem signs_built : (built bounds calls).signs = lastSigns calls := by
  induction calls using List.reverseRecOn with
  | nil => cases bounds <;> rfl
  | append_singleton calls call ih => rw [built_concat, signs_adjust, ih, lastSigns_concat]

theorem mem_excluded_built :
    n ∈ (built bounds calls).excluded ↔ ∃ call ∈ calls, call.Excludes n := by
  induction calls using List.reverseRecOn with
  | nil => cases bounds <;> simp [Bounds.range, between, symmetric]
  | append_singleton calls call ih =>
      rw [built_concat, mem_excluded_adjust, ih]
      simp [or_and_right, exists_or, or_comm]

theorem weights_built :
    ((built bounds calls).weights.Pairwise fun first second => first.1 < second.1) ∧
      ∀ n v, (n, v) ∈ (built bounds calls).weights ↔ lastWeight? calls n = some v := by
  induction calls using List.reverseRecOn with
  | nil => cases bounds <;> simp [Bounds.range, between, symmetric, lastWeight?]
  | append_singleton calls call ih =>
      obtain ⟨hincreasing, hmem⟩ := ih
      obtain ⟨hadjusted, hmemAdjusted⟩ := weights_adjust call hincreasing
      rw [built_concat]
      refine ⟨hadjusted, fun n v => ?_⟩
      rw [hmemAdjusted, hmem, lastWeight?_concat, Option.or_eq_some_iff]

theorem mem_weights_built {v : Int} :
    (n, v) ∈ (built bounds calls).weights ↔ lastWeight? calls n = some v :=
  weights_built.2 n v

theorem lookup_weights_built : (built bounds calls).weights.lookup n = lastWeight? calls n := by
  cases hlookup : (built bounds calls).weights.lookup n with
  | some v =>
      obtain ⟨before, after, hsplit, -⟩ := List.lookup_eq_some_iff.mp hlookup
      have hmem : (n, v) ∈ (built bounds calls).weights := by
        rw [hsplit]
        exact List.mem_append_right before List.mem_cons_self
      exact (mem_weights_built.mp hmem).symm
  | none =>
      cases hlast : lastWeight? calls n with
      | none => rfl
      | some v =>
          have hne := List.lookup_eq_none_iff.mp hlookup _ (mem_weights_built.mpr hlast)
          simp at hne

/-! ## Faults -/

theorem signFault?_eq_none_iff {range : IntRange} : range.signFault? = none ↔
    (∀ c ∈ range.signs.toList, c = '+' ∨ c = '-' ∨ c = '0') ∧
      ('+' ∈ range.signs.toList ∨ '-' ∈ range.signs.toList) := by
  unfold signFault?
  cases hfind : range.signs.toList.find? fun c => c ∉ ['+', '-', '0'] with
  | some c =>
      have hmem := List.mem_of_find?_eq_some hfind
      have hother := List.find?_some hfind
      simp only [decide_eq_true_eq] at hother
      simp only [reduceCtorEq, false_iff, not_and]
      intro hsigns
      exact absurd (by simpa using hsigns c hmem) hother
  | none =>
      have hsigns : ∀ c ∈ range.signs.toList, c = '+' ∨ c = '-' ∨ c = '0' := by
        simpa only [List.find?_eq_none, decide_eq_true_eq, not_not, List.mem_cons,
          List.not_mem_nil, or_false] using hfind
      simp only [Bool.or_eq_true, decide_eq_true_eq, ite_eq_left_iff, reduceCtorEq, imp_false,
        not_not]
      exact (and_iff_right hsigns).symm

theorem allows_built : (built bounds calls).allows n = true ↔ Admits bounds calls n := by
  simp only [allows, lo_built, hi_built, Bool.and_eq_true, decide_eq_true_eq, wantsSign_iff,
    signs_built, mem_excluded_built]
  constructor
  · intro hallows
    obtain ⟨⟨⟨hlo, hhi⟩, hnegative, hzero, hpositive⟩, hkept⟩ := hallows
    exact ⟨hlo, hhi, hnegative, hzero, hpositive,
      fun call hcall hexcludes => hkept ⟨call, hcall, hexcludes⟩⟩
  · intro hadmits
    refine ⟨⟨⟨hadmits.lo_le, hadmits.le_hi⟩, hadmits.negative, hadmits.zero, hadmits.positive⟩, ?_⟩
    rintro ⟨call, hcall, hexcludes⟩
    exact hadmits.kept call hcall hexcludes

/-! ## Candidates -/

/-- The candidates of a built range, if nothing is at fault. -/
theorem candidates_built_eq_ok {candidates : List (Int × Nat)} :
    (built bounds calls).candidates = .ok candidates ↔
      ((∀ c ∈ (lastSigns calls).toList, c = '+' ∨ c = '-' ∨ c = '0') ∧
        ('+' ∈ (lastSigns calls).toList ∨ '-' ∈ (lastSigns calls).toList)) ∧
      bounds.hi - bounds.lo + 1 ≤ 65536 ∧
      (∀ n weight, lastWeight? calls n = some weight → Admits bounds calls n ∧ 0 < weight) ∧
      candidates ≠ [] ∧
      ((integers bounds.lo bounds.hi).filter (built bounds calls).allows).map
        (fun n => (n, ((lastWeight? calls n).getD 1).toNat)) = candidates := by
  have hwidth : ¬maxWidth < bounds.hi + 1 - bounds.lo ↔ bounds.hi - bounds.lo + 1 ≤ 65536 := by
    have hmax : maxWidth = 65536 := rfl
    omega
  have hweight : ∀ n, (built bounds calls).weightOf n = ((lastWeight? calls n).getD 1).toNat := by
    intro n
    rw [weightOf, lookup_weights_built]
    cases lastWeight? calls n <;> rfl
  simp only [candidates_eq_ok, signFault?_eq_none_iff, signs_built, lo_built, hi_built, hwidth,
    mem_weights_built, weightFault?_eq_none_iff, allows_built, hweight]

theorem mem_allowed_iff : n ∈ (integers bounds.lo bounds.hi).filter (built bounds calls).allows ↔
    Admits bounds calls n := by
  rw [List.mem_filter, mem_integers, allows_built]
  exact and_iff_right_of_imp fun hadmits => ⟨hadmits.lo_le, hadmits.le_hi⟩

theorem exists_candidates_built_iff :
    (∃ candidates, (built bounds calls).candidates = .ok candidates) ↔
      (∀ c ∈ (lastSigns calls).toList, c = '+' ∨ c = '-' ∨ c = '0') ∧
      ('+' ∈ (lastSigns calls).toList ∨ '-' ∈ (lastSigns calls).toList) ∧
      bounds.hi - bounds.lo + 1 ≤ 65536 ∧
      (∀ n weight, lastWeight? calls n = some weight → Admits bounds calls n ∧ 0 < weight) ∧
      ∃ n, Admits bounds calls n := by
  constructor
  · intro hexists
    obtain ⟨candidates, hcandidates⟩ := hexists
    obtain ⟨⟨hsigns, hsign⟩, hwidth, hweights, hne, rfl⟩ := candidates_built_eq_ok.mp hcandidates
    obtain ⟨n, hn⟩ := List.exists_mem_of_ne_nil _ (List.map_eq_nil_iff.not.mp hne)
    exact ⟨hsigns, hsign, hwidth, hweights, n, mem_allowed_iff.mp hn⟩
  · intro hfaultless
    obtain ⟨hsigns, hsign, hwidth, hweights, n, hadmits⟩ := hfaultless
    refine ⟨_, candidates_built_eq_ok.mpr ⟨⟨hsigns, hsign⟩, hwidth, hweights, ?_, rfl⟩⟩
    exact List.map_eq_nil_iff.not.mpr (List.ne_nil_of_mem (mem_allowed_iff.mpr hadmits))

section listed

variable {candidates : List (Int × Nat)}

theorem mem_candidates_built (hcandidates : (built bounds calls).candidates = .ok candidates)
    {weight : Nat} : (n, weight) ∈ candidates ↔
      Admits bounds calls n ∧ (weight : Int) = (lastWeight? calls n).getD 1 := by
  obtain ⟨-, -, hweights, -, rfl⟩ := candidates_built_eq_ok.mp hcandidates
  -- a weight that is given is positive, so it is not changed by counting it
  have hcount : ∀ m, (((lastWeight? calls m).getD 1).toNat : Int) = (lastWeight? calls m).getD 1 := by
    intro m
    refine Int.toNat_of_nonneg ?_
    cases hlast : lastWeight? calls m with
    | none => exact Int.one_nonneg
    | some weight => exact (hweights m weight hlast).2.le
  rw [List.mem_map]
  constructor
  · intro hmem
    obtain ⟨m, hm, heq⟩ := hmem
    obtain ⟨rfl, rfl⟩ := Prod.mk.inj heq
    exact ⟨mem_allowed_iff.mp hm, hcount m⟩
  · intro hlisted
    obtain ⟨hadmits, hweight⟩ := hlisted
    refine ⟨n, mem_allowed_iff.mpr hadmits, congrArg (Prod.mk n) ?_⟩
    exact Int.ofNat_inj.mp ((hcount n).trans hweight.symm)

theorem length_candidates_built_le
    (hcandidates : (built bounds calls).candidates = .ok candidates) :
    candidates.length ≤ 65536 := by
  obtain ⟨-, hwidth, -, -, rfl⟩ := candidates_built_eq_ok.mp hcandidates
  have hlength := List.length_filter_le (built bounds calls).allows (integers bounds.lo bounds.hi)
  rw [length_integers] at hlength
  rw [List.length_map]
  omega

end listed

/-- **The candidates of a range.**  Whatever the bounds are and whichever calls are made, there are
candidates if and only if the signs are signs and not zero alone, the range is not too wide, every
number with a weight is one that the calls leave and has a positive weight last, and the calls leave
some number.  The candidates are then exactly the numbers that the calls leave, in increasing order,
each with the weight it was given last or else one. -/
theorem candidates_built_iff (bounds : Bounds) (calls : List Call) :
    ((∃ candidates, (built bounds calls).candidates = .ok candidates) ↔
      (∀ c ∈ (lastSigns calls).toList, c = '+' ∨ c = '-' ∨ c = '0') ∧
      ('+' ∈ (lastSigns calls).toList ∨ '-' ∈ (lastSigns calls).toList) ∧
      bounds.hi - bounds.lo + 1 ≤ 65536 ∧
      (∀ n weight, lastWeight? calls n = some weight → Admits bounds calls n ∧ 0 < weight) ∧
      ∃ n, Admits bounds calls n) ∧
    ∀ candidates, (built bounds calls).candidates = .ok candidates →
      (candidates.Pairwise fun first second => first.1 < second.1) ∧
      (∀ n weight, (n, weight) ∈ candidates ↔
        Admits bounds calls n ∧ (weight : Int) = (lastWeight? calls n).getD 1) ∧
      1 ≤ candidates.length ∧ candidates.length ≤ 65536 ∧
      ∀ entry ∈ candidates, 1 ≤ entry.2 := by
  refine ⟨exists_candidates_built_iff, ?_⟩
  intro candidates hcandidates
  obtain ⟨-, -, -, hne, -⟩ := candidates_built_eq_ok.mp hcandidates
  exact ⟨pairwise_candidates hcandidates, fun _ _ => mem_candidates_built hcandidates,
    List.length_pos_iff.mpr hne, length_candidates_built_le hcandidates,
    fun _ hentry => weight_pos hcandidates hentry⟩

/-- Two of the largest integers of 64 bits, one of them weighed again after its weight was zero.  The
opposite of the least one is larger than all of them, so nothing lies around zero up to it. -/
theorem candidates_built_extreme :
    let bounds := Bounds.between 9223372036854775804 9223372036854775807
    let calls := [.signs "-", .weight 9223372036854775807 0, .exclude 9223372036854775805,
      .signs "+", .weight 9223372036854775807 9223372036854775807,
      .excluding [9223372036854775804, -9223372036854775808]]
    (built bounds calls).candidates =
      .ok [(9223372036854775806, 1), (9223372036854775807, 9223372036854775807)] ∧
    bounds.hi - bounds.lo + 1 ≤ 65536 ∧
    (9223372036854775807 : Int) = (lastWeight? calls 9223372036854775807).getD 1 ∧
    ¬∃ candidates, (built (.symmetric (-9223372036854775808)) []).candidates = .ok candidates := by
  intro bounds calls
  have hcandidates : (built bounds calls).candidates =
      .ok [(9223372036854775806, 1), (9223372036854775807, 9223372036854775807)] := by
    decide +kernel
  obtain ⟨hexists, hlisted⟩ := candidates_built_iff bounds calls
  obtain ⟨-, -, hwidth, -⟩ := hexists.mp ⟨_, hcandidates⟩
  obtain ⟨-, hmem, -⟩ := hlisted _ hcandidates
  refine ⟨hcandidates, hwidth,
    ((hmem 9223372036854775807 9223372036854775807).mp (by simp)).2, ?_⟩
  intro hsome
  obtain ⟨-, -, -, -, n, hadmits⟩ :=
    (candidates_built_iff (.symmetric (-9223372036854775808)) []).1.mp hsome
  exact absurd (hadmits.lo_le.trans hadmits.le_hi) (by decide)

end IntRange

end EquationPractice
