import EquationPractice.Proofs.Reading.Tokens
import EquationPractice.Proofs.Regex.Loops
import EquationPractice.Regex.Search

/-!
# Shapes of matches

What a pattern matches, as a relation between the text before the match, the text taken and the text
after it.  The matches that the matcher lists are exactly the splits of the text that have the shape
of the pattern.  Patterns that record groups are left out here, so a match is nothing but the place
where it ends.

## Main definitions

* `Shape`: a relation between what stands before, in and after a match.
* `Regex.HasShape`: the matches of a pattern are those of a shape.
-/

namespace EquationPractice

/-- What may be taken between a text before and a text after. -/
abbrev Shape : Type := List Char → List Char → List Char → Prop

/-- One shape right after another. -/
def Shape.andThen (shape other : Shape) : Shape := fun before taken after =>
  ∃ first second, taken = first ++ second ∧ shape before first (second ++ after) ∧
    other (before ++ first) second after

/-- So many rounds of a shape, one right after the other. -/
def Shape.rounds (shape : Shape) : Nat → Shape
  | 0 => fun _ taken _ => taken = []
  | count + 1 => shape.andThen (shape.rounds count)

namespace Regex

/-- The pattern that matches some patterns one after the other. -/
def inSequence : List Regex → Regex
  | [] => empty
  | [r] => r
  | r :: rest => seq r (inSequence rest)

/-- From every place and with whatever was recorded before, the pattern matches what has the shape,
and records nothing. -/
def HasShape (r : Regex) (shape : Shape) : Prop :=
  ∀ before rest captures next, next ∈ r.runs (before ++ rest) ⟨before.length, captures⟩ ↔
    ∃ taken after, rest = taken ++ after ∧
      next = ⟨before.length + taken.length, captures⟩ ∧ shape before taken after

variable {r s : Regex} {shape other : Shape} {set : CharSet}

theorem HasShape.congr (hr : r.HasShape shape)
    (hiff : ∀ before taken after, shape before taken after ↔ other before taken after) :
    r.HasShape other := by
  intro before rest captures next
  simp only [hr before rest captures next, hiff]

/-! ## Characters, sequences, choices -/

theorem hasShape_one (set : CharSet) :
    (one set).HasShape fun _ taken _ => ∃ c, taken = [c] ∧ set.contains c = true := by
  intro before rest captures next
  cases rest with
  | nil => simp [runs]
  | cons c tail =>
      simp only [runs, List.getElem?_append_right le_rfl, Nat.sub_self, List.getElem?_cons_zero]
      constructor
      · intro hnext
        split at hnext
        · next hset => exact ⟨[c], tail, rfl, by simpa using hnext, c, rfl, hset⟩
        · exact absurd hnext List.not_mem_nil
      · rintro ⟨taken, after, hrest, rfl, d, rfl, hset⟩
        simp only [List.singleton_append, List.cons.injEq] at hrest
        rw [hrest.1, if_pos hset]
        simp

theorem hasShape_single (c : Char) : (one (.single c)).HasShape fun _ taken _ => taken = [c] := by
  refine (hasShape_one (.single c)).congr fun before taken after => ?_
  constructor
  · rintro ⟨d, rfl, hset⟩
    simpa [CharSet.contains] using hset
  · rintro rfl
    exact ⟨c, rfl, by simp [CharSet.contains]⟩

/-- A pattern whose matches are those of one pattern followed by those of another. -/
theorem HasShape.andThen {t : Regex} (hr : r.HasShape shape) (hs : s.HasShape other)
    (hmem : ∀ text place next, next ∈ t.runs text place ↔
      ∃ mid ∈ r.runs text place, next ∈ s.runs text mid) :
    t.HasShape (shape.andThen other) := by
  intro before rest captures next
  rw [hmem]
  constructor
  · rintro ⟨mid, hmid, hnext⟩
    obtain ⟨first, tail, rfl, rfl, hfirst⟩ := (hr _ _ _ _).mp hmid
    rw [← List.append_assoc, ← List.length_append] at hnext
    obtain ⟨second, after, rfl, rfl, hsecond⟩ := (hs _ _ _ _).mp hnext
    exact ⟨first ++ second, after, by simp, by simp [Nat.add_assoc], first, second, rfl, hfirst,
      hsecond⟩
  · rintro ⟨taken, after, rfl, rfl, first, second, rfl, hfirst, hsecond⟩
    refine ⟨⟨before.length + first.length, captures⟩, ?_, ?_⟩
    · exact (hr _ _ _ _).mpr ⟨first, second ++ after, by simp, rfl, hfirst⟩
    · have hnext := (hs (before ++ first) (second ++ after) captures _).mpr
        ⟨second, after, rfl, rfl, hsecond⟩
      simpa [Nat.add_assoc] using hnext

theorem HasShape.seq (hr : r.HasShape shape) (hs : s.HasShape other) :
    (seq r s).HasShape (shape.andThen other) :=
  hr.andThen hs fun _ _ _ => mem_gather

theorem mem_runs_inSequence_append {xs ys : List Regex} {text : List Char} {place next : Place} :
    next ∈ (inSequence (xs ++ ys)).runs text place ↔
      ∃ mid ∈ (inSequence xs).runs text place, next ∈ (inSequence ys).runs text mid := by
  have hcons : ∀ r rest place next, next ∈ (inSequence (r :: rest)).runs text place ↔
      ∃ mid ∈ r.runs text place, next ∈ (inSequence rest).runs text mid := by
    intro r rest place next
    cases rest with
    | nil => simp [inSequence, runs]
    | cons s rest => exact mem_gather
  induction xs generalizing place with
  | nil => simp [inSequence, runs]
  | cons r rest ih =>
      simp only [List.cons_append, hcons, ih]
      constructor
      · rintro ⟨first, hfirst, mid, hmid, hnext⟩
        exact ⟨mid, ⟨first, hfirst, hmid⟩, hnext⟩
      · rintro ⟨mid, ⟨first, hfirst, hmid⟩, hnext⟩
        exact ⟨first, hfirst, mid, hmid, hnext⟩

theorem HasShape.append {xs ys : List Regex} (hx : (inSequence xs).HasShape shape)
    (hy : (inSequence ys).HasShape other) :
    (inSequence (xs ++ ys)).HasShape (shape.andThen other) :=
  hx.andThen hy fun _ _ _ => mem_runs_inSequence_append

theorem HasShape.cons {ys : List Regex} (hr : r.HasShape shape)
    (hy : (inSequence ys).HasShape other) : (inSequence (r :: ys)).HasShape (shape.andThen other) :=
  HasShape.append (show (inSequence [r]).HasShape shape from hr) hy

theorem HasShape.alt (hr : r.HasShape shape) (hs : s.HasShape other) :
    (alt r s).HasShape fun before taken after =>
      shape before taken after ∨ other before taken after := by
  intro before rest captures next
  simp only [runs, mem_addAll, hr before rest captures next, hs before rest captures next]
  constructor
  · rintro (⟨taken, after, hrest, hnext, hshape⟩ | ⟨taken, after, hrest, hnext, hshape⟩)
    · exact ⟨taken, after, hrest, hnext, Or.inl hshape⟩
    · exact ⟨taken, after, hrest, hnext, Or.inr hshape⟩
  · rintro ⟨taken, after, hrest, hnext, hshape | hshape⟩
    · exact Or.inl ⟨taken, after, hrest, hnext, hshape⟩
    · exact Or.inr ⟨taken, after, hrest, hnext, hshape⟩

/-! ## Loops -/

theorem HasShape.steps (hr : r.HasShape shape) {n : Nat} {before rest : List Char}
    {captures : List (Nat × List Char)} {next : Place} :
    Steps (r.runs (before ++ rest)) n ⟨before.length, captures⟩ next ↔
      ∃ taken after, rest = taken ++ after ∧
        next = ⟨before.length + taken.length, captures⟩ ∧ shape.rounds n before taken after := by
  induction n generalizing before rest next with
  | zero =>
      simp only [Steps, Shape.rounds]
      constructor
      · rintro rfl
        exact ⟨[], rest, rfl, rfl, rfl⟩
      · rintro ⟨taken, after, -, rfl, rfl⟩
        rfl
  | succ n ih =>
      simp only [Steps]
      constructor
      · rintro ⟨mid, hmid, hsteps⟩
        obtain ⟨first, tail, rfl, rfl, hfirst⟩ := (hr _ _ _ _).mp hmid
        rw [← List.append_assoc, ← List.length_append] at hsteps
        obtain ⟨more, after, rfl, rfl, hmore⟩ := ih.mp hsteps
        exact ⟨first ++ more, after, by simp, by simp [Nat.add_assoc], first, more, rfl, hfirst,
          hmore⟩
      · rintro ⟨taken, after, rfl, rfl, first, more, rfl, hfirst, hmore⟩
        refine ⟨⟨before.length + first.length, captures⟩, ?_, ?_⟩
        · exact (hr _ _ _ _).mpr ⟨first, more ++ after, by simp, rfl, hfirst⟩
        · have hsteps : Steps (r.runs ((before ++ first) ++ (more ++ after))) n
              ⟨(before ++ first).length, captures⟩
              ⟨(before ++ first).length + more.length, captures⟩ :=
            ih.mpr ⟨more, after, rfl, rfl, hmore⟩
          simpa [Nat.add_assoc] using hsteps

theorem HasShape.forward (hr : r.HasShape shape)
    (hne : ∀ before taken after, shape before taken after → taken ≠ []) (text : List Char) :
    Forward (r.runs text) text.length := by
  intro place next hpos hnext
  -- every place cuts the text in two, and the shape speaks of such cuts
  have hsplit : text = text.take place.pos ++ text.drop place.pos := by simp
  have hlength : (text.take place.pos).length = place.pos := by simp [hpos]
  have hnext' : next ∈ r.runs (text.take place.pos ++ text.drop place.pos)
      ⟨(text.take place.pos).length, place.captures⟩ := by
    rwa [← hsplit, hlength]
  obtain ⟨taken, after, hrest, rfl, hshape⟩ := (hr _ _ _ _).mp hnext'
  have htaken := List.length_pos_iff.mpr (hne _ _ _ hshape)
  have htotal := congrArg List.length hrest
  simp only [List.length_drop, List.length_append] at htotal
  simp only [hlength]
  omega

theorem HasShape.bounded (hr : r.HasShape shape) (least most : Nat) (greedy keepsEmpty : Bool) :
    (loop least (some most) greedy keepsEmpty r).HasShape fun before taken after =>
      ∃ n, least ≤ n ∧ n ≤ max least most ∧ shape.rounds n before taken after := by
  intro before rest captures next
  rw [mem_runs_bounded]
  simp only [hr.steps]
  constructor
  · rintro ⟨n, hleast, hmost, taken, after, hrest, hnext, hrounds⟩
    exact ⟨taken, after, hrest, hnext, n, hleast, hmost, hrounds⟩
  · rintro ⟨taken, after, hrest, hnext, n, hleast, hmost, hrounds⟩
    exact ⟨n, hleast, hmost, taken, after, hrest, hnext, hrounds⟩

theorem HasShape.unbounded (hr : r.HasShape shape)
    (hne : ∀ before taken after, shape before taken after → taken ≠ []) (least : Nat)
    (greedy keepsEmpty : Bool) :
    (loop least none greedy keepsEmpty r).HasShape fun before taken after =>
      ∃ n, least ≤ n ∧ shape.rounds n before taken after := by
  intro before rest captures next
  rw [mem_runs_unbounded (hr.forward hne _) (by simp)]
  simp only [hr.steps]
  constructor
  · rintro ⟨n, hleast, taken, after, hrest, hnext, hrounds⟩
    exact ⟨taken, after, hrest, hnext, n, hleast, hrounds⟩
  · rintro ⟨taken, after, hrest, hnext, n, hleast, hrounds⟩
    exact ⟨n, hleast, taken, after, hrest, hnext, hrounds⟩

theorem HasShape.optional (hr : r.HasShape shape) :
    r.optional.HasShape fun before taken after => taken = [] ∨ shape before taken after := by
  refine (hr.bounded 0 1 true true).congr fun before taken after => ?_
  constructor
  · rintro ⟨n, -, hn, hrounds⟩
    cases n with
    | zero => exact Or.inl hrounds
    | succ n =>
        obtain rfl : n = 0 := by omega
        obtain ⟨first, more, rfl, hfirst, rfl⟩ := hrounds
        exact Or.inr (by simpa using hfirst)
  · rintro (rfl | hshape)
    · exact ⟨0, by omega, by omega, rfl⟩
    · exact ⟨1, by omega, by omega, taken, [], by simp, by simpa using hshape, rfl⟩

/-- Rounds of single characters. -/
theorem rounds_one {n : Nat} {before taken after : List Char} :
    Shape.rounds (fun _ taken _ => ∃ c, taken = [c] ∧ set.contains c = true) n before taken after ↔
      taken.length = n ∧ ∀ c ∈ taken, set.contains c = true := by
  induction n generalizing before taken with
  | zero =>
      simp only [Shape.rounds, List.length_eq_zero_iff]
      constructor
      · rintro rfl
        simp
      · exact And.left
  | succ n ih =>
      simp only [Shape.rounds, Shape.andThen, ih]
      constructor
      · rintro ⟨first, more, rfl, ⟨c, rfl, hset⟩, rfl, hmore⟩
        refine ⟨by simp, fun d hd => ?_⟩
        rcases List.mem_cons.mp hd with rfl | hd
        · exact hset
        · exact hmore d hd
      · rintro ⟨hlength, hall⟩
        cases taken with
        | nil => simp at hlength
        | cons c more =>
            exact ⟨[c], more, rfl, ⟨c, rfl, hall c List.mem_cons_self⟩, by simpa using hlength,
              fun d hd => hall d (List.mem_cons_of_mem _ hd)⟩

theorem hasShape_many (set : CharSet) (least : Nat) (greedy keepsEmpty : Bool) :
    (loop least none greedy keepsEmpty (one set)).HasShape fun _ taken _ =>
      least ≤ taken.length ∧ ∀ c ∈ taken, set.contains c = true := by
  have hne : ∀ _ taken _ : List Char, (∃ c, taken = [c] ∧ set.contains c = true) → taken ≠ [] := by
    rintro _ _ _ ⟨c, rfl, -⟩
    simp
  refine ((hasShape_one set).unbounded hne least greedy keepsEmpty).congr
    fun before taken after => ?_
  simp only [rounds_one]
  constructor
  · rintro ⟨n, hleast, rfl, hall⟩
    exact ⟨hleast, hall⟩
  · rintro ⟨hleast, hall⟩
    exact ⟨taken.length, hleast, rfl, hall⟩

theorem hasShape_times (set : CharSet) (count : Nat) (greedy keepsEmpty : Bool) :
    (loop count (some count) greedy keepsEmpty (one set)).HasShape fun _ taken _ =>
      taken.length = count ∧ ∀ c ∈ taken, set.contains c = true := by
  refine ((hasShape_one set).bounded count count greedy keepsEmpty).congr
    fun before taken after => ?_
  simp only [rounds_one]
  constructor
  · rintro ⟨n, hleast, hmost, hlength, hall⟩
    exact ⟨by omega, hall⟩
  · rintro ⟨hlength, hall⟩
    exact ⟨count, le_rfl, by omega, hlength, hall⟩

/-! ## Looking around -/

theorem mem_lookFrom_false {place next : Place} {ends : List Place} :
    next ∈ lookFrom place false ends ↔ next = place ∧ ∀ stop, stop ∉ ends := by
  rw [← List.eq_nil_iff_forall_not_mem]
  cases ends with
  | nil => simp [lookFrom]
  | cons first rest => simp [lookFrom]

theorem HasShape.notAhead (hr : r.HasShape shape) :
    (ahead false r).HasShape fun before taken after =>
      taken = [] ∧ ∀ first more, after = first ++ more → ¬shape before first more := by
  intro before rest captures next
  simp only [runs, mem_lookFrom_false, hr before rest captures]
  constructor
  · rintro ⟨rfl, hnone⟩
    refine ⟨[], rest, rfl, rfl, rfl, fun first more hrest hshape => ?_⟩
    exact hnone _ ⟨first, more, hrest, rfl, hshape⟩
  · rintro ⟨taken, after, rfl, rfl, rfl, hnone⟩
    refine ⟨rfl, ?_⟩
    rintro other ⟨first, more, hrest, -, hshape⟩
    exact hnone first more hrest hshape

/-- The places where a look-behind finds its body: a text of its width that ends right here. -/
theorem HasShape.mem_behind (hr : r.HasShape shape) {width : Nat} {before rest : List Char}
    {captures : List (Nat × List Char)} {next : Place} :
    next ∈ (if before.length < width then [] else
        (r.runs (before ++ rest) ⟨before.length - width, captures⟩).filter
          (·.pos == before.length)) ↔
      next = ⟨before.length, captures⟩ ∧ ∃ earlier last, before = earlier ++ last ∧
        last.length = width ∧ shape earlier last rest := by
  by_cases hwidth : before.length < width
  · simp only [hwidth, if_true, List.not_mem_nil, false_iff]
    rintro ⟨-, earlier, last, rfl, hlast, -⟩
    rw [List.length_append] at hwidth
    omega
  simp only [hwidth, if_false, List.mem_filter, beq_iff_eq]
  constructor
  · rintro ⟨hnext, hpos⟩
    have hlength : (before.take (before.length - width)).length = before.length - width := by simp
    rw [← hlength, ← List.take_append_drop (before.length - width) before, List.append_assoc,
      List.take_append_drop] at hnext
    obtain ⟨taken, after, hrest, rfl, hshape⟩ := (hr _ _ _ _).mp hnext
    -- the match ends right here, so what it took is all that stands between
    have htaken : taken.length = (before.drop (before.length - width)).length := by
      simp only [hlength] at hpos
      rw [List.length_drop]
      omega
    obtain ⟨rfl, rfl⟩ := List.append_inj hrest htaken.symm
    refine ⟨congrArg (Place.mk · captures) hpos, _, _, (List.take_append_drop _ _).symm, ?_,
      hshape⟩
    rw [List.length_drop]
    omega
  · rintro ⟨rfl, earlier, last, rfl, rfl, hshape⟩
    refine ⟨?_, rfl⟩
    have hstart : (earlier ++ last).length - last.length = earlier.length := by simp
    rw [hstart, List.append_assoc]
    exact (hr _ _ _ _).mpr ⟨last, rest, rfl, by simp, hshape⟩

theorem HasShape.notBehind (hr : r.HasShape shape) (width : Nat) :
    (behind false width r).HasShape fun before taken after => taken = [] ∧
      ∀ earlier last, before = earlier ++ last → last.length = width →
        ¬shape earlier last after := by
  intro before rest captures next
  simp only [runs, mem_lookFrom_false, hr.mem_behind]
  constructor
  · rintro ⟨rfl, hnone⟩
    refine ⟨[], rest, rfl, rfl, rfl, fun earlier last hbefore hlast hshape => ?_⟩
    exact hnone _ ⟨rfl, earlier, last, hbefore, hlast, hshape⟩
  · rintro ⟨taken, after, rfl, rfl, rfl, hnone⟩
    refine ⟨rfl, ?_⟩
    rintro other ⟨-, earlier, last, hbefore, hlast, hshape⟩
    exact hnone earlier last hbefore hlast hshape

/-- No character of the set stands right behind this place. -/
theorem hasShape_notAhead_one (set : CharSet) : (ahead false (one set)).HasShape
    fun _ taken after => taken = [] ∧ HeadFree set.contains after := by
  refine (hasShape_one set).notAhead.congr fun before taken after => ?_
  refine and_congr_right fun _ => ?_
  constructor
  · intro hnone c hc
    obtain ⟨tail, rfl⟩ := List.head?_eq_some_iff.mp hc
    by_contra hset
    exact hnone [c] tail rfl ⟨c, rfl, by simpa using hset⟩
  · rintro hfree first more rfl ⟨c, rfl, hset⟩
    rw [List.singleton_append, headFree_cons, hset] at hfree
    exact absurd hfree (by simp)

/-- No character of the set stands right before this place. -/
theorem hasShape_notBehind_one (set : CharSet) : (behind false 1 (one set)).HasShape
    fun before taken _ => taken = [] ∧ HeadFree set.contains before.reverse := by
  refine ((hasShape_one set).notBehind 1).congr fun before taken after => ?_
  refine and_congr_right fun _ => ?_
  constructor
  · intro hnone c hc
    obtain ⟨tail, htail⟩ := List.head?_eq_some_iff.mp hc
    by_contra hset
    refine hnone tail.reverse [c] ?_ rfl ⟨c, rfl, by simpa using hset⟩
    rw [← List.reverse_reverse before, htail, List.reverse_cons]
  · rintro hfree earlier last rfl - ⟨c, rfl, hset⟩
    rw [List.reverse_append, List.reverse_singleton, List.singleton_append, headFree_cons,
      hset] at hfree
    exact absurd hfree (by simp)

/-! ## Whole texts and searches -/

theorem matchesWhole_iff {text : List Char} : r.matchesWhole text = true ↔
    ∃ stop ∈ r.runs text (.at 0), stop.pos = text.length := by
  simp only [Regex.matchesWhole, List.any_eq_true, beq_iff_eq]

theorem HasShape.matchesWhole (hr : r.HasShape shape) {text : List Char} :
    r.matchesWhole text = true ↔ shape [] text [] := by
  rw [matchesWhole_iff]
  have hruns := hr [] text []
  simp only [List.nil_append, List.length_nil, Nat.zero_add] at hruns
  constructor
  · rintro ⟨next, hnext, hpos⟩
    obtain ⟨taken, after, rfl, rfl, hshape⟩ := (hruns next).mp hnext
    have hafter : after = [] := by simpa using hpos
    simpa [hafter] using hshape
  · intro hshape
    exact ⟨⟨text.length, []⟩, (hruns _).mpr ⟨text, [], by simp, rfl, hshape⟩, rfl⟩

/-- A search tries every place, and finds something where there is a match. -/
theorem isFoundIn_iff {text : List Char} : r.isFoundIn text = true ↔
    ∃ start ≤ text.length, ∃ next, next ∈ r.runs text (.at start) := by
  have hspan : ∀ start, (r.spanAt? text start).isSome ↔ ∃ next, next ∈ r.runs text (.at start) := by
    intro start
    unfold spanAt?
    cases hruns : r.runs text (.at start) with
    | nil => simp
    | cons first rest =>
        simp only [List.head?_cons, Option.map_some, Option.isSome_some, true_iff]
        exact ⟨first, List.mem_cons_self⟩
  have hplace : ∀ start, start ∈ List.range' 0 (text.length + 1 - 0) ↔ start ≤ text.length := by
    intro start
    rw [List.mem_range'_1]
    omega
  simp only [Regex.isFoundIn, find?, List.findSome?_isSome_iff, hspan, hplace]

theorem HasShape.isFoundIn (hr : r.HasShape shape) {text : List Char} :
    r.isFoundIn text = true ↔
      ∃ before taken after, text = before ++ (taken ++ after) ∧ shape before taken after := by
  rw [isFoundIn_iff]
  constructor
  · rintro ⟨start, hstart, next, hnext⟩
    have hlength : (text.take start).length = start := by simp [hstart]
    have hnext' : next ∈ r.runs (text.take start ++ text.drop start)
        ⟨(text.take start).length, []⟩ := by
      rw [List.take_append_drop, hlength]
      exact hnext
    obtain ⟨taken, after, hrest, -, hshape⟩ := (hr _ _ _ _).mp hnext'
    exact ⟨_, taken, after, by rw [← hrest, List.take_append_drop], hshape⟩
  · rintro ⟨before, taken, after, rfl, hshape⟩
    exact ⟨before.length, by simp, _, (hr _ _ _ _).mpr ⟨taken, after, rfl, rfl, hshape⟩⟩

end Regex

end EquationPractice
