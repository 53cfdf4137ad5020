import EquationPractice.Proofs.Regex.Loops
import EquationPractice.Proofs.Regex.Shapes
import EquationPractice.Regex.Search

/-!
# What a scan of a text meets

Whatever a pattern is made of, it never ends a match before its beginning nor behind the end of the
text: a look-around comes back to where it began, a reference takes what it finds ahead, and a loop
does what its rounds do, however many of them take nothing.  So a scan for matches moves on with every
match it meets, at most one begins at each place of the text, and one is met exactly if the text has
one at all.

## Main definitions

* `Reaches`: a place that a match from another place may end at.

## Main results

* `Regex.reaches_of_mem_runs`: where matches end, for every pattern.
* `Regex.length_spansFrom_le`: how many matches a scan meets from a place on.
* `Regex.isFoundIn_iff_count`, `Regex.count_le`: a search and a scan of the whole text.
-/

namespace EquationPractice

variable {step : Place → List Place} {place next : Place} {places found : List Place}
  {greedy keepsEmpty : Bool} {length fuel : ℕ}

/-! ## What a loop keeps -/

/-- A walk arrives only where a property holds that every round keeps. -/
theorem forall_mem_walk {keeps : Place → Prop}
    (hstep : ∀ place, keeps place → ∀ next ∈ step place, keeps next) (hplace : keeps place)
    (hfound : ∀ other ∈ found, keeps other) :
    ∀ other ∈ walk step greedy keepsEmpty fuel found place, keeps other := by
  have hnew : ∀ {found : List Place} {place : Place}, (∀ other ∈ found, keeps other) →
      keeps place → ∀ other ∈ addNew found place, keeps other := by
    intro found place hfound hplace other hother
    rcases mem_addNew.mp hother with hother | rfl
    · exact hfound other hother
    · exact hplace
  induction fuel generalizing found place with
  | zero => exact hnew hfound hplace
  | succ fuel ih =>
      by_cases hmem : place ∈ found
      · simpa only [walk, hmem, if_true] using hfound
      -- the steps are walked on one after another, each from what was found by then
      have hsteps : ∀ start : List Place, (∀ other ∈ start, keeps other) →
          ∀ other ∈ (step place).foldl (fun found next =>
            if place.pos < next.pos then walk step greedy keepsEmpty fuel found next
            else if keepsEmpty then addNew found next
            else found) start, keeps other := by
        intro start hstart
        refine List.foldlRecOn (motive := fun found => ∀ other ∈ found, keeps other) (step place) _
          hstart fun found hfound next hnext => ?_
        have hnext : keeps next := hstep place hplace next hnext
        by_cases hlt : place.pos < next.pos
        · simpa only [hlt, if_true] using ih hnext hfound
        · cases keepsEmpty with
          | true => simpa only [hlt, if_true, if_false] using hnew hfound hnext
          | false => simpa only [hlt, if_false, Bool.false_eq_true] using hfound
      cases greedy with
      | true =>
          simpa only [walk, hmem, if_false, if_true] using hnew (hsteps found hfound) hplace
      | false =>
          have hstart : ∀ other ∈ found ++ [place], keeps other := by
            simpa [or_imp, forall_and] using ⟨hfound, hplace⟩
          simpa only [walk, hmem, if_false, Bool.false_eq_true] using hsteps _ hstart

theorem forall_mem_walkAll {keeps : Place → Prop}
    (hstep : ∀ place, keeps place → ∀ next ∈ step place, keeps next)
    (hplaces : ∀ place ∈ places, keeps place) :
    ∀ other ∈ walkAll step greedy keepsEmpty length places, keeps other :=
  List.foldlRecOn (motive := fun found => ∀ other ∈ found, keeps other) places _ (by simp)
    fun _ hfound place hplace => forall_mem_walk hstep (hplaces place hplace) hfound

theorem Steps.keeps {keeps : Place → Prop}
    (hstep : ∀ place, keeps place → ∀ next ∈ step place, keeps next) {n : ℕ}
    (hplace : keeps place) (hsteps : Steps step n place next) : keeps next := by
  induction n generalizing place with
  | zero => exact (show next = place from hsteps) ▸ hplace
  | succ n ih =>
      obtain ⟨between, hbetween, hsteps⟩ := hsteps
      exact ih (hstep place hplace between hbetween) hsteps

namespace Regex

variable {r : Regex} {text : List Char} {span : Span} {from_ : ℕ} {last : Option ℕ}

theorem forall_mem_runs_loop {keeps : Place → Prop} {least : ℕ} {most : Option ℕ}
    (hstep : ∀ place, keeps place → ∀ next ∈ r.runs text place, keeps next) (hplace : keeps place)
    (hnext : next ∈ (loop least most greedy keepsEmpty r).runs text place) : keeps next := by
  cases most with
  | some most =>
      obtain ⟨n, -, -, hsteps⟩ := mem_runs_bounded.mp hnext
      exact hsteps.keeps hstep hplace
  | none =>
      refine forall_mem_walkAll hstep (fun other hother => ?_) next hnext
      obtain ⟨start, hstart, hsteps⟩ := mem_rounds.mp hother
      rw [List.mem_singleton.mp hstart] at hsteps
      exact hsteps.keeps hstep hplace

/-! ## Where matches end -/

/-- The second place is not before the first one, and not behind the end of the text unless the first
one is. -/
def Reaches (length : ℕ) (place next : Place) : Prop :=
  place.pos ≤ next.pos ∧ next.pos ≤ max place.pos length

theorem Reaches.of_pos_eq (hpos : next.pos = place.pos) : Reaches length place next := by
  unfold Reaches
  omega

theorem Reaches.trans {later : Place} (hfirst : Reaches length place next)
    (hsecond : Reaches length next later) : Reaches length place later := by
  unfold Reaches at hfirst hsecond ⊢
  omega

theorem pos_of_mem_lookFrom {positive : Bool} {ends : List Place}
    (hnext : next ∈ lookFrom place positive ends) : next.pos = place.pos := by
  unfold lookFrom at hnext
  split at hnext
  · simp only [mem_addAll, List.not_mem_nil, false_or, List.mem_map] at hnext
    obtain ⟨stop, -, rfl⟩ := hnext
    rfl
  · split at hnext
    · rw [List.mem_singleton.mp hnext]
    · cases hnext

/-- A match ends where it began or later, and within the text. -/
theorem reaches_of_mem_runs (r : Regex) :
    ∀ {place next}, next ∈ r.runs text place → Reaches text.length place next := by
  induction r with
  | empty =>
      intro place next hnext
      exact .of_pos_eq (congrArg Place.pos (List.mem_singleton.mp hnext))
  | one set =>
      intro place next hnext
      rw [runs] at hnext
      split at hnext
      · next c hc =>
          have hlt : place.pos < text.length := (List.getElem?_eq_some_iff.mp hc).1
          split at hnext
          · obtain rfl := List.mem_singleton.mp hnext
            unfold Reaches
            dsimp only
            omega
          · cases hnext
      · cases hnext
  | anchor condition =>
      intro place next hnext
      rw [runs] at hnext
      split at hnext
      · exact .of_pos_eq (congrArg Place.pos (List.mem_singleton.mp hnext))
      · cases hnext
  | seq r s ihr ihs =>
      intro place next hnext
      obtain ⟨mid, hmid, hnext⟩ := mem_gather.mp hnext
      exact (ihr hmid).trans (ihs hnext)
  | alt r s ihr ihs =>
      intro place next hnext
      rcases mem_addAll.mp hnext with hnext | hnext
      · exact ihr hnext
      · exact ihs hnext
  | loop least most greedy keepsEmpty r ih =>
      intro place next hnext
      refine forall_mem_runs_loop ?_ (Reaches.of_pos_eq rfl : Reaches text.length place place) hnext
      exact fun other hother last hlast => hother.trans (ih hlast)
  | group index r ih =>
      intro place next hnext
      simp only [runs, mem_addAll, List.not_mem_nil, false_or, List.mem_map] at hnext
      obtain ⟨stop, hstop, rfl⟩ := hnext
      have hreaches : Reaches text.length place stop := ih hstop
      exact hreaches
  | backref index =>
      intro place next hnext
      rw [runs] at hnext
      split at hnext
      · next captured hcaptured =>
          split at hnext
          · next hahead =>
              have hlength := (List.isPrefixOf_iff_prefix.mp hahead).length_le
              rw [List.length_drop] at hlength
              obtain rfl := List.mem_singleton.mp hnext
              unfold Reaches
              dsimp only
              omega
          · cases hnext
      · cases hnext
  | atomic r ih =>
      intro place next hnext
      exact ih (List.mem_of_mem_take hnext)
  | ahead positive r ih =>
      intro place next hnext
      exact .of_pos_eq (pos_of_mem_lookFrom hnext)
  | behind positive width r ih =>
      intro place next hnext
      exact .of_pos_eq (pos_of_mem_lookFrom hnext)

/-! ## Searches and scans -/

/-- The preferred match at a place is one of the matches there. -/
theorem spanAt?_eq_some {start : ℕ} (hspan : r.spanAt? text start = some span) :
    span.start = start ∧ ⟨span.stop, span.captures⟩ ∈ r.runs text (.at start) := by
  obtain ⟨stop, hstop, rfl⟩ := Option.map_eq_some_iff.mp hspan
  exact ⟨rfl, List.mem_of_mem_head? hstop⟩

/-- A search finds a match that begins where it starts or later, and that lies within the text. -/
theorem find?_eq_some (hfind : r.find? text from_ = some span) :
    from_ ≤ span.start ∧ span.start ≤ span.stop ∧ span.stop ≤ text.length := by
  obtain ⟨start, hstart, hspan⟩ := List.exists_of_findSome?_eq_some hfind
  obtain ⟨rfl, hmem⟩ := spanAt?_eq_some hspan
  obtain ⟨hforward, hwithin⟩ := r.reaches_of_mem_runs hmem
  rw [List.mem_range'_1] at hstart
  simp only [Place.at] at hforward hwithin
  omega

/-- From a place on, a scan meets at most one match for each place that is left. -/
theorem length_spansFrom_le (r : Regex) (text : List Char) :
    ∀ fuel from_ last, (r.spansFrom text fuel from_ last).length ≤ text.length + 1 - from_ := by
  intro fuel
  induction fuel with
  | zero => simp [spansFrom]
  | succ fuel ih =>
      intro from_ last
      rw [spansFrom]
      cases hfind : r.find? text from_ with
      | none => simp
      | some span =>
          obtain ⟨hstart, hforward, hwithin⟩ := find?_eq_some hfind
          dsimp only
          split
          · -- a match that takes something moves the scan on by itself
            have hrest := ih span.stop (some span.stop)
            rw [List.length_cons]
            omega
          · split
            · have hrest := ih (span.stop + 1) last
              omega
            · have hrest := ih (span.stop + 1) (some span.stop)
              rw [List.length_cons]
              omega

/-- A text has at most as many matches as it has places. -/
theorem count_le (r : Regex) (text : List Char) : r.count text ≤ text.length + 1 :=
  r.length_spansFrom_le text (text.length + 2) 0 none

/-- What a search finds first is the first match that a scan meets. -/
theorem isFoundIn_iff_count (r : Regex) (text : List Char) :
    r.isFoundIn text = true ↔ 1 ≤ r.count text := by
  unfold isFoundIn count spans
  rw [spansFrom]
  cases r.find? text 0 with
  | none => simp
  | some span =>
      -- no match was met before, so this one is not passed over
      dsimp only
      split
      · simp
      · simp

/-- A text that matches as a whole has a match. -/
theorem isFoundIn_of_matchesWhole (hwhole : r.matchesWhole text = true) :
    r.isFoundIn text = true := by
  obtain ⟨stop, hstop, -⟩ := matchesWhole_iff.mp hwhole
  exact isFoundIn_iff.mpr ⟨0, Nat.zero_le _, stop, hstop⟩

end Regex

end EquationPractice
