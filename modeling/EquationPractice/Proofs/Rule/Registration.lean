import EquationPractice.Proofs.Results
import EquationPractice.Rule.Catalogue

/-!
# Calls on a catalogue

What a run of registrations makes of a catalogue, some of which fail.  The rules and their index are
kept in step by every call: the index finds a source exactly where the rules have it, and no source
stands twice.  Everything that is found in a catalogue follows from that and from the order in which
the rules came.

## Main definitions

* `Rule.Created`: the rules that there can be.
* `Catalogue.Call`: one call, with the rule that it offers.
* `Catalogue.after`, `Catalogue.registered`: the catalogue that a run of calls leaves, and the rules
  that the run put into it.
* `Catalogue.InStep`: the invariant.

## Main results

* `Catalogue.perform_eq`: all that one call can do.
* `Catalogue.InStep.perform`, `Catalogue.InStep.after`: the invariant along a run.
* `Catalogue.registration_run`: what holds after every run from a fresh or the standard catalogue.
-/

namespace EquationPractice

namespace Rule

variable {rule : Rule}

/-- The rules that there can be: each was created from its source. -/
def Created (rule : Rule) : Prop :=
  ∃ full other twice, create rule.source full other twice = .ok rule

theorem created_of_create {source : String} {full other twice : List String}
    (hcreate : create source full other twice = .ok rule) :
    rule.Created ∧ Regex.read? maxSourceDepth source.toList = some rule.regex := by
  have hparts := hcreate
  unfold create at hparts
  split at hparts
  · cases hparts
  · split at hparts
    · next regex hread =>
        obtain rfl := Except.ok.inj hparts
        exact ⟨⟨full, other, twice, hcreate⟩, hread⟩
    · cases hparts

theorem Created.read?_source (hcreated : rule.Created) :
    Regex.read? maxSourceDepth rule.source.toList = some rule.regex := by
  obtain ⟨full, other, twice, hcreate⟩ := hcreated
  exact (created_of_create hcreate).2

end Rule

namespace Catalogue

/-- A call on a catalogue: a rule to put into it, or the parts of a rule to create first. -/
inductive Call where
  | register (rule : Rule)
  | define (source : String) (full other twice : List String)
  deriving DecidableEq, Repr

/-- The change that a call asks for. -/
def Call.change : Call → Change Rule
  | register rule => add rule
  | define source full other twice => addNew source full other twice

/-- The rule that a call offers, unless it cannot be created. -/
def Call.offer : Call → Except RuleError Rule
  | register rule => .ok rule
  | define source full other twice => Rule.create source full other twice

/-- The answer to a call, and the catalogue that the call leaves. -/
def perform (catalogue : Catalogue) (call : Call) : Except RuleError Rule × Catalogue :=
  call.change.run.run catalogue

/-- The catalogue that a run of calls leaves. -/
def after (start : Catalogue) (calls : List Call) : Catalogue :=
  calls.foldl (fun catalogue call => (catalogue.perform call).2) start

/-- The rules for which a call of the run succeeded, in order. -/
def registered (start : Catalogue) : List Call → List Rule
  | [] => []
  | call :: rest =>
      (start.perform call).1.toOption.toList ++ (start.perform call).2.registered rest

variable {catalogue start : Catalogue} {rule : Rule} {call : Call} {calls more : List Call}
  {source : String} {error : RuleError}

/-! ## Runs -/

@[simp] theorem after_nil : start.after [] = start := rfl

@[simp] theorem after_cons :
    start.after (call :: calls) = (start.perform call).2.after calls := rfl

theorem after_append : start.after (calls ++ more) = (start.after calls).after more :=
  List.foldl_append ..

/-! ## Sources -/

theorem isSome_find?_iff : (catalogue.rules.find? (·.source == source)).isSome = true ↔
    source ∈ catalogue.sources := by
  simp [sources]

/-! ## One call -/

/-- The catalogue with a rule at its end and in its index. -/
def extended (catalogue : Catalogue) (rule : Rule) : Catalogue :=
  ⟨catalogue.rules ++ [rule], (rule.source, catalogue.rules.length) :: catalogue.index⟩

@[simp] theorem rules_extended : (catalogue.extended rule).rules = catalogue.rules ++ [rule] := rfl

@[simp] theorem sources_extended :
    (catalogue.extended rule).sources = catalogue.sources ++ [rule.source] := by
  simp [sources]

theorem run_add : (add rule).run.run catalogue =
    if (catalogue.index.lookup rule.source).isSome then
      (.error (.invalidSource rule.source .registered), catalogue)
    else (.ok rule, catalogue.extended rule) := by
  -- the look-up is in the catalogue that the change starts from
  change StateT.run (ExceptT.run (ite ((catalogue.index.lookup rule.source).isSome = true) _ _))
    catalogue = _
  by_cases hknown : (catalogue.index.lookup rule.source).isSome = true
  · rw [if_pos hknown, if_pos hknown]
    rfl
  · rw [if_neg hknown, if_neg hknown]
    rfl

/-- All that a call can do: it fails for want of a rule, it fails because the source of its rule is
known, or it puts its rule at the end. -/
theorem perform_eq : catalogue.perform call =
    match call.offer with
    | .error error => (.error error, catalogue)
    | .ok rule =>
        if (catalogue.index.lookup rule.source).isSome then
          (.error (.invalidSource rule.source .registered), catalogue)
        else (.ok rule, catalogue.extended rule) := by
  cases call with
  | register rule => exact run_add
  | define source full other twice =>
      change (addNew source full other twice).run.run catalogue = _
      cases hcreate : Rule.create source full other twice with
      | error e => simp only [addNew, hcreate, Call.offer]; rfl
      | ok rule =>
          simp only [Call.offer, hcreate]
          rw [← run_add]
          simp only [addNew, hcreate]
          rfl

/-- A call that fails leaves the rules and the index as they are. -/
theorem perform_error (hfails : (catalogue.perform call).1 = .error error) :
    (catalogue.perform call).2 = catalogue := by
  rw [perform_eq] at hfails ⊢
  cases hoffer : call.offer with
  | error e => rfl
  | ok rule =>
      rw [hoffer] at hfails
      dsimp only at hfails ⊢
      split at hfails
      · rename_i hknown
        rw [if_pos hknown]
      · cases hfails

theorem perform_ok (hdone : (catalogue.perform call).1 = .ok rule) :
    call.offer = .ok rule ∧ catalogue.index.lookup rule.source = none ∧
      (catalogue.perform call).2 = catalogue.extended rule := by
  rw [perform_eq] at hdone ⊢
  cases hoffer : call.offer with
  | error e => rw [hoffer] at hdone; cases hdone
  | ok offered =>
      rw [hoffer] at hdone
      dsimp only at hdone ⊢
      split at hdone
      · cases hdone
      · rename_i hnew
        obtain rfl : offered = rule := Except.ok.inj hdone
        rw [if_neg hnew]
        exact ⟨rfl, Option.not_isSome_iff_eq_none.mp hnew, rfl⟩

theorem rules_perform : (catalogue.perform call).2.rules =
    catalogue.rules ++ (catalogue.perform call).1.toOption.toList := by
  cases hanswer : (catalogue.perform call).1 with
  | error e => rw [perform_error hanswer]; simp [Except.toOption]
  | ok rule => rw [(perform_ok hanswer).2.2]; simp [Except.toOption]

theorem register_eq_ok {next : Catalogue} : catalogue.register rule = .ok next ↔
    catalogue.index.lookup rule.source = none ∧ next = catalogue.extended rule := by
  unfold register changed
  rw [run_add]
  by_cases hknown : (catalogue.index.lookup rule.source).isSome = true
  · simp [hknown, Option.ne_none_iff_isSome.mpr hknown]
  · simp [Option.not_isSome_iff_eq_none.mp hknown, eq_comm]

/-! ## Rules and index -/

/-- The index finds a source exactly where the rules have it, and no source stands twice. -/
structure InStep (catalogue : Catalogue) : Prop where
  nodup : catalogue.sources.Nodup
  lookup_eq_some_iff : ∀ source place, catalogue.index.lookup source = some place ↔
    catalogue.sources[place]? = some source

namespace InStep

theorem empty : InStep Catalogue.empty where
  nodup := List.nodup_nil
  lookup_eq_some_iff := by simp [Catalogue.empty, sources]

theorem lookup_eq_none_iff (hstep : catalogue.InStep) :
    catalogue.index.lookup source = none ↔ source ∉ catalogue.sources := by
  rw [Option.eq_none_iff_forall_ne_some]
  simp only [ne_eq, hstep.lookup_eq_some_iff, List.mem_iff_getElem?, not_exists]

theorem extended (hstep : catalogue.InStep) (hnew : catalogue.index.lookup rule.source = none) :
    (catalogue.extended rule).InStep := by
  have hnotMem : rule.source ∉ catalogue.sources := hstep.lookup_eq_none_iff.mp hnew
  have hlength : catalogue.sources.length = catalogue.rules.length := List.length_map _
  refine ⟨?_, fun source place => ?_⟩
  · rw [sources_extended, ← List.concat_eq_append]
    exact hstep.nodup.concat hnotMem
  · rw [sources_extended, List.getElem?_append, hlength]
    change List.lookup source ((rule.source, catalogue.rules.length) :: catalogue.index) = _ ↔ _
    rw [List.lookup_cons]
    by_cases hsource : source = rule.source
    · -- the new place is the last one, and no earlier place has the source
      subst hsource
      have hearlier : catalogue.sources[place]? ≠ some rule.source := fun hplace =>
        hnotMem (List.mem_of_getElem? hplace)
      rcases Nat.lt_trichotomy place catalogue.rules.length with hlt | rfl | hlt
      · simp [hlt, hearlier, hlt.ne']
      · simp
      · simp [hlt.ne, hlt.not_gt, Nat.sub_ne_zero_of_lt hlt]
    · rw [beq_eq_false_iff_ne.mpr hsource, hstep.lookup_eq_some_iff]
      by_cases hlt : place < catalogue.rules.length
      · simp [hlt]
      · have hnone : catalogue.sources[place]? = none := by
          rw [List.getElem?_eq_none_iff, hlength]
          omega
        simp [hlt, hnone, List.getElem?_singleton, Ne.symm hsource]

/-- The step: no call puts rules and index out of step. -/
theorem perform (hstep : catalogue.InStep) (call : Call) : (catalogue.perform call).2.InStep := by
  cases hanswer : (catalogue.perform call).1 with
  | error e => rwa [perform_error hanswer]
  | ok rule =>
      obtain ⟨-, hnew, hnext⟩ := perform_ok hanswer
      rw [hnext]
      exact hstep.extended hnew

/-- The run: no sequence of calls does. -/
theorem after (hstep : catalogue.InStep) (calls : List Call) : (catalogue.after calls).InStep := by
  induction calls generalizing catalogue with
  | nil => exact hstep
  | cons call rest ih => exact ih (hstep.perform call)

/-- What is found is the one rule with that source. -/
theorem get?_eq_find? (hstep : catalogue.InStep) (source : String) :
    catalogue.get? source = catalogue.rules.find? (·.source == source) := by
  unfold get?
  cases hlookup : catalogue.index.lookup source with
  | none =>
      have hnotMem : source ∉ catalogue.sources := hstep.lookup_eq_none_iff.mp hlookup
      exact (Option.not_isSome_iff_eq_none.mp (mt isSome_find?_iff.mp hnotMem)).symm
  | some place =>
      have hplace : catalogue.sources[place]? = some source :=
        (hstep.lookup_eq_some_iff source place).mp hlookup
      rw [sources, List.getElem?_map, Option.map_eq_some_iff] at hplace
      obtain ⟨rule, hrule, rfl⟩ := hplace
      have hmem : rule ∈ catalogue.rules := List.mem_of_getElem? hrule
      obtain ⟨found, hfound⟩ := Option.isSome_iff_exists.mp
        (isSome_find?_iff.mpr (List.mem_map.mpr ⟨rule, hmem, rfl⟩))
      have heq : found = rule := List.inj_on_of_nodup_map hstep.nodup
        (List.mem_of_find?_eq_some hfound) hmem (eq_of_beq (List.find?_some hfound :))
      rw [hfound, heq]
      exact hrule

/-- What is found is the first rule with that source that was ever offered, whatever came after. -/
theorem find?_rules_after (hstep : catalogue.InStep) (calls : List Call) (source : String) :
    (catalogue.after calls).rules.find? (·.source == source) =
      (catalogue.rules ++ calls.filterMap (·.offer.toOption)).find? (·.source == source) := by
  induction calls generalizing catalogue with
  | nil => simp
  | cons call rest ih =>
      rw [after_cons, ih (hstep.perform call), List.filterMap_cons]
      cases hoffer : call.offer with
      | error e => simp [perform_eq, hoffer, Except.toOption]
      | ok rule =>
          by_cases hnew : catalogue.index.lookup rule.source = none
          · simp [perform_eq, hoffer, hnew, Except.toOption]
          · -- the rule is refused, and one with its source comes before it
            have hmem : rule.source ∈ catalogue.sources := by
              rwa [hstep.lookup_eq_none_iff, not_not] at hnew
            have hsame : (catalogue.perform call).2 = catalogue := by
              simp [perform_eq, hoffer, Option.isSome_iff_ne_none.mpr hnew]
            rw [hsame]
            by_cases hsource : rule.source = source
            · obtain ⟨found, hfound⟩ := Option.isSome_iff_exists.mp
                (isSome_find?_iff.mpr (hsource ▸ hmem))
              simp [List.find?_append, hfound]
            · simp [List.find?_append, Except.toOption, hsource]

end InStep

/-- A rule is defined by creating it and registering it. -/
theorem define_eq_ok {full other twice : List String} {next : Catalogue} :
    catalogue.define source full other twice = .ok next ↔
      ∃ rule, Rule.create source full other twice = .ok rule ∧ catalogue.register rule = .ok next := by
  have hdefine : catalogue.define source full other twice =
      Rule.create source full other twice >>= catalogue.register := by
    unfold define addNew
    cases Rule.create source full other twice <;> rfl
  rw [hdefine, bind_eq_ok]

/-- The standard catalogue is made by registrations that all succeed. -/
theorem standard_induction {motive : Catalogue → Prop} (hempty : motive .empty)
    (hregister : ∀ (catalogue next : Catalogue) (form : StandardForm) (rule : Rule),
      motive catalogue → form.rule = .ok rule → catalogue.register rule = .ok next → motive next)
    (hstandard : standard = .ok start) : motive start := by
  have hfold : ∀ (forms : List StandardForm) (catalogue : Catalogue), motive catalogue →
      forms.foldlM (fun catalogue form => do catalogue.register (← form.rule)) catalogue =
        .ok start → motive start := by
    intro forms
    induction forms with
    | nil => intro catalogue hmotive hdone; exact Except.ok.inj hdone ▸ hmotive
    | cons form rest ih =>
        intro catalogue hmotive hdone
        rw [List.foldlM_cons, bind_eq_ok] at hdone
        obtain ⟨next, hnext, hrest⟩ := hdone
        obtain ⟨rule, hrule, hdone⟩ := bind_eq_ok.mp hnext
        exact ih _ (hregister _ _ form rule hmotive hrule hdone) hrest
  exact hfold _ _ hempty hstandard

theorem InStep.register {next : Catalogue} (hstep : catalogue.InStep)
    (hdone : catalogue.register rule = .ok next) : next.InStep := by
  obtain ⟨hnew, rfl⟩ := register_eq_ok.mp hdone
  exact hstep.extended hnew

theorem inStep_standard (hstandard : standard = .ok start) : start.InStep :=
  standard_induction .empty (fun _ _ _ _ hstep _ hdone => hstep.register hdone) hstandard

/-! ## Runs from a fresh or the standard catalogue -/

theorem rules_after : (start.after calls).rules = start.rules ++ start.registered calls := by
  induction calls generalizing start with
  | nil => simp [registered]
  | cons call rest ih => rw [after_cons, ih, rules_perform, registered, List.append_assoc]

/-- A call succeeds exactly with a rule that can be created and whose source is not found yet. -/
theorem perform_eq_ok_iff (hstep : catalogue.InStep) : (catalogue.perform call).1 = .ok rule ↔
    call.offer = .ok rule ∧ catalogue.get? rule.source = none := by
  have hfound : catalogue.get? rule.source = none ↔
      catalogue.index.lookup rule.source = none := by
    rw [hstep.get?_eq_find?, ← Option.not_isSome_iff_eq_none, isSome_find?_iff,
      hstep.lookup_eq_none_iff]
  refine ⟨fun hdone => ?_, fun ⟨hoffer, hnew⟩ => ?_⟩
  · obtain ⟨hoffer, hnew, -⟩ := perform_ok hdone
    exact ⟨hoffer, hfound.mpr hnew⟩
  · simp [perform_eq, hoffer, hfound.mp hnew]

/-- After any run of calls, whichever of them failed: the catalogue holds the registered rules in
their order, no source twice, and index and rules in step; what is found under a source is the first
rule registered with it, which is the first one ever offered; the next call succeeds exactly with a
rule of a new source, and changes nothing when it fails; and what is found stays found. -/
theorem registration_run (hstart : start = .empty ∨ standard = .ok start) (calls : List Call) :
    (start.after calls).rules = start.rules ++ start.registered calls ∧
    (start.after calls).size = start.size + (start.registered calls).length ∧
    (start.after calls).sources.Nodup ∧
    (∀ source place, (start.after calls).index.lookup source = some place ↔
      (start.after calls).sources[place]? = some source) ∧
    (∀ source, (start.after calls).get? source =
      (start.rules ++ start.registered calls).find? (·.source == source)) ∧
    (∀ source, (start.after calls).get? source =
      (start.rules ++ calls.filterMap (·.offer.toOption)).find? (·.source == source)) ∧
    (∀ call rule, ((start.after calls).perform call).1 = .ok rule ↔
      call.offer = .ok rule ∧ (start.after calls).get? rule.source = none) ∧
    (∀ call error, ((start.after calls).perform call).1 = .error error →
      ((start.after calls).perform call).2 = start.after calls) ∧
    ∀ more source rule, (start.after calls).get? source = some rule →
      (start.after (calls ++ more)).get? source = some rule := by
  have hinit : start.InStep := by
    rcases hstart with rfl | hstandard
    · exact .empty
    · exact inStep_standard hstandard
  have hstep : (start.after calls).InStep := hinit.after calls
  refine ⟨rules_after, ?_, hstep.nodup, hstep.lookup_eq_some_iff, fun source => ?_,
    fun source => ?_, fun call rule => perform_eq_ok_iff hstep, fun call error => perform_error,
    fun more source rule hfound => ?_⟩
  · simp [size, rules_after]
  · rw [hstep.get?_eq_find?, rules_after]
  · rw [hstep.get?_eq_find?, hinit.find?_rules_after]
  · -- the rules of the longer run begin with those of the shorter one
    rw [hstep.get?_eq_find?] at hfound
    rw [after_append, (hstep.after more).get?_eq_find?, rules_after, List.find?_append, hfound,
      Option.some_or]

/-- A source that is offered again with other examples, one that cannot be read and one with a space
are refused; under the first source the first rule is still found. -/
theorem registration_run_refusals : ∃ calls : List Call, ∃ rule,
    calls = [.define "a+" ["a"] ["b"] ["aba"], .define "a+" ["aa"] ["c"] ["aca"],
      .define "(" ["a"] ["b"] ["aba"], .define "a b" ["a b"] ["b"] ["a ba b"],
      .define "b+" ["b"] ["a"] ["bab"]] ∧
    Rule.create "a+" ["a"] ["b"] ["aba"] = .ok rule ∧
    (empty.after calls).sources = ["a+", "b+"] ∧ (empty.after calls).get? "a+" = some rule := by
  refine ⟨_, ⟨"a+", .loop 1 none true true (.one (.single 'a')), ["a"], ["b"], ["aba"]⟩, rfl, by
    decide +kernel, ?_⟩
  obtain ⟨hrules, -, -, -, -, hfirst, -⟩ := registration_run (.inl rfl)
    [.define "a+" ["a"] ["b"] ["aba"], .define "a+" ["aa"] ["c"] ["aca"],
      .define "(" ["a"] ["b"] ["aba"], .define "a b" ["a b"] ["b"] ["a ba b"],
      .define "b+" ["b"] ["a"] ["bab"]]
  rw [sources, hrules, hfirst]
  exact ⟨by decide +kernel, by decide +kernel⟩

end Catalogue

end EquationPractice
