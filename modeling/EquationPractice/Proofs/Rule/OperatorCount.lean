import EquationPractice.Exercise.Judge
import EquationPractice.Proofs.Regex.Counting
import EquationPractice.Proofs.Rule.StandardForms
import EquationPractice.Proofs.Text.Runs

/-!
# Operators in a row

The rule against operators in a row takes two of them at a time.  A maximal run of operators is gone
through in pairs from its left end, and in a run of odd length the last operator is left over; a match
never reaches beyond the end of a run.  So a text has a match exactly if two operators are next to each
other in it, and every judge holds typed texts against this rule first.

Which rule a judge holds them against depends on the catalogue it was created with.  A catalogue finds
a rule by its source, and in the catalogues that there can be every rule was read from its source, so
the rule is the same in all of them.

## Main definitions

* `isOperator`, `AdjacentOperators`: the operators, and a text with two of them in a row.
* `Catalogue.Built`: the catalogues that there can be.

## Main results

* `counts_operators`: what is counted from any place on, run by run.
* `Catalogue.Built.regex_eq`: every catalogue has the same pattern for a standard form.
* `count_adjacentOperators`: the number of matches, and the judges that refuse such texts.
-/

namespace EquationPractice

open StandardForm Regex

variable {before word rest taken after : List Char} {c d : Char} {n : ℕ}

/-- A character that may not stand next to another one of its kind. -/
def isOperator (c : Char) : Bool :=
  c == '+' || c == '-' || c == '*' || c == '/'

/-- Two operators are next to each other in the text. -/
def AdjacentOperators (text : List Char) : Prop :=
  ∃ first second, isOperator first = true ∧ isOperator second = true ∧ [first, second] <:+: text

/-! ## Matches -/

/-- What the rule takes: two operators. -/
def operatorPair : Shape := fun _ taken _ =>
  taken.length = 2 ∧ ∀ c ∈ taken, operators.contains c = true

theorem contains_operators (c : Char) : operators.contains c = isOperator c := by
  rw [Bool.eq_iff_iff]
  simp only [operators, CharSet.contains, isOperator, Bool.or_eq_true, beq_iff_eq]
  tauto

theorem hasShape_adjacentOperators : adjacentOperators.regex.HasShape operatorPair :=
  hasShape_times operators 2 true true

theorem operatorPair_pair (hc : isOperator c = true) (hd : isOperator d = true) :
    operatorPair before [c, d] after := by
  simp [operatorPair, contains_operators, hc, hd]

/-- A match begins with two operators. -/
theorem operatorPair_cons (htext : c :: rest = taken ++ after)
    (hshape : operatorPair before taken after) :
    isOperator c = true ∧ ¬HeadFree isOperator rest := by
  obtain ⟨hlength, hall⟩ := hshape
  obtain ⟨first, second, rfl⟩ := List.length_eq_two.mp hlength
  obtain ⟨rfl, rfl⟩ := List.cons.inj htext
  have hfirst := hall c (by simp)
  have hsecond := hall second (by simp)
  rw [contains_operators] at hfirst hsecond
  exact ⟨hfirst, by simp [hsecond]⟩

theorem isFoundIn_adjacentOperators {text : List Char} :
    adjacentOperators.regex.isFoundIn text = true ↔ AdjacentOperators text := by
  rw [hasShape_adjacentOperators.isFoundIn]
  constructor
  · rintro ⟨before, taken, after, rfl, hlength, hall⟩
    obtain ⟨first, second, rfl⟩ := List.length_eq_two.mp hlength
    refine ⟨first, second, ?_, ?_, before, after, by simp⟩
    · simpa [contains_operators] using hall first (by simp)
    · simpa [contains_operators] using hall second (by simp)
  · rintro ⟨first, second, hfirst, hsecond, before, after, rfl⟩
    exact ⟨before, [first, second], after, by simp, operatorPair_pair hfirst hsecond⟩

/-! ## Counting run by run -/

/-- Where a character is no operator, or no operator stands behind it, no match begins. -/
theorem counts_cons (hfree : isOperator c = false ∨ HeadFree isOperator rest)
    (hcount : adjacentOperators.regex.Counts (before ++ [c]) rest n) :
    adjacentOperators.regex.Counts before (c :: rest) n := by
  refine Counts.skip (hasShape_adjacentOperators.spanAt?_eq_none ?_) hcount
  intro taken after htext hshape
  obtain ⟨hc, hrest⟩ := operatorPair_cons htext hshape
  rcases hfree with hother | hfree
  · simp [hother] at hc
  · exact hrest hfree

/-- Where two operators stand, they are the match. -/
theorem counts_pair (hc : isOperator c = true) (hd : isOperator d = true)
    (hcount : adjacentOperators.regex.Counts (before ++ [c, d]) rest n) :
    adjacentOperators.regex.Counts before (c :: d :: rest) (n + 1) := by
  have hpair : operatorPair before [c, d] rest := operatorPair_pair hc hd
  have hspan := hasShape_adjacentOperators.spanAt?_eq_some hpair fun other tail htext hother =>
    (List.append_inj htext hother.1.symm).1.symm
  exact Counts.take (by simp) hspan hcount

/-- A run of operators is gone through in pairs, and of an odd one the last operator is left over. -/
theorem counts_run (hrest : HeadFree isOperator rest) : ∀ (before word : List Char),
    (∀ c ∈ word, isOperator c = true) →
    adjacentOperators.regex.Counts (before ++ word) rest n →
    adjacentOperators.regex.Counts before (word ++ rest) (word.length / 2 + n)
  | before, [], _, hcount => by simpa using hcount
  | before, [c], _, hcount => by simpa using counts_cons (Or.inr hrest) hcount
  | before, c :: d :: more, hword, hcount => by
      have hmore := counts_run hrest (before ++ [c, d]) more (fun e he => hword e (by simp [he]))
        (by simpa using hcount)
      have hlength : (c :: d :: more).length / 2 + n = more.length / 2 + n + 1 := by
        simp only [List.length_cons]
        omega
      rw [hlength]
      exact counts_pair (hword c (by simp)) (hword d (by simp)) hmore

/-- From a place that is not inside of a run, half of every run is counted. -/
theorem counts_operators
    (hplace : HeadFree isOperator before.reverse ∨ HeadFree isOperator rest) :
    adjacentOperators.regex.Counts before rest
      ((runsFrom isOperator before rest).map fun run => run.chars.length / 2).sum := by
  refine runs_induction isOperator (motive := fun before rest =>
    adjacentOperators.regex.Counts before rest
      ((runsFrom isOperator before rest).map fun run => run.chars.length / 2).sum)
    ?nil ?other ?run before rest hplace
  case nil =>
    intro before
    have hspan : adjacentOperators.regex.spanAt? (before ++ []) before.length = none := by
      refine hasShape_adjacentOperators.spanAt?_eq_none fun taken after htext hshape => ?_
      obtain rfl := (List.append_eq_nil_iff.mp htext.symm).1
      exact absurd hshape.1 (by simp)
    rw [List.append_nil] at hspan
    exact Counts.nil hspan
  case other =>
    intro before c rest hc ih
    rw [runsFrom, scanRuns_other hc]
    exact counts_cons (Or.inl hc) ih
  case run =>
    intro before word rest hword hbefore hrest ih
    rw [runsFrom, scanRuns_run hword hbefore hrest, List.map_append, List.sum_append,
      List.map_singleton, List.sum_singleton]
    exact counts_run hrest before word hword.2 ih

/-! ## The rule in every catalogue -/

namespace Catalogue

variable {catalogue next : Catalogue} {rule : Rule} {form : StandardForm}

/-- The catalogues that there can be: rules are put one after another into an empty one. -/
inductive Built : Catalogue → Prop
  | empty : Built .empty
  | register {catalogue next : Catalogue} {rule : Rule} (hbuilt : Built catalogue)
      (hcreated : rule.Created) (hdone : catalogue.register rule = .ok next) : Built next
  | define {catalogue next : Catalogue} {source : String} {full other twice : List String}
      (hbuilt : Built catalogue) (hdone : catalogue.define source full other twice = .ok next) :
      Built next

theorem built_standard (hstandard : standard = .ok catalogue) : catalogue.Built :=
  standard_induction .empty (fun _ _ _ _ hbuilt hrule hdone =>
    hbuilt.register (Rule.created_of_create hrule).1 hdone) hstandard

theorem Built.inStep (hbuilt : catalogue.Built) : catalogue.InStep := by
  induction hbuilt with
  | empty => exact .empty
  | register _ _ hdone hstep => exact hstep.register hdone
  | define _ hdone hstep =>
      obtain ⟨rule, -, hdone⟩ := define_eq_ok.mp hdone
      exact hstep.register hdone

theorem rules_of_register (hdone : catalogue.register rule = .ok next) :
    next.rules = catalogue.rules ++ [rule] := by
  obtain ⟨-, rfl⟩ := register_eq_ok.mp hdone
  rfl

theorem Built.created (hbuilt : catalogue.Built) : ∀ rule ∈ catalogue.rules, rule.Created := by
  induction hbuilt with
  | empty => simp [Catalogue.empty]
  | register _ hcreated hdone ih =>
      rw [rules_of_register hdone]
      simpa [or_imp, forall_and] using ⟨ih, hcreated⟩
  | define _ hdone ih =>
      obtain ⟨rule, hcreate, hdone⟩ := define_eq_ok.mp hdone
      rw [rules_of_register hdone]
      simpa [or_imp, forall_and] using ⟨ih, (Rule.created_of_create hcreate).1⟩

/-- Every catalogue that has a rule for a standard form has the same pattern for it. -/
theorem Built.regex_eq (hbuilt : catalogue.Built) (hform : catalogue.form? form = some rule) :
    rule.regex = form.regex := by
  rw [form?, hbuilt.inStep.get?_eq_find?] at hform
  have hsource : rule.source = form.source := eq_of_beq (List.find?_some hform :)
  have hread := (hbuilt.created rule (List.mem_of_find?_eq_some hform)).read?_source
  rw [hsource, form.read?_source] at hread
  exact (Option.some.inj hread).symm

end Catalogue

/-! ## Judges -/

/-- A judge lets no text through in which its rule finds operators in a row. -/
theorem Judge.letThrough?_of_isFoundIn {judge : Judge} {allowed : List SpecialAnswer} {text : String}
    (hfound : judge.adjacentOperators.isFoundIn text = true) :
    judge.letThrough? allowed (.typed text) = none := by
  simp [Judge.letThrough?, hfound]

/-- A judge takes the rule against operators in a row from its catalogue. -/
theorem Judge.form?_of_create {catalogue : Catalogue} {judge : Judge}
    (hcreate : Judge.create catalogue = .ok judge) :
    catalogue.form? .adjacentOperators = some judge.adjacentOperators := by
  obtain ⟨rule, hrule, hjudge⟩ := bind_eq_ok.mp hcreate
  obtain rfl := Except.ok.inj hjudge
  unfold Judge.ruleFor at hrule
  split at hrule
  · next found hfound => rw [hfound, Except.ok.inj hrule]
  · cases hrule

/-- **Operators in a row.**  The rule against them counts half of every maximal run of operators, and
finds a match exactly if two operators are next to each other.  No judge that is created with any
catalogue lets a typed text like that through, whatever forms it permits. -/
theorem count_adjacentOperators {rule : Rule} (hrule : adjacentOperators.rule = .ok rule)
    (text : String) :
    rule.count text =
      ((maximalRuns isOperator text.toList).map fun run => run.chars.length / 2).sum ∧
    (rule.isFoundIn text = true ↔ AdjacentOperators text.toList) ∧
    (AdjacentOperators text.toList → ∀ (catalogue : Catalogue) (judge : Judge), catalogue.Built →
      Judge.create catalogue = .ok judge → ∀ forms tolerance allowed,
        { judge with forms, tolerance }.letThrough? allowed (.typed text) = none) := by
  obtain rfl := Except.ok.inj ((rule_eq_ok adjacentOperators).symm.trans hrule)
  refine ⟨(counts_operators (Or.inl headFree_nil)).count, isFoundIn_adjacentOperators, ?_⟩
  intro hrow catalogue judge hbuilt hcreate forms tolerance allowed
  apply Judge.letThrough?_of_isFoundIn
  unfold Rule.isFoundIn
  rw [hbuilt.regex_eq (Judge.form?_of_create hcreate)]
  exact isFoundIn_adjacentOperators.mpr hrow

theorem count_adjacentOperators_runs : ∃ rule judge,
    adjacentOperators.rule = .ok rule ∧ rule.count "--x+*-/2*3+" = 3 ∧
    (Catalogue.ofForms StandardForm.all).Built ∧
    Judge.create (Catalogue.ofForms StandardForm.all) = .ok judge ∧
    judge.letThrough? [] (.typed "--x+*-/2*3+") = none := by
  have hcreate : Judge.create (Catalogue.ofForms StandardForm.all) =
      .ok ⟨adjacentOperators.writtenRule, [], Judge.usualTolerance⟩ := by
    have hmem : adjacentOperators ∈ StandardForm.all := by decide
    simp [Judge.create, Judge.ruleFor, Catalogue.form?_ofForms, hmem]
  obtain ⟨hcount, -, hnone⟩ := count_adjacentOperators (rule_eq_ok adjacentOperators) "--x+*-/2*3+"
  have hbuilt := Catalogue.built_standard Catalogue.standard_eq_ok
  refine ⟨_, _, rule_eq_ok adjacentOperators, ?_, hbuilt, hcreate, ?_⟩
  · rw [hcount]
    decide
  · exact hnone ⟨'-', '-', rfl, rfl, ⟨[], _, rfl⟩⟩ _ _ hbuilt hcreate _ _ _

end EquationPractice
