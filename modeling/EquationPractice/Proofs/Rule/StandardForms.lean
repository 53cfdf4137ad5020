import EquationPractice.Proofs.Results
import EquationPractice.Proofs.Regex.Shapes
import EquationPractice.Proofs.Rule.Registration

/-!
# The patterns of the standard forms

The sources of the standard forms as the patterns they are read as, and the standard catalogue as
the list of its rules.  The patterns are put together from a few pieces, like their sources.

## Main definitions

* `StandardForm.regex`: the pattern that the source of a form is read as.
* `Catalogue.ofForms`: the standard catalogue, written out.
-/

namespace EquationPractice

namespace StandardForm

open Regex

/-! ## Pieces -/

/-- The characters that must not stand right before an integer. -/
def leftNeighbours : CharSet :=
  .union (.union (.union (.union .empty (.range 'a' 'z')) (.range 'A' 'Z')) (.range '0' '9'))
    (.single '.')

/-- The left edge of an integer. -/
def leftEdge : Regex :=
  .behind false 1 (.one leftNeighbours)

/-- A run of digits. -/
def digitRun : Regex :=
  .loop 1 none true false (.one .digit)

/-- The right edge of an integer. -/
def rightEdge : Regex :=
  .ahead false (.one (.single '.'))

/-- An unsigned integer. -/
def bareInteger : List Regex :=
  [leftEdge, digitRun, rightEdge]

/-- A signed integer in parentheses. -/
def enclosedInteger : List Regex :=
  .one (.single '(') :: signRegex :: (bareInteger ++ [.one (.single ')')])

/-- The quotient of two integers. -/
def quotient (top bottom : List Regex) : Regex :=
  inSequence (top ++ .one (.single '/') :: bottom)

/-- The characters of an operator. -/
def operators : CharSet :=
  .union (.union (.union (.single '-') (.single '+')) (.single '*')) (.single '/')

/-- The pattern that the source of a form is read as. -/
def regex : StandardForm → Regex
  | integer => inSequence bareInteger
  | decimal => inSequence [leftEdge, digitRun, .one (.single '.'), digitRun]
  | fraction => quotient bareInteger bareInteger
  | signedFraction =>
      .alt (quotient bareInteger bareInteger) <| .alt (quotient enclosedInteger bareInteger) <|
        .alt (quotient bareInteger enclosedInteger) (quotient enclosedInteger enclosedInteger)
  | adjacentOperators => .loop 2 (some 2) true true (.one operators)

/-! ## Rules -/

/-- The characters of the longest source, piece by piece. -/
theorem toList_signedFraction : signedFraction.source.toList =
    "(?:".toList ++ integerSource.toList ++ "/".toList ++ integerSource.toList ++ ")|(?:".toList ++
      enclosedSource.toList ++ "/".toList ++ integerSource.toList ++ ")|(?:".toList ++
      integerSource.toList ++ "/".toList ++ enclosedSource.toList ++ ")|(?:".toList ++
      enclosedSource.toList ++ "/".toList ++ enclosedSource.toList ++ ")".toList := by
  -- with names for the pieces, so that no literal has to be taken apart
  have happend : ∀ first bare bar next enclosed last : String,
      (first ++ bare ++ bar ++ bare ++ next ++ enclosed ++ bar ++ bare ++ next ++ bare ++ bar ++
        enclosed ++ next ++ enclosed ++ bar ++ enclosed ++ last).toList =
      first.toList ++ bare.toList ++ bar.toList ++ bare.toList ++ next.toList ++ enclosed.toList ++
        bar.toList ++ bare.toList ++ next.toList ++ bare.toList ++ bar.toList ++ enclosed.toList ++
        next.toList ++ enclosed.toList ++ bar.toList ++ enclosed.toList ++ last.toList := by
    intro first bare bar next enclosed last
    simp only [String.toList_append]
  exact happend _ _ _ _ _ _

theorem read?_source (form : StandardForm) :
    Regex.read? Rule.maxSourceDepth form.source.toList = some form.regex := by
  cases form with
  | integer => decide +kernel
  | decimal => decide +kernel
  | fraction => decide +kernel
  | signedFraction =>
      rw [toList_signedFraction]
      decide +kernel
  | adjacentOperators => decide +kernel

theorem fault?_source (form : StandardForm) :
    Rule.fault? form.source form.fullExamples form.otherExamples form.twiceExamples = none := by
  cases form with
  | integer => decide +kernel
  | decimal => decide +kernel
  | fraction => decide +kernel
  | signedFraction =>
      unfold Rule.fault?
      rw [toList_signedFraction]
      decide +kernel
  | adjacentOperators => decide +kernel

/-- The rule of a form, written out. -/
def writtenRule (form : StandardForm) : Rule :=
  ⟨form.source, form.regex, form.fullExamples, form.otherExamples, form.twiceExamples⟩

theorem rule_eq_ok (form : StandardForm) : form.rule = .ok form.writtenRule := by
  simp only [StandardForm.rule, Rule.create, form.fault?_source, form.read?_source, writtenRule]

/-- No two forms have the same source. -/
theorem source_injective {form other : StandardForm} (hsource : form.source = other.source) :
    form = other := by
  have hall : ∀ form ∈ all, ∀ other ∈ all, form.source = other.source → form = other := by
    decide +kernel
  exact hall form (by cases form <;> decide) other (by cases other <;> decide) hsource

end StandardForm

/-! ## The standard catalogue -/

namespace Catalogue

variable {forms done todo : List StandardForm} {form : StandardForm}

/-- The catalogue of the rules of some forms. -/
def ofForms (forms : List StandardForm) : Catalogue :=
  ⟨forms.map StandardForm.writtenRule, (forms.map StandardForm.source).zipIdx.reverse⟩

theorem lookup_ofForms {place : Nat}
    (hlookup : (ofForms forms).index.lookup form.source = some place) :
    forms[place]? = some form := by
  obtain ⟨before, rest, hindex, -⟩ := List.lookup_eq_some_iff.mp hlookup
  have hmem : (form.source, place) ∈ (ofForms forms).index := by
    simp [hindex]
  rw [ofForms, List.mem_reverse, List.mem_zipIdx_iff_getElem?, List.getElem?_map,
    Option.map_eq_some_iff] at hmem
  obtain ⟨other, hother, hsource⟩ := hmem
  rw [hother, StandardForm.source_injective hsource]

theorem lookup_ofForms_eq_none_iff :
    (ofForms forms).index.lookup form.source = none ↔ form ∉ forms := by
  rw [List.lookup_eq_none_iff]
  constructor
  · intro hnone hmem
    obtain ⟨place, hplace⟩ := List.mem_iff_getElem?.mp hmem
    have hentry : (form.source, place) ∈ (ofForms forms).index := by
      simp [ofForms, List.mem_zipIdx_iff_getElem?, hplace]
    simpa using hnone _ hentry
  · rintro hnotMem ⟨source, place⟩ hentry
    rw [ofForms, List.mem_reverse, List.mem_zipIdx_iff_getElem?] at hentry
    obtain ⟨other, hother, rfl⟩ := List.mem_map.mp (List.mem_of_getElem? hentry)
    rw [bne_iff_ne]
    exact fun hsource => hnotMem (StandardForm.source_injective hsource ▸ hother)

theorem form?_ofForms :
    (ofForms forms).form? form = if form ∈ forms then some form.writtenRule else none := by
  unfold form? get?
  cases hlookup : (ofForms forms).index.lookup form.source with
  | none => rw [if_neg (lookup_ofForms_eq_none_iff.mp hlookup)]
  | some place =>
      have hplace : forms[place]? = some form := lookup_ofForms hlookup
      rw [if_pos (List.mem_of_getElem? hplace)]
      simp [ofForms, hplace]

theorem extended_ofForms :
    (ofForms forms).extended form.writtenRule = ofForms (forms ++ [form]) := by
  simp [ofForms, extended, StandardForm.writtenRule, List.zipIdx_append]

theorem register_ofForms (hnew : form ∉ forms) :
    (ofForms forms).register form.writtenRule = .ok (ofForms (forms ++ [form])) :=
  register_eq_ok.mpr ⟨lookup_ofForms_eq_none_iff.mpr hnew, extended_ofForms.symm⟩

theorem foldlM_register (done todo : List StandardForm) (hnodup : (done ++ todo).Nodup) :
    todo.foldlM (fun catalogue form => catalogue.register form.writtenRule) (ofForms done) =
      .ok (ofForms (done ++ todo)) := by
  induction todo generalizing done with
  | nil => simp
  | cons form rest ih =>
      have hnew : form ∉ done := by
        intro hmem
        exact (List.nodup_append.mp hnodup).2.2 form hmem form List.mem_cons_self rfl
      have hsplit : done ++ form :: rest = (done ++ [form]) ++ rest := by simp
      rw [List.foldlM_cons, register_ofForms hnew, ok_bind, hsplit]
      exact ih (done ++ [form]) (hsplit ▸ hnodup)

/-- The standard catalogue holds the rule of every form. -/
theorem standard_eq_ok : standard = .ok (ofForms StandardForm.all) := by
  unfold standard
  simp only [StandardForm.rule_eq_ok, ok_bind]
  exact foldlM_register [] StandardForm.all (by decide)

end Catalogue

end EquationPractice
