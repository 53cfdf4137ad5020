import EquationPractice.Exercise.Question
import EquationPractice.Proofs.Reading.Tokens
import EquationPractice.Proofs.Regex.Enclosing
import EquationPractice.Proofs.Regex.Shapes

/-!
# The pattern for unit coefficients

The name of the unknown is put into the source of a pattern as it is.  Letters and digits stand for
themselves there, so whatever the name is, the source is read, and it is read as a one and the name
between two conditions on their neighbours.

## Strategy

The two look-arounds have a class each and nothing else inside, and a class is read up to its
closing bracket whatever follows.  The letters between them are read one by one, by induction on the
name.

## Main definitions

* `Regex.unit`: the pattern that the source is read as.
-/

namespace EquationPractice

namespace Regex

/-- The characters that must not stand right before a unit coefficient. -/
def beforeUnit : CharSet :=
  .union (.union .empty (.range '0' '9')) (.single '.')

/-- The characters that must not stand right after the name. -/
def afterUnit : CharSet :=
  .union (.union (.union .empty (.range 'A' 'Z')) (.range 'a' 'z')) (.range '0' '9')

/-- The one and the name, and the condition on what stands after them. -/
def unitParts (name : List Char) : List Regex :=
  ('1' :: name).map (fun c => one (.single c)) ++ [ahead false (one afterUnit)]

/-- The pattern for a unit coefficient right before a name. -/
def unit (name : List Char) : Regex :=
  inSequence (behind false 1 (one beforeUnit) :: unitParts name)

variable {inner : PartReader} {cs rest : List Char} {set item : CharSet} {anyCase : Bool}
  {groups depth : Nat} {r s : Regex} {reading after last : Reading}

/-! ## Classes -/

theorem classItems?_item (hopen : cs.head? ≠ some ']')
    (hitem : classRangeOrItem? cs = some (item, rest)) (hlength : rest.length < cs.length) :
    classItems? anyCase set cs =
      classItems? anyCase (.union set (caseAware anyCase item)) rest := by
  rw [classItems?, hitem]
  · simp [hlength]
  · rintro rest rfl
    exact absurd rfl hopen

theorem classItems?_close : classItems? anyCase set (']' :: rest) = some (set, rest) := by
  rw [classItems?]

theorem class?_beforeUnit :
    class? false ('0' :: '-' :: '9' :: '.' :: ']' :: rest) = some (beforeUnit, rest) := by
  change classItems? false .empty ('0' :: '-' :: '9' :: '.' :: ']' :: rest) >>= _ = _
  rw [classItems?_item (by simp) rfl (by simp), classItems?_item (by simp) rfl (by simp),
    classItems?_close]
  rfl

theorem class?_afterUnit :
    class? false ('A' :: '-' :: 'Z' :: 'a' :: '-' :: 'z' :: '0' :: '-' :: '9' :: ']' :: rest) =
      some (afterUnit, rest) := by
  change classItems? false .empty ('A' :: '-' :: 'Z' :: 'a' :: '-' :: 'z' :: '0' :: '-' :: '9' ::
    ']' :: rest) >>= _ = _
  rw [classItems?_item (by simp) rfl (by simp), classItems?_item (by simp) rfl (by simp),
    classItems?_item (by simp) rfl (by simp), classItems?_close]
  rfl

/-! ## Branches -/

/-- A class right before the end of a group is all of the group. -/
theorem choiceWithin_class (hclass : class? anyCase cs = some (set, ')' :: rest))
    (hlength : rest.length + 1 < cs.length + 1) :
    choiceWithin (depth + 1) ⟨'[' :: cs, anyCase, groups⟩ =
      some (one set, ⟨')' :: rest, anyCase, groups⟩) := by
  have hatom : atom? (choiceWithin depth) ⟨'[' :: cs, anyCase, groups⟩ =
      some (one set, ⟨')' :: rest, anyCase, groups⟩) := by
    simp [atom?, hclass]
  have hpiece : piece? (choiceWithin depth) ⟨'[' :: cs, anyCase, groups⟩ =
      some (one set, ⟨')' :: rest, anyCase, groups⟩) := by
    have honce : bounds? (')' :: rest) = none := rfl
    rw [piece?, hatom]
    exact repeated?_once honce
  have hbranch := branch?_piece rfl hpiece hlength (branch?_end rfl)
  change choice? (choiceWithin depth) _ = _
  rw [choice?, branches?, hbranch]
  rfl

theorem bounds?_letter {c : Char} (hletter : c.isAlphanum = true) : bounds? (c :: rest) = none := by
  rw [bounds?]
  all_goals
    intro tail htail
    obtain rfl := (List.cons.inj htail).1
    exact absurd hletter (by decide)

theorem endsBranch_letter {c : Char} (hletter : c.isAlphanum = true) :
    endsBranch (c :: rest) = false := by
  rw [endsBranch, Bool.or_eq_false_iff, beq_eq_false_iff_ne, beq_eq_false_iff_ne]
  constructor
  · rintro rfl
    exact absurd hletter (by decide)
  · rintro rfl
    exact absurd hletter (by decide)

/-- A letter or digit that is not repeated stands for itself. -/
theorem piece?_letter {c : Char} (hletter : c.isAlphanum = true) (honce : bounds? rest = none) :
    piece? inner ⟨c :: rest, false, groups⟩ =
      some (one (.single c), ⟨rest, false, groups⟩) := by
  have hatom : atom? inner ⟨c :: rest, false, groups⟩ =
      some (one (.single c), ⟨rest, false, groups⟩) := by
    simp only [atom?]
    split <;> first | rfl | exact absurd hletter (by decide)
  rw [piece?, hatom]
  exact repeated?_once honce

/-! ## Look-arounds -/

/-- How the condition on what stands before is written. -/
def beforeUnitSource : List Char :=
  ['(', '?', '<', '!', '[', '0', '-', '9', '.', ']', ')']

/-- How the condition on what stands after is written. -/
def afterUnitSource : List Char :=
  ['(', '?', '!', '[', 'A', '-', 'Z', 'a', '-', 'z', '0', '-', '9', ']', ')']

theorem piece?_beforeUnit (honce : bounds? rest = none) :
    piece? (choiceWithin (depth + 1)) ⟨beforeUnitSource ++ rest, false, groups⟩ =
      some (behind false 1 (one beforeUnit), ⟨rest, false, groups⟩) := by
  have hinner : choiceWithin (depth + 1)
      ⟨'[' :: '0' :: '-' :: '9' :: '.' :: ']' :: ')' :: rest, false, groups⟩ =
        some (one beforeUnit, ⟨')' :: rest, false, groups⟩) :=
    choiceWithin_class class?_beforeUnit (by simp)
  simp only [beforeUnitSource, List.cons_append, List.nil_append, piece?, atom?, group?, hinner]
  exact repeated?_once honce

theorem piece?_afterUnit (honce : bounds? rest = none) :
    piece? (choiceWithin (depth + 1)) ⟨afterUnitSource ++ rest, false, groups⟩ =
      some (ahead false (one afterUnit), ⟨rest, false, groups⟩) := by
  have hinner : choiceWithin (depth + 1) ⟨'[' :: 'A' :: '-' :: 'Z' :: 'a' :: '-' :: 'z' :: '0' ::
      '-' :: '9' :: ']' :: ')' :: rest, false, groups⟩ =
        some (one afterUnit, ⟨')' :: rest, false, groups⟩) :=
    choiceWithin_class class?_afterUnit (by simp)
  simp only [afterUnitSource, List.cons_append, List.nil_append, piece?, atom?, group?, hinner]
  exact repeated?_once honce

/-! ## The whole pattern -/

theorem inSequence_cons_ne_empty {rs : List Regex} (hr : r ≠ empty) :
    inSequence (r :: rs) ≠ empty := by
  cases rs with
  | nil => exact hr
  | cons s rs => exact Regex.noConfusion

/-- A pattern before others that are not nothing is put in sequence with them. -/
theorem followedBy_inSequence {rs : List Regex} (hr : r ≠ empty) (hs : s ≠ empty) :
    followedBy r (inSequence (s :: rs)) = inSequence (r :: s :: rs) := by
  have hrest : inSequence (s :: rs) ≠ empty := inSequence_cons_ne_empty hs
  unfold followedBy
  split
  · exact absurd rfl hr
  · next hempty => exact absurd hempty hrest
  · rfl

/-- Letters and digits that are not repeated stand for themselves, one after the other. -/
theorem branch?_letters {rs : List Regex} (hletters : ∀ c ∈ cs, c.isAlphanum = true)
    (honce : bounds? rest = none) (hs : s ≠ empty)
    (hbranch : branch? inner ⟨rest, false, groups⟩ = some (inSequence (s :: rs), last)) :
    branch? inner ⟨cs ++ rest, false, groups⟩ =
      some (inSequence (cs.map (fun c => one (.single c)) ++ s :: rs), last) := by
  induction cs with
  | nil => exact hbranch
  | cons c tail ih =>
      have hc := hletters c List.mem_cons_self
      have htail := ih fun d hd => hletters d (List.mem_cons_of_mem _ hd)
      have hnext : bounds? (tail ++ rest) = none := by
        cases tail with
        | nil => exact honce
        | cons d _ => exact bounds?_letter (hletters d (by simp))
      have hbranch := branch?_piece (endsBranch_letter hc) (piece?_letter hc hnext) (by simp) htail
      rw [List.cons_append, hbranch]
      -- what was read behind the letter is not nothing, so the letter is put before it
      have hletter : ∀ d, one (.single d) ≠ empty := fun _ => Regex.noConfusion
      cases tail with
      | nil => rw [List.map_nil, List.nil_append, followedBy_inSequence (hletter c) hs]; rfl
      | cons d _ =>
          rw [List.map_cons, List.cons_append, followedBy_inSequence (hletter c) (hletter d)]
          rfl

theorem references_inSequence {rs : List Regex} (hnone : ∀ r ∈ rs, r.references = []) :
    (inSequence rs).references = [] := by
  induction rs with
  | nil => rfl
  | cons r rs ih =>
      have hr := hnone r List.mem_cons_self
      have hrs := ih fun s hs => hnone s (List.mem_cons_of_mem _ hs)
      cases rs with
      | nil => exact hr
      | cons s rs => simp [inSequence, references, hr, hrs]

theorem dropEmptyRounds_inSequence {rs : List Regex} (hkept : ∀ r ∈ rs, r.dropEmptyRounds = r) :
    (inSequence rs).dropEmptyRounds = inSequence rs := by
  induction rs with
  | nil => rfl
  | cons r rs ih =>
      have hr := hkept r List.mem_cons_self
      have hrs := ih fun s hs => hkept s (List.mem_cons_of_mem _ hs)
      cases rs with
      | nil => exact hr
      | cons s rs => simp [inSequence, dropEmptyRounds, hr, hrs]

/-- What holds of both conditions and of every letter holds of all parts of the pattern. -/
theorem forall_mem_unit {holds : Regex → Prop} (hbefore : holds (behind false 1 (one beforeUnit)))
    (hletter : ∀ c, holds (one (.single c))) (hafter : holds (ahead false (one afterUnit)))
    (name : List Char) : ∀ r ∈ behind false 1 (one beforeUnit) :: unitParts name, holds r := by
  intro r hr
  rcases List.mem_cons.mp hr with rfl | hr
  · exact hbefore
  · rcases List.mem_append.mp hr with hr | hr
    · obtain ⟨c, -, rfl⟩ := List.mem_map.mp hr
      exact hletter c
    · obtain rfl := List.mem_singleton.mp hr
      exact hafter

theorem references_unit (name : List Char) : (unit name).references = [] := by
  refine references_inSequence (forall_mem_unit ?_ ?_ ?_ name)
  · rfl
  · intro c
    rfl
  · rfl

theorem dropEmptyRounds_unit (name : List Char) : (unit name).dropEmptyRounds = unit name := by
  refine dropEmptyRounds_inSequence (forall_mem_unit ?_ ?_ ?_ name)
  · rfl
  · intro c
    rfl
  · rfl

theorem toList_unitSource (name : String) :
    (unitSource name).toList = beforeUnitSource ++ ('1' :: name.toList ++ afterUnitSource) := by
  simp [unitSource, beforeUnitSource, afterUnitSource]

/-- Whatever letters and digits the name is made of, the source of the pattern for unit coefficients
is read as that pattern. -/
theorem readRecording?_unitSource {name : String} (hname : ∀ c ∈ name.toList, c.isAlphanum = true) :
    readRecording? maxDepth (unitSource name).toList = some (unit name.toList) := by
  have hletters : ∀ c ∈ '1' :: name.toList, c.isAlphanum = true := by
    intro c hc
    rcases List.mem_cons.mp hc with rfl | hc
    · decide
    · exact hname c hc
  -- from the back: the condition at the end, the letters before it, the condition in front
  have hafter : branch? (choiceWithin 63) ⟨afterUnitSource ++ [], false, 0⟩ =
      some (inSequence [ahead false (one afterUnit)], ⟨[], false, 0⟩) :=
    branch?_piece rfl (piece?_afterUnit rfl) (by decide) (branch?_end rfl)
  have hmiddle : branch? (choiceWithin 63)
      ⟨'1' :: name.toList ++ (afterUnitSource ++ []), false, 0⟩ =
        some (inSequence (unitParts name.toList), ⟨[], false, 0⟩) :=
    branch?_letters hletters rfl Regex.noConfusion hafter
  have hunit : followedBy (behind false 1 (one beforeUnit)) (inSequence (unitParts name.toList)) =
      unit name.toList :=
    followedBy_inSequence Regex.noConfusion Regex.noConfusion
  have hbranch : branch? (choiceWithin 63)
      ⟨beforeUnitSource ++ ('1' :: name.toList ++ (afterUnitSource ++ [])), false, 0⟩ =
        some (unit name.toList, ⟨[], false, 0⟩) := by
    rw [← hunit]
    exact branch?_piece rfl (piece?_beforeUnit (bounds?_letter (by decide)))
      (by simp [beforeUnitSource]) hmiddle
  have hread : choiceWithin maxDepth ⟨(unitSource name).toList, false, 0⟩ =
      some (unit name.toList, ⟨[], false, 0⟩) := by
    rw [toList_unitSource, ← List.append_nil afterUnitSource]
    change choice? (choiceWithin 63) _ = _
    rw [choice?, branches?, hbranch]
    rfl
  -- the pattern looks behind, so its empty rounds would be dropped, but it has none
  have hcontextual : (unit name.toList).isContextual = true := rfl
  simp [readRecording?, hread, referencesWithin, references_unit, dropEmptyRounds_unit,
    hcontextual]

end Regex

end EquationPractice
