import EquationPractice.Proofs.Regex.Enclosing
import EquationPractice.Rule.Basic

/-!
# Patterns around a source

A source is put between the start and the finish of a text, or behind an optional sign, by writing
parentheses around it.  The parentheses record nothing, so the groups of the source keep their numbers,
and they hold all of its branches together.  What is read of such a text is the pattern of the source
with the conditions before and behind it, whatever the source is, as long as it is read alone.

A pattern is not used as it was read.  Its empty rounds may be dropped, and groups that nothing refers to
are not recorded.  Neither depends on what was put around the source, since that refers to no group and
looks at no more than the next character.

## Main definitions

* `Regex.Reads`: a text that is read as a pattern.
* `Regex.wholeText`, `Regex.signedText`: a text between the start and the finish, and behind a sign.
* `Regex.prepared`: a pattern with its empty rounds dropped and its groups left out.

## Main results

* `Regex.read?_eq_some`: a pattern as it is read and prepared.
* `Regex.Reads.read?_wholeText`: the pattern between the start and the finish.
* `Regex.isFoundIn_whole`: it is found in the texts that match as a whole.
-/

namespace EquationPractice

namespace Regex

variable {depth more groups : ℕ} {text rest : List Char} {r s : Regex} {place next : Place}
  {inner : PartReader} {reading after : Reading} {drops : Bool} {used : List ℕ}

/-! ## Reading -/

/-- With fewer levels of groups than given, all of a text is read as a pattern, and so many groups
are opened in it. -/
def Reads (depth : ℕ) (text : List Char) (r : Regex) (groups : ℕ) : Prop :=
  ∃ anyCase, choiceWithin depth ⟨text, false, 0⟩ = some (r, ⟨[], anyCase, groups⟩)

theorem Reads.mono (hreads : Reads depth text r groups) (hle : depth ≤ more) :
    Reads more text r groups := by
  obtain ⟨anyCase, hread⟩ := hreads
  have hmore := readsOn_choiceWithin (show Closing [] from headFree_nil) hle _ _ _ hread
  rw [Reading.append, List.append_nil] at hmore
  exact ⟨anyCase, hmore⟩

/-- A text in a group that is not recorded. -/
def enclosed (text : List Char) : List Char :=
  '(' :: '?' :: ':' :: (text ++ [')'])

theorem Reads.atom?_enclosed (hreads : Reads depth text r groups) (hle : depth ≤ more)
    (rest : List Char) :
    atom? (choiceWithin more) ⟨enclosed text ++ rest, false, 0⟩ =
      some (r, ⟨rest, false, groups⟩) := by
  obtain ⟨anyCase, hread⟩ := hreads
  have hclosing : Closing (')' :: rest) := headFree_cons.mpr rfl
  have hinner := readsOn_choiceWithin hclosing hle _ _ _ hread
  rw [Reading.append, Reading.append, List.nil_append] at hinner
  simp [enclosed, Regex.atom?, group?, flags?, hinner, closing?]

theorem Reads.piece?_enclosed (hreads : Reads depth text r groups) (honce : bounds? rest = none) :
    piece? (choiceWithin depth) ⟨enclosed text ++ rest, false, 0⟩ =
      some (r, ⟨rest, false, groups⟩) := by
  rw [Regex.piece?, hreads.atom?_enclosed le_rfl, Option.bind_eq_bind, Option.bind_some]
  exact repeated?_once honce

theorem branch?_last (hends : endsBranch reading.rest = false)
    (hpiece : piece? inner reading = some (r, after))
    (hlength : after.rest.length < reading.rest.length) (hlast : endsBranch after.rest = true) :
    branch? inner reading = some (r, after) := by
  have hempty : followedBy r empty = r := by
    cases r <;> rfl
  rw [branch?_piece hends hpiece hlength (branch?_end hlast), hempty]

theorem reads_of_branch? (hbranch : branch? (choiceWithin depth) ⟨text, false, 0⟩ =
    some (r, ⟨[], false, groups⟩)) : Reads (depth + 1) text r groups := by
  refine ⟨false, ?_⟩
  rw [choiceWithin, choice?, branches?, hbranch]
  rfl

/-! ## Around a source -/

/-- A pattern between the start and the finish. -/
def whole (r : Regex) : Regex :=
  followedBy (anchor .start) (followedBy r (anchor .finish))

/-- A text between the start and the finish. -/
def wholeText (text : List Char) : List Char :=
  '^' :: (enclosed text ++ ['$'])

theorem Reads.wholeText (hreads : Reads depth text r groups) :
    Reads (depth + 1) (wholeText text) r.whole groups := by
  apply reads_of_branch?
  have hfinish : branch? (choiceWithin depth) ⟨['$'], false, groups⟩ =
      some (anchor .finish, ⟨[], false, groups⟩) :=
    branch?_last rfl rfl (Nat.lt_succ_self 0) rfl
  have hbody := branch?_piece rfl (hreads.piece?_enclosed rfl) (by simp [enclosed]) hfinish
  exact branch?_piece rfl rfl (Nat.lt_succ_self _) hbody

/-- How a sign is written. -/
def signText : List Char :=
  ['\\', '+', '|', '-']

theorem reads_signText : Reads 1 signText signRegex 0 := by
  have hplus : branch? (choiceWithin 0) ⟨signText, false, 0⟩ =
      some (one (.single '+'), ⟨['|', '-'], false, 0⟩) :=
    branch?_last rfl rfl (show 2 < 4 by decide) rfl
  have hminus : branch? (choiceWithin 0) ⟨['-'], false, 0⟩ =
      some (one (.single '-'), ⟨[], false, 0⟩) :=
    branch?_last rfl rfl (Nat.lt_succ_self 0) rfl
  have hsecond : branches? (choiceWithin 0) ⟨['-'], false, 0⟩ =
      some ([one (.single '-')], ⟨[], false, 0⟩) := by
    rw [branches?, hminus]
  have hboth : branches? (choiceWithin 0) ⟨signText, false, 0⟩ =
      some ([one (.single '+'), one (.single '-')], ⟨[], false, 0⟩) := by
    rw [branches?, hplus]
    simp [signText, hsecond]
  refine ⟨false, ?_⟩
  rw [choiceWithin, choice?, hboth]
  rfl

/-- A text behind an optional sign. -/
def signedText (text : List Char) : List Char :=
  enclosed signText ++ '?' :: enclosed text

theorem Reads.signedText (hreads : Reads depth text r groups) :
    Reads (depth + 1) (signedText text) (followedBy signRegex.optional r) groups := by
  have hdepth : 1 ≤ depth := by
    obtain ⟨anyCase, hread⟩ := hreads
    cases depth with
    | zero => cases hread
    | succ depth => omega
  apply reads_of_branch?
  have hsign : piece? (choiceWithin depth) ⟨Regex.signedText text, false, 0⟩ =
      some (signRegex.optional, ⟨enclosed text ++ [], false, 0⟩) := by
    rw [Regex.piece?, Regex.signedText, reads_signText.atom?_enclosed hdepth, List.append_nil]
    rfl
  have hbody : branch? (choiceWithin depth) ⟨enclosed text ++ [], false, 0⟩ =
      some (r, ⟨[], false, groups⟩) :=
    branch?_last rfl (hreads.piece?_enclosed rfl) (by simp [enclosed]) rfl
  exact branch?_piece rfl hsign (by simp [Regex.signedText, signText, enclosed]) hbody

theorem isContextual_followedBy (r s : Regex) :
    (followedBy r s).isContextual = (r.isContextual || s.isContextual) := by
  unfold followedBy
  split <;> simp [isContextual]

theorem references_followedBy (r s : Regex) :
    (followedBy r s).references = r.references ++ s.references := by
  unfold followedBy
  split <;> simp [references]

@[simp] theorem isContextual_whole : r.whole.isContextual = r.isContextual := by
  simp [whole, isContextual_followedBy, isContextual]

@[simp] theorem references_whole : r.whole.references = r.references := by
  simp [whole, references_followedBy, references]

@[simp] theorem isContextual_signed :
    (followedBy signRegex.optional r).isContextual = r.isContextual := by
  rw [isContextual_followedBy]
  rfl

@[simp] theorem references_signed :
    (followedBy signRegex.optional r).references = r.references := by
  rw [references_followedBy]
  rfl

/-! ## What is made of a pattern that was read -/

/-- The pattern with its empty rounds dropped, if wanted, and with only the given groups recorded. -/
def prepared (drops : Bool) (used : List ℕ) (r : Regex) : Regex :=
  (if drops then r.dropEmptyRounds else r).keepGroups used

theorem references_dropEmptyRounds (r : Regex) : r.dropEmptyRounds.references = r.references := by
  induction r with
  | seq r s ihr ihs | alt r s ihr ihs => rw [dropEmptyRounds, references, ihr, ihs, references]
  | loop _ _ _ _ r ih | group _ r ih | atomic r ih | ahead _ r ih | behind _ _ r ih =>
      rw [dropEmptyRounds, references, ih, references]
  | empty | one _ | anchor _ | backref _ => rfl

theorem read?_eq_some {regex : Regex} : read? depth text = some regex ↔ ∃ r groups,
    Reads depth text r groups ∧ r.referencesWithin groups = true ∧
      r.prepared r.isContextual r.references = regex := by
  have hprepared : ∀ r : Regex, (if r.isContextual then r.dropEmptyRounds else r).keepGroups
      (if r.isContextual then r.dropEmptyRounds else r).references =
        r.prepared r.isContextual r.references := by
    intro r
    unfold prepared
    split
    · rw [references_dropEmptyRounds]
    · rfl
  unfold read? readRecording?
  rw [Option.map_eq_some_iff]
  constructor
  · rintro ⟨kept, hkept, rfl⟩
    obtain ⟨⟨r, rest, anyCase, groups⟩, hread, hkept⟩ := Option.bind_eq_some_iff.mp hkept
    dsimp only at hkept
    split at hkept
    · next hwhole =>
        obtain ⟨hend, hwithin⟩ := Bool.and_eq_true_iff.mp hwhole
        obtain rfl : rest = [] := List.isEmpty_iff.mp hend
        obtain rfl := Option.some.inj hkept
        exact ⟨r, groups, ⟨anyCase, hread⟩, hwithin, (hprepared r).symm⟩
    · cases hkept
  · rintro ⟨r, groups, ⟨anyCase, hread⟩, hwithin, rfl⟩
    refine ⟨_, ?_, hprepared r⟩
    simp [hread, hwithin]

/-- A source that is read alone is read between the start and the finish, and prepared no
differently there. -/
theorem Reads.read?_wholeText (hreads : Reads depth text r groups)
    (hwithin : r.referencesWithin groups = true) :
    read? (depth + 1) (Regex.wholeText text) =
      some (r.whole.prepared r.isContextual r.references) := by
  rw [read?_eq_some]
  refine ⟨r.whole, groups, hreads.wholeText, ?_, by simp⟩
  rwa [referencesWithin, references_whole]

/-! ## Matches -/

theorem mem_runs_followedBy : next ∈ ((followedBy r s).prepared drops used).runs text place ↔
    ∃ mid ∈ (r.prepared drops used).runs text place,
      next ∈ (s.prepared drops used).runs text mid := by
  have hempty : empty.prepared drops used = empty := by
    cases drops <;> rfl
  have hseq : (seq r s).prepared drops used =
      seq (r.prepared drops used) (s.prepared drops used) := by
    cases drops <;> rfl
  unfold followedBy
  split
  · simp [hempty, runs]
  · simp [hempty, runs]
  · rw [hseq, runs, mem_gather]

theorem mem_runs_anchor {condition : Anchor} : next ∈ (anchor condition).runs text place ↔
    next = place ∧ condition.holdsAt text place.pos = true := by
  rw [runs]
  split <;> simp_all

theorem mem_runs_optional : next ∈ r.optional.runs text place ↔
    next = place ∨ next ∈ r.runs text place := by
  rw [Regex.optional, mem_runs_bounded]
  constructor
  · rintro ⟨n, -, hn, hsteps⟩
    obtain rfl | rfl : n = 0 ∨ n = 1 := by omega
    · exact Or.inl hsteps
    · obtain ⟨mid, hmid, rfl⟩ := hsteps
      exact Or.inr hmid
  · rintro (rfl | hnext)
    · exact ⟨0, by simp, by simp, rfl⟩
    · exact ⟨1, by simp, by simp, next, hnext, rfl⟩

theorem mem_runs_signRegex : next ∈ signRegex.runs text place ↔ ∃ sign ∈ ['+', '-'],
    text[place.pos]? = some sign ∧ next = { place with pos := place.pos + 1 } := by
  have hsingle : ∀ c : Char, next ∈ (one (.single c)).runs text place ↔
      text[place.pos]? = some c ∧ next = { place with pos := place.pos + 1 } := by
    intro c
    simp only [runs, CharSet.contains]
    cases text[place.pos]? with
    | none => simp
    | some d => by_cases hd : d = c <;> simp [hd]
  rw [signRegex, runs, mem_addAll, hsingle, hsingle]
  simp

/-- Between the start and the finish, a pattern is found in the texts that it matches as a whole. -/
theorem isFoundIn_whole : (r.whole.prepared drops used).isFoundIn text =
    (r.prepared drops used).matchesWhole text := by
  have hanchor : ∀ condition, (anchor condition).prepared drops used = anchor condition := by
    cases drops <;> exact fun _ => rfl
  rw [Bool.eq_iff_iff, isFoundIn_iff, matchesWhole_iff, whole]
  simp only [mem_runs_followedBy, hanchor, mem_runs_anchor, Anchor.holdsAt, beq_iff_eq]
  constructor
  · -- the start holds at the first place only
    rintro ⟨start, -, -, -, ⟨rfl, hstart⟩, stop, hstop, -, hfinish⟩
    obtain rfl : start = 0 := hstart
    exact ⟨stop, hstop, hfinish⟩
  · rintro ⟨stop, hstop, hfinish⟩
    exact ⟨0, Nat.zero_le _, stop, .at 0, ⟨rfl, rfl⟩, stop, hstop, rfl, hfinish⟩

/-- Whatever is prepared with it, a sign is taken or not. -/
theorem matchesWhole_signed : ((followedBy signRegex.optional r).prepared drops used).matchesWhole
    text = (seq signRegex.optional (r.prepared drops used)).matchesWhole text := by
  have hsign : ∀ place next, next ∈ (signRegex.optional.prepared drops used).runs text place ↔
      next ∈ signRegex.optional.runs text place := by
    cases drops <;> exact fun _ _ => Iff.rfl
  rw [Bool.eq_iff_iff, matchesWhole_iff, matchesWhole_iff]
  simp only [mem_runs_followedBy, hsign, runs, mem_gather]

end Regex

end EquationPractice
