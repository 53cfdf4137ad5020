import EquationPractice.Proofs.Exercise.Built
import EquationPractice.Proofs.Exercise.DrawnQuestion
import EquationPractice.Proofs.Exercise.QuestionDraft
import EquationPractice.Proofs.Exercise.UnitPattern
import EquationPractice.Sampling.WordFeed

/-!
# Drawn exercises

With valid settings and the standard catalogue, nothing that comes after the draws can fail: the
text of the drawn question is short enough to be read, it is read and solved as its terms say, and
the pattern for unit coefficients can be read.  So whenever the draws end there is an exercise, and
what it expects is the solution of the drawn equation.

## Strategy

A drawn coefficient has two digits at most and there are at most forty terms, so with a name of at
most sixteen characters the text stays below the limit by itself.
-/

namespace EquationPractice

open Draw

/-! ## Valid settings -/

/-- A text has at most as many characters as bytes. -/
theorem length_le_utf8ByteSize (text : String) : text.length ≤ text.utf8ByteSize := by
  have hchars : ∀ cs : List Char, cs.length ≤ (String.ofList cs).utf8ByteSize := by
    intro cs
    induction cs with
    | nil => simp
    | cons c rest ih =>
        have hc := Char.utf8Size_pos c
        rw [String.ofList_cons, String.utf8ByteSize_append, String.utf8ByteSize_singleton,
          List.length_cons]
        omega
  have htext := hchars text.toList
  rwa [String.length_toList, String.ofList_toList] at htext

namespace Settings

variable {settings : Settings}

/-- Whether a name of the unknown is accepted: a letter, then letters and digits, and not too long.
-/
structure HasName (settings : Settings) : Prop where
  isName : isName settings.unknownName.toList = true
  length : settings.unknownName.toList.length ≤ 16

/-- Settings are refused exactly when they have a fault. -/
theorem validate_eq_ok : settings.validate = .ok () ↔ settings.fault? = none := by
  unfold validate
  split
  · next fault hfault => simp [hfault]
  · next hnone => simp [hnone]

theorem bounds_of_validate (hvalid : settings.validate = .ok ()) :
    settings.HasName ∧ settings.unknownTerms ≤ 20 ∧ settings.constantTerms ≤ 20 := by
  have hfault := validate_eq_ok.mp hvalid
  unfold fault? at hfault
  split_ifs at hfault with hfixed hzero hmany hlong hname
  simp only [Bool.or_eq_true, decide_eq_true_eq, not_or, not_lt] at hmany
  simp only [Bool.not_eq_true', Bool.not_eq_false] at hname
  have hlength := (length_le_utf8ByteSize settings.unknownName).trans (not_lt.mp hlong)
  rw [← String.length_toList] at hlength
  exact ⟨⟨hname, hlength⟩, hmany⟩

/-- A name of an unknown is made of letters and digits. -/
theorem isAlphanum_of_isName {cs : List Char} (hname : isName cs = true) :
    ∀ c ∈ cs, c.isAlphanum = true := by
  cases cs with
  | nil => exact absurd hname (by simp [isName])
  | cons first rest =>
      rw [isName, Bool.and_eq_true, List.all_eq_true] at hname
      intro c hc
      rcases List.mem_cons.mp hc with rfl | hc
      · exact isAlphanum_iff.mpr (Or.inl hname.1)
      · exact hname.2 c hc

/-- An accepted name is read as a name. -/
theorem reads_of_isName {cs : List Char} (hname : isName cs = true) : IsName cs := by
  cases cs with
  | nil => exact absurd hname (by simp [isName])
  | cons first rest =>
      rw [isName, Bool.and_eq_true, List.all_eq_true] at hname
      refine ⟨startsName_iff.mpr (Or.inl hname.1), fun c hc => ?_⟩
      simp [continuesName, hname.2 c hc]

theorem HasName.isAlphanum (hname : settings.HasName) :
    ∀ c ∈ settings.unknownName.toList, c.isAlphanum = true :=
  isAlphanum_of_isName hname.isName

theorem HasName.reads (hname : settings.HasName) : IsName settings.unknownName.toList :=
  reads_of_isName hname.isName

end Settings

/-! ## Short questions -/

theorem Question.Fits.length_chars_le {settings : Settings} {question : Question}
    (hfits : question.Fits settings) (hname : settings.HasName)
    (hunknown : settings.unknownTerms ≤ 20) (hconstant : settings.constantTerms ≤ 20) :
    (question.chars settings.unknownName.toList).length ≤ 1024 := by
  calc (question.chars settings.unknownName.toList).length
      ≤ (question.left ++ question.right).length * (settings.unknownName.toList.length + 4) + 3 :=
        Question.length_chars_le _ hfits.small
    _ ≤ 40 * (16 + 4) + 3 := by
        gcongr
        · exact hfits.length_le hunknown hconstant
        · exact hname.length
    _ ≤ 1024 := by decide

/-! ## Steps that cannot fail -/

section Steps

variable {σ : Type} {source mid : σ}

theorem outcome_mapError {ε δ α : Type} {draw : Draw σ ε α} {value : α} (f : ε → δ)
    (hdraw : draw.outcome source = some (.ok value, mid)) :
    (draw.mapError f).outcome source = some (.ok value, mid) := by
  simp only [Draw.mapError, outcome_ofOutcome, hdraw]
  rfl

variable [WordSource σ]

/-- A toss of the coin takes one word of 64 bits. -/
theorem outcome_coin {ε : Type} (source : σ) : (coin : Draw σ ε Bool).outcome source =
    some (.ok (decide ((WordSource.next64 source).1.toNat < UInt64.size / 2)),
      (WordSource.next64 source).2) := rfl

/-- A toss of the coin always ends. -/
theorem exists_outcome_coin {ε : Type} (source : σ) : ∃ heads next,
    (coin : Draw σ ε Bool).outcome source = some (.ok heads, next) :=
  ⟨_, _, outcome_coin source⟩

/-- The coin alone decides whether unit coefficients are dropped. -/
theorem outcome_dropUnitCoefficients {name : String} {heads : Bool}
    (hname : ∀ c ∈ name.toList, c.isAlphanum = true) (text : String)
    (hcoin : (coin : Draw σ ExerciseError Bool).outcome source = some (.ok heads, mid)) :
    (dropUnitCoefficients text name).outcome source = some (.ok (if heads then
      String.ofList ((Regex.unit name.toList).replaceAll name.toList text.toList) else text),
        mid) := by
  unfold dropUnitCoefficients
  rw [outcome_bind, hcoin]
  cases heads with
  | false => rfl
  | true =>
      simp only [Option.bind_some, if_true, Regex.readRecording?_unitSource hname]
      rfl

end Steps

/-! ## Generation -/

/-- Different outcomes ask for different answers. -/
theorem Answer.ofOutcome_injective : Function.Injective Answer.ofOutcome := by
  intro outcome other hsame
  cases outcome <;> cases other <;> simp_all [Answer.ofOutcome]

/-- An outcome that asks for a number is this root. -/
theorem Outcome.eq_root_of_entries {outcome : Outcome} {name : String}
    {entries : List (String × Answer)} {q : ℚ}
    (hroot : ∀ r, outcome = .root r → entries = [(name, .value (.number r))])
    (hspecial : ∀ kind, outcome = .special kind → entries = [(name, .special kind)])
    (hentries : entries = [(name, .value (.number q))]) : outcome = .root q := by
  cases outcome with
  | root r => simpa using (hroot r rfl).symm.trans hentries
  | special kind => simpa using (hspecial kind rfl).symm.trans hentries

namespace Exercise

variable {σ : Type} [WordSource σ] {attempts : Nat} {settings : Settings} {catalogue : Catalogue}
  {source mid : σ} {question : Question}

/-- The text of a drawn question is read and solved as its terms say. -/
theorem parseEquation_of_fits (hvalid : settings.validate = .ok ())
    (hfits : question.Fits settings) :
    ∃ equation outcome,
      parseEquation (String.ofList (question.chars settings.unknownName.toList)) = .ok equation ∧
      equation.solve settings.unknownName = .ok outcome ∧
      ∀ v, outcome.admits v ↔ question.HoldsAt v := by
  obtain ⟨hname, hunknown, hconstant⟩ := Settings.bounds_of_validate hvalid
  have hlength := hfits.length_chars_le hname hunknown hconstant
  obtain ⟨equation, outcome, hread, hsolve, hadmits⟩ := Question.solve_chars hname.reads hlength
  rw [String.ofList_toList] at hsolve
  refine ⟨equation, outcome, ?_, hsolve, hadmits⟩
  rw [parseEquation, String.toList_ofList]
  exact hread

/-- What a drawn question becomes: it is written, read, solved and typeset without an error.  Once
its unit coefficients are dropped or not, as the coin falls, nothing else is drawn. -/
theorem generate_of_drop (hvalid : settings.validate = .ok ())
    (hdraw : (Question.draw attempts settings).outcome source = some (.ok question, mid))
    (hfits : question.Fits settings) :
    ∃ outcome body last, (∀ v, outcome.admits v ↔ question.HoldsAt v) ∧
      (dropUnitCoefficients (withoutStars (String.ofList
        (question.chars settings.unknownName.toList))) settings.unknownName).outcome mid =
          some (.ok body, last) ∧
      (generate attempts settings (.ofForms StandardForm.all)).outcome source =
        some (.ok ⟨settings, String.ofList (question.chars settings.unknownName.toList),
          inlineMath body, .single settings.unknownName (.ofOutcome outcome), standardJudge⟩,
            last) := by
  obtain ⟨hname, -, -⟩ := Settings.bounds_of_validate hvalid
  obtain ⟨equation, outcome, hparse, hsolve, hadmits⟩ := parseEquation_of_fits hvalid hfits
  -- the coin falls, and whatever it shows the pattern for unit coefficients is read
  obtain ⟨heads, last, hcoin⟩ : ∃ heads last,
      (coin : Draw σ ExerciseError Bool).outcome mid = some (.ok heads, last) :=
    exists_outcome_coin mid
  obtain ⟨body, hbody⟩ : ∃ body, (dropUnitCoefficients (withoutStars (String.ofList
      (question.chars settings.unknownName.toList))) settings.unknownName).outcome mid =
        some (.ok body, last) :=
    ⟨_, outcome_dropUnitCoefficients hname.isAlphanum _ hcoin⟩
  refine ⟨outcome, body, last, hadmits, hbody, ?_⟩
  unfold generate
  simp only [outcome_bind_eq_some]
  refine Or.inl ⟨(), source, ?_, Or.inl ⟨question, mid, outcome_mapError _ hdraw,
    Or.inl ⟨body, last, hbody, ?_⟩⟩⟩
  · rw [hvalid, outcome_liftExcept]
  · rw [build_standard.mpr ⟨equation, outcome, hparse, hsolve, rfl⟩, outcome_liftExcept]

/-- With valid settings, the generation ends when the draws of its question do. -/
theorem isSome_generate (hvalid : settings.validate = .ok ())
    (hcatalogue : Catalogue.standard = .ok catalogue)
    (hends : ((Question.draw attempts settings : Draw σ SamplingError Question).outcome
      source).isSome = true) :
    ((generate attempts settings catalogue).outcome source).isSome = true := by
  obtain rfl := Except.ok.inj (Catalogue.standard_eq_ok.symm.trans hcatalogue)
  obtain ⟨question, mid, hdraw, hfits⟩ := (Question.yields_draw attempts settings).of_isSome hends
  obtain ⟨outcome, body, last, -, -, hgenerate⟩ := generate_of_drop hvalid hdraw hfits
  rw [hgenerate, Option.isSome_some]

/-- A generation that ends with valid settings gives the exercise for a drawn question: the text of
the question is read as an equation, and the outcome of the equation is what is expected. -/
theorem generate_of_isSome (hvalid : settings.validate = .ok ())
    (hcatalogue : Catalogue.standard = .ok catalogue)
    (hends : ((generate attempts settings catalogue).outcome source).isSome = true) :
    ∃ (question : Question) (equation : Equation) (outcome : Outcome) (latex : String) (last : σ),
      question.Fits settings ∧
      parseEquation (String.ofList (question.chars settings.unknownName.toList)) = .ok equation ∧
      equation.solve settings.unknownName = .ok outcome ∧
      (∀ v, outcome.admits v ↔ question.HoldsAt v) ∧
      (generate attempts settings catalogue).outcome source = some (.ok ⟨settings,
        String.ofList (question.chars settings.unknownName.toList), latex,
        .single settings.unknownName (.ofOutcome outcome), standardJudge⟩, last) := by
  obtain rfl := Except.ok.inj (Catalogue.standard_eq_ok.symm.trans hcatalogue)
  -- the generation ends, so the draws of its question do
  have hdraws : ((Question.draw attempts settings : Draw σ SamplingError Question).outcome
      source).isSome = true := by
    rw [Option.isSome_iff_ne_none]
    intro hnone
    have hquestion : ((Question.draw attempts settings).mapError ExerciseError.sampling).outcome
        source = none := by
      rw [Draw.mapError, outcome_ofOutcome, hnone, Option.map_none]
    simp [generate, hvalid, outcome_bind, outcome_liftExcept, hquestion] at hends
  obtain ⟨question, mid, hdraw, hfits⟩ := (Question.yields_draw attempts settings).of_isSome hdraws
  obtain ⟨outcome, body, last, hadmits, -, hgenerate⟩ := generate_of_drop hvalid hdraw hfits
  -- what was built was read and solved before
  obtain ⟨built, text, latex, hbuild⟩ := (Built.drawn hgenerate).build
  obtain ⟨equation, found, hread, hsolve, hsame⟩ := build_standard.mp hbuild
  obtain ⟨rfl, rfl, -, hexpected, -⟩ := Exercise.mk.inj hsame
  obtain rfl : outcome = found :=
    Answer.ofOutcome_injective (by simpa [Slots.single] using hexpected)
  exact ⟨question, equation, outcome, _, last, hfits, hread, hsolve, hadmits, hgenerate⟩

/-- **Generation never fails, and its answer is right.**  For all valid settings and whatever the
source, once the draws of a question end, an exercise is drawn from that question.  Its text is made
from the draft of the drawn terms and has at most 1024 characters.  The only answer expected is
under the name of the unknown: a root as a number, or a special answer.  It admits exactly the numbers
that satisfy the drawn equation: that the terms before the cut and the terms behind it have the same
sum, which below the highest difficulty says `a * v + b = 0`.  An easy exercise has a root from one to
ten. -/
theorem generate_sound (hvalid : settings.validate = .ok ())
    (hcatalogue : Catalogue.standard = .ok catalogue)
    (hends : ((Question.draw attempts settings : Draw σ SamplingError Question).outcome
      source).isSome = true) :
    ∃ (question : Question) (mid : σ) (exercise : Exercise) (last : σ) (outcome : Outcome),
      (Question.draw attempts settings).outcome source = some (.ok question, mid) ∧
      (generate attempts settings catalogue).outcome source = some (.ok exercise, last) ∧
      exercise.question.toList =
        putName settings.unknownName.toList (dropPlus question.draft) ∧
      exercise.question.length ≤ 1024 ∧
      (∀ q, outcome = .root q →
        exercise.expected.entries = [(settings.unknownName, .value (.number q))]) ∧
      (∀ kind, outcome = .special kind →
        exercise.expected.entries = [(settings.unknownName, .special kind)]) ∧
      question.Fits settings ∧ (∀ v, outcome.admits v ↔ question.HoldsAt v) ∧
      (settings.difficulty ≠ .hard → ∃ a b : ℤ, question = ⟨[⟨a, true⟩, ⟨b, false⟩], []⟩ ∧
        ∀ v : ℚ, outcome.admits v ↔ a * v + b = 0) ∧
      (settings.difficulty = .easy → ∃ n : ℤ, 1 ≤ n ∧ n ≤ 10 ∧ outcome = .root n) := by
  obtain rfl := Except.ok.inj (Catalogue.standard_eq_ok.symm.trans hcatalogue)
  obtain ⟨hname, hunknown, hconstant⟩ := Settings.bounds_of_validate hvalid
  obtain ⟨question, mid, hdraw, hfits⟩ := (Question.yields_draw attempts settings).of_isSome hends
  obtain ⟨outcome, body, last, hadmits, -, hgenerate⟩ := generate_of_drop hvalid hdraw hfits
  obtain ⟨hroot, hspecial⟩ := entries_single_ofOutcome settings.unknownName outcome
  refine ⟨question, mid, _, last, outcome, hdraw, hgenerate, ?_, ?_, hroot, hspecial, hfits,
    hadmits, ?_, ?_⟩
  · rw [String.toList_ofList, Question.chars_eq_draft]
  · rw [String.length_ofList]
    exact hfits.length_chars_le hname hunknown hconstant
  · intro hdifficulty
    obtain ⟨a, b, -, -, hquestion⟩ := hfits.eq_linear hdifficulty
    exact ⟨a, b, hquestion, fun v => (hadmits v).trans (Question.holdsAt_linear hquestion v)⟩
  · intro heasy
    obtain ⟨a, n, ha, hn, hquestion⟩ := hfits.of_easy heasy
    refine ⟨n, hn.1, hn.2, Outcome.eq_root_of_admits fun v => ?_⟩
    rw [hadmits, Question.holdsAt_multiple (by omega) hquestion]

/-- `-3*ex=-10` has the root `10/3`. -/
theorem generate_sound_two_terms :
    (Settings.mk .hard "ex" 1 1).validate = .ok () ∧
    Catalogue.standard = .ok (.ofForms StandardForm.all) ∧
    ∃ (question : Question) (exercise : Exercise) (last : WordFeed),
      (generate 8 ⟨.hard, "ex", 1, 1⟩ (.ofForms StandardForm.all)).outcome
        (WordFeed.ofWords [] 7) = some (.ok exercise, last) ∧
      exercise.question = "-3*ex=-10" ∧
      exercise.question.toList = putName "ex".toList (dropPlus question.draft) ∧
      exercise.expected.entries = [("ex", .value (.number (10 / 3)))] ∧
      ∀ v, (Outcome.root (10 / 3)).admits v ↔ question.HoldsAt v := by
  have hvalid : (Settings.mk .hard "ex" 1 1).validate = .ok () := by decide +kernel
  have hends : ((Question.draw 8 ⟨.hard, "ex", 1, 1⟩ : Draw WordFeed SamplingError Question).outcome
      (WordFeed.ofWords [] 7)).isSome = true := by decide +kernel
  obtain ⟨question, -, exercise, last, outcome, -, hgenerate, htext, -, hroot, hspecial, -, hadmits,
    -⟩ := generate_sound hvalid Catalogue.standard_eq_ok hends
  have hquestion : exercise.question = "-3*ex=-10" :=
    Draw.eq_of_outcome Exercise.question hgenerate (by decide +kernel)
  have hexpected : exercise.expected.entries = [("ex", .value (.number (10 / 3)))] :=
    Draw.eq_of_outcome (·.expected.entries) hgenerate (by decide +kernel)
  obtain rfl := Outcome.eq_root_of_entries hroot hspecial hexpected
  exact ⟨hvalid, Catalogue.standard_eq_ok, question, exercise, last, hgenerate, hquestion, htext,
    hexpected, hadmits⟩

end Exercise

end EquationPractice
