import EquationPractice.Expr.Reader
import Mathlib.Tactic

/-!
# Tokens at the front of a text

What the scanners for literals, names and single characters take off a text that begins with a whole
token.  A token is whole when nothing that could continue it stands behind it; `HeadFree` says so.
-/

namespace EquationPractice

open Text

/-- No character with the given property stands at the front of the text. -/
def HeadFree (p : Char → Bool) (cs : List Char) : Prop :=
  ∀ c ∈ cs.head?, p c = false

section HeadFree

variable {p q : Char → Bool} {c : Char} {run rest : List Char}

@[simp] theorem headFree_nil : HeadFree p [] := by
  simp [HeadFree]

@[simp] theorem headFree_cons : HeadFree p (c :: rest) ↔ p c = false := by
  simp [HeadFree]

theorem HeadFree.imp (himp : ∀ c, p c = true → q c = true) (hfree : HeadFree q rest) :
    HeadFree p rest := by
  intro c hc
  by_contra hp
  have hq := himp c (by simpa using hp)
  rw [hfree c hc] at hq
  exact absurd hq (by simp)

theorem HeadFree.or (hp : HeadFree p rest) (hq : HeadFree q rest) :
    HeadFree (fun c => p c || q c) rest := by
  intro c hc
  simp [hp c hc, hq c hc]

theorem HeadFree.append (hrun : HeadFree p run) (hrest : HeadFree p rest) :
    HeadFree p (run ++ rest) := by
  cases run with
  | nil => exact hrest
  | cons c tail => simpa using hrun

theorem takeWhile_append_of_headFree (hrun : ∀ c ∈ run, p c = true) (hrest : HeadFree p rest) :
    (run ++ rest).takeWhile p = run := by
  rw [List.takeWhile_append_of_pos hrun]
  cases rest with
  | nil => simp
  | cons c tail => simp [headFree_cons.mp hrest]

theorem dropWhile_append_of_headFree (hrun : ∀ c ∈ run, p c = true) (hrest : HeadFree p rest) :
    (run ++ rest).dropWhile p = rest := by
  rw [List.dropWhile_append_of_pos hrun]
  cases rest with
  | nil => simp
  | cons c tail => simp [headFree_cons.mp hrest]

theorem headFree_dropWhile (p : Char → Bool) (cs : List Char) : HeadFree p (cs.dropWhile p) := by
  induction cs with
  | nil => exact headFree_nil
  | cons c rest ih =>
      rw [List.dropWhile_cons]
      split
      · exact ih
      · next hc => simpa using hc

end HeadFree

/-! ## Classes of characters by code point -/

theorem isDigit_iff {c : Char} : c.isDigit = true ↔ 48 ≤ c.toNat ∧ c.toNat ≤ 57 := by
  simp only [Char.isDigit, Bool.and_eq_true, decide_eq_true_eq, ge_iff_le, UInt32.le_iff_toNat_le]
  rfl

theorem isAlpha_iff {c : Char} : c.isAlpha = true ↔
    65 ≤ c.toNat ∧ c.toNat ≤ 90 ∨ 97 ≤ c.toNat ∧ c.toNat ≤ 122 := by
  change (decide (c.val ≥ 'A'.val ∧ c.val ≤ 'Z'.val) ||
    (decide (c.val ≥ 'a'.val) && decide (c.val ≤ 'z'.val))) = true ↔ _
  simp only [Bool.or_eq_true, Bool.and_eq_true, decide_eq_true_eq]
  rfl

theorem isAlphanum_iff {c : Char} : c.isAlphanum = true ↔ c.isAlpha = true ∨ c.isDigit = true := by
  simp [Char.isAlphanum]

theorem startsName_iff {c : Char} : startsName c = true ↔ c.isAlpha = true ∨ c.toNat = 95 := by
  simp only [startsName, Bool.or_eq_true, beq_iff_eq]
  rw [← Char.toNat_inj]
  rfl

theorem continuesName_iff {c : Char} :
    continuesName c = true ↔ startsName c = true ∨ c.isDigit = true := by
  simp only [continuesName, startsName, Char.isAlphanum, Bool.or_eq_true]
  tauto

theorem isGap_iff {c : Char} :
    isGap c = true ↔ c.toNat = 32 ∨ c.toNat = 9 ∨ c.toNat = 13 ∨ c.toNat = 10 := by
  simp only [isGap, Bool.or_eq_true, beq_iff_eq, or_assoc, ← Char.toNat_inj]
  rfl

theorem continuesName_of_startsName {c : Char} (hname : startsName c = true) :
    continuesName c = true :=
  continuesName_iff.mpr (Or.inl hname)

theorem continuesName_of_isDigit {c : Char} (hdigit : c.isDigit = true) :
    continuesName c = true :=
  continuesName_iff.mpr (Or.inr hdigit)

theorem not_isGap_of_continuesName {c : Char} (hname : continuesName c = true) :
    isGap c = false := by
  rw [Bool.eq_false_iff, Ne, isGap_iff]
  rw [continuesName_iff, startsName_iff, isAlpha_iff, isDigit_iff] at hname
  omega

theorem not_isDigit_of_startsName {c : Char} (hname : startsName c = true) :
    c.isDigit = false := by
  rw [Bool.eq_false_iff, Ne, isDigit_iff]
  rw [startsName_iff, isAlpha_iff] at hname
  omega

/-! ## Gaps -/

theorem skipGaps_of_headFree {cs : List Char} (hfree : HeadFree isGap cs) : skipGaps cs = cs := by
  cases cs with
  | nil => rfl
  | cons c rest => rw [skipGaps_cons, if_neg (by simp [headFree_cons.mp hfree])]

theorem headFree_skipGaps (cs : List Char) : HeadFree isGap (skipGaps cs) := by
  induction cs with
  | nil => simp
  | cons c rest ih =>
      rw [skipGaps_cons]
      split
      · exact ih
      · next hgap => simpa using hgap

@[simp] theorem skipGaps_skipGaps (cs : List Char) : skipGaps (skipGaps cs) = skipGaps cs :=
  skipGaps_of_headFree (headFree_skipGaps cs)

theorem skipGaps_append {gaps : List Char} (hgaps : ∀ c ∈ gaps, isGap c = true) (cs : List Char) :
    skipGaps (gaps ++ cs) = skipGaps cs :=
  List.dropWhile_append_of_pos hgaps

theorem skipGaps_cons_of_not_isGap {c : Char} {cs : List Char} (hgap : isGap c = false) :
    skipGaps (c :: cs) = c :: cs :=
  skipGaps_of_headFree (headFree_cons.mpr hgap)

/-! ## Literals -/

/-- A run of digits is read as a whole number, unless a digit or a point follows. -/
theorem decimal?_digits {digits rest : List Char} (hne : digits ≠ [])
    (hdigits : ∀ c ∈ digits, c.isDigit = true)
    (hrest : HeadFree (fun c => c.isDigit || c == '.') rest) :
    decimal? (digits ++ rest) = some (decimalValue digits [], rest) := by
  have hfree : HeadFree Char.isDigit rest := hrest.imp fun c hc => by simp [hc]
  unfold decimal?
  rw [takeWhile_append_of_headFree hdigits hfree, dropWhile_append_of_headFree hdigits hfree]
  split
  · simp at hrest
  · simp [hne]

/-- Digits, a point and digits are read as a decimal literal, unless a digit follows. -/
theorem decimal?_point {whole fraction rest : List Char} (hne : whole ≠ [] ∨ fraction ≠ [])
    (hwhole : ∀ c ∈ whole, c.isDigit = true) (hfraction : ∀ c ∈ fraction, c.isDigit = true)
    (hrest : HeadFree Char.isDigit rest) :
    decimal? (whole ++ '.' :: (fraction ++ rest)) =
      some (decimalValue whole fraction, rest) := by
  have hpoint : HeadFree Char.isDigit ('.' :: (fraction ++ rest)) :=
    headFree_cons.mpr (by decide)
  have hsome : (whole.isEmpty && fraction.isEmpty) = false := by
    rw [Bool.and_eq_false_iff, List.isEmpty_eq_false_iff, List.isEmpty_eq_false_iff]
    exact hne
  unfold decimal?
  rw [takeWhile_append_of_headFree hwhole hpoint, dropWhile_append_of_headFree hwhole hpoint]
  simp only [takeWhile_append_of_headFree hfraction hrest,
    dropWhile_append_of_headFree hfraction hrest]
  rw [if_neg (by rw [hsome]; exact Bool.false_ne_true)]

/-- A text that begins with neither a digit nor a point begins with no literal. -/
theorem decimal?_eq_none {cs : List Char}
    (hfree : HeadFree (fun c => c.isDigit || c == '.') cs) : decimal? cs = none := by
  cases cs with
  | nil => rfl
  | cons c rest =>
      have hc := headFree_cons.mp hfree
      simp only [Bool.or_eq_false_iff, beq_eq_false_iff_ne] at hc
      unfold decimal?
      simp only [List.dropWhile_cons, List.takeWhile_cons, hc.1]
      split
      · next heq => simp_all
      · simp

/-! ## Names -/

/-- The characters of a name: a letter or an underscore, then letters, digits and underscores. -/
def IsName : List Char → Prop
  | [] => False
  | c :: rest => startsName c = true ∧ ∀ d ∈ rest, continuesName d = true

instance : DecidablePred IsName
  | [] => inferInstanceAs (Decidable False)
  | c :: rest =>
      decidable_of_iff ((startsName c && rest.all continuesName) = true) (by simp [IsName])

theorem IsName.ne_nil {name : List Char} (hname : IsName name) : name ≠ [] := by
  rintro rfl
  exact hname

theorem IsName.continuesName {name : List Char} (hname : IsName name) :
    ∀ c ∈ name, continuesName c = true := by
  cases name with
  | nil => exact hname.elim
  | cons first rest =>
      intro c hc
      rcases List.mem_cons.mp hc with rfl | hc
      · exact continuesName_of_startsName hname.1
      · exact hname.2 c hc

/-- A name goes on with any character that continues names. -/
theorem IsName.concat {name : List Char} {c : Char} (hname : IsName name)
    (hc : EquationPractice.continuesName c = true) : IsName (name ++ [c]) := by
  cases name with
  | nil => exact hname.elim
  | cons first rest =>
      exact ⟨hname.1, List.forall_mem_append.mpr ⟨hname.2, List.forall_mem_singleton.mpr hc⟩⟩

/-- A name is read whole, unless something follows that continues it. -/
theorem name?_name {name rest : List Char} (hname : IsName name)
    (hrest : HeadFree continuesName rest) :
    name? (name ++ rest) = some (String.ofList name, rest) := by
  cases name with
  | nil => exact hname.elim
  | cons c tail =>
      obtain ⟨hstart, htail⟩ := hname
      simp only [List.cons_append, name?, hstart, if_true]
      rw [takeWhile_append_of_headFree htail hrest, dropWhile_append_of_headFree htail hrest]

/-! ## Single characters -/

section oneOf

variable {allowed : List Char} {c : Char} {cs rest : List Char}

theorem oneOf_skipGaps (allowed cs : List Char) :
    oneOf allowed (skipGaps cs) = oneOf allowed cs := by
  unfold oneOf
  rw [skipGaps_skipGaps]

theorem oneOf_eq_ok : oneOf allowed cs = .ok (c, rest) ↔ skipGaps cs = c :: rest ∧ c ∈ allowed := by
  unfold oneOf
  cases skipGaps cs with
  | nil => simp
  | cons d tail =>
      by_cases hmem : d ∈ allowed
      · simp only [hmem, if_true, Except.ok.injEq, Prod.mk.injEq, List.cons.injEq]
        constructor
        · rintro ⟨rfl, rfl⟩
          exact ⟨⟨rfl, rfl⟩, hmem⟩
        · exact And.left
      · simp only [hmem, if_false, reduceCtorEq, List.cons.injEq, false_iff]
        rintro ⟨⟨rfl, -⟩, hc⟩
        exact hmem hc

theorem oneOf_eq_error (hfree : HeadFree (· ∈ allowed) (skipGaps cs)) :
    oneOf allowed cs = .error ⟨skipGaps cs⟩ := by
  unfold oneOf
  cases hskip : skipGaps cs with
  | nil => rfl
  | cons d tail =>
      rw [hskip] at hfree
      have hmem : d ∉ allowed := by simpa using headFree_cons.mp hfree
      simp [hmem]

theorem length_lt_of_oneOf (hread : oneOf allowed cs = .ok (c, rest)) :
    rest.length < cs.length := by
  have hlength := length_skipGaps_le cs
  rw [(oneOf_eq_ok.mp hread).1] at hlength
  exact hlength

end oneOf

end EquationPractice
