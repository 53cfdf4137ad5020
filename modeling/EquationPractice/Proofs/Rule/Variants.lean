import EquationPractice.Proofs.Regex.Moving
import EquationPractice.Proofs.Regex.Scanning
import EquationPractice.Proofs.Regex.Wrapped
import EquationPractice.Proofs.Rule.StandardForms

/-!
# The variants of a rule

One source gives three patterns: as it is, to search with, and written between the start and the finish
of a text, without and with an optional sign.  Every rule that there is has all three, since two levels
of groups are set aside for what is written around its source.  A whole text matches if the second one
is found in it, and it matches with a sign if the third one is.

Taking the sign moves the rest of the match on by one character.  A sign belongs to no word, so a pattern
that asks for nothing else that stands before it matches behind the sign what it matches at the start.

## Main definitions

* `Rule.Variants`: the patterns that are read around the source of a rule.

## Main results

* `Rule.Created.exists_variants`: every rule has them, and they tell what matches as a whole.
* `Rule.Created.matchers_agree`: the ways to hold a text against a rule, compared.
* `Rule.Created.matchesSigned_iff_behind_sign`: what the optional sign adds.
-/

namespace EquationPractice

namespace Rule

open Regex Text

variable {rule : Rule} {text : String}

/-! ## Sources -/

/-- How a source is written between the start and the finish of a text. -/
def anchoredSource (source : String) : String :=
  "^(?:" ++ source ++ ")$"

/-- The patterns that are read around the source of a rule, without and with the optional sign. -/
structure Variants (rule : Rule) (whole signed : Regex) : Prop where
  read_whole : Regex.read? Regex.maxDepth (anchoredSource rule.source).toList = some whole
  read_signed : Regex.read? Regex.maxDepth (anchoredSource rule.signedSource).toList = some signed

theorem toList_anchoredSource (source : String) :
    (anchoredSource source).toList = wholeText source.toList := by
  simp [anchoredSource, wholeText, enclosed]

theorem toList_signedSource (rule : Rule) :
    rule.signedSource.toList = signedText rule.source.toList := by
  simp [signedSource, optionalSignSource, signSource, signedText, signText, enclosed]

/-- What is written around the source of a rule is read as a pattern, and a text has a match of that
pattern exactly if it matches the rule as a whole. -/
theorem Created.exists_variants (hcreated : rule.Created) : ∃ whole signed,
    rule.Variants whole signed ∧ ∀ text : String,
      rule.matchesWhole text = whole.isFoundIn text.toList ∧
      rule.matchesSigned text = signed.isFoundIn text.toList := by
  obtain ⟨r, groups, hreads, hwithin, hregex⟩ := read?_eq_some.mp hcreated.read?_source
  have hwhole : read? maxDepth (wholeText rule.source.toList) = _ :=
    (hreads.mono (Nat.le_succ maxSourceDepth)).read?_wholeText hwithin
  have hsigned : read? maxDepth (wholeText (signedText rule.source.toList)) = _ :=
    hreads.signedText.read?_wholeText (by rwa [referencesWithin, references_signed])
  rw [← toList_anchoredSource] at hwhole
  rw [← toList_signedSource, ← toList_anchoredSource, isContextual_signed,
    references_signed] at hsigned
  refine ⟨_, _, ⟨hwhole, hsigned⟩, fun text => ⟨?_, ?_⟩⟩
  · rw [isFoundIn_whole, hregex, matchesWhole]
  · rw [isFoundIn_whole, matchesWhole_signed, hregex, matchesSigned, signedRegex]

/-! ## The optional sign -/

/-- A text matches with a sign if it matches without one, or if it begins with a sign and the rule
matches from the second place to the end. -/
theorem matchesSigned_iff_or : rule.matchesSigned text = true ↔
    rule.matchesWhole text = true ∨
      ∃ sign ∈ ['+', '-'], text.toList[0]? = some sign ∧
        ∃ stop ∈ rule.regex.runs text.toList (.at 1), stop.pos = text.toList.length := by
  rw [matchesSigned, matchesWhole, matchesWhole_iff, matchesWhole_iff, signedRegex]
  simp only [runs, mem_gather, mem_runs_optional, mem_runs_signRegex]
  constructor
  · rintro ⟨stop, ⟨mid, rfl | ⟨sign, hsign, hfirst, rfl⟩, hstop⟩, hfinish⟩
    · exact Or.inl ⟨stop, hstop, hfinish⟩
    · exact Or.inr ⟨sign, hsign, hfirst, stop, hstop, hfinish⟩
  · rintro (⟨stop, hstop, hfinish⟩ | ⟨sign, hsign, hfirst, stop, hstop, hfinish⟩)
    · exact ⟨stop, ⟨.at 0, Or.inl rfl, hstop⟩, hfinish⟩
    · exact ⟨stop, ⟨.at 1, Or.inr ⟨sign, hsign, hfirst, rfl⟩, hstop⟩, hfinish⟩

theorem matchesSigned_of_matchesWhole (hwhole : rule.matchesWhole text = true) :
    rule.matchesSigned text = true :=
  matchesSigned_iff_or.mpr (Or.inl hwhole)

theorem not_isWordChar_of_sign {sign : Char} (hsign : sign ∈ ['+', '-']) :
    isWordChar sign = false := by
  simp only [List.mem_cons, List.not_mem_nil, or_false] at hsign
  rcases hsign with rfl | rfl
  · decide
  · decide

/-- Behind a character that belongs to no word, a pattern that does not ask for what stands before it
matches to the end exactly what it matches as a whole. -/
theorem exists_run_behind_iff {r : Regex} {first : Char} {rest : List Char}
    (hfirst : isWordChar first = false) (hbefore : r.asksBefore = false) :
    (∃ stop ∈ r.runs (first :: rest) (.at 1), stop.pos = (first :: rest).length) ↔
      r.matchesWhole rest = true := by
  have hmoves : Moves [first].length (r.runs rest) (r.runs ([first] ++ rest)) :=
    runs_moved (by simpa using hfirst) hbefore
  have hruns : r.runs (first :: rest) (.at 1) = (r.runs rest (.at 0)).map (Place.moved 1) :=
    hmoves (.at 0)
  rw [matchesWhole_iff, hruns]
  simp [Nat.add_comm]

/-- **Whole texts, searches and counts.**  The patterns around the source of a rule are read, and they
tell which texts match as a whole, without and with a sign.  A text has a match exactly if at least
one is counted, and at most one is counted for each of its places.  A text that matches as a whole
matches with an optional sign too, and has a match. -/
theorem Created.matchers_agree (hcreated : rule.Created) : ∃ whole signed,
    rule.Variants whole signed ∧ ∀ text : String,
      rule.matchesWhole text = whole.isFoundIn text.toList ∧
      rule.matchesSigned text = signed.isFoundIn text.toList ∧
      (rule.isFoundIn text = true ↔ 1 ≤ rule.count text) ∧
      rule.count text ≤ text.length + 1 ∧
      (rule.matchesWhole text = true → rule.matchesSigned text = true) ∧
      (rule.matchesWhole text = true → rule.isFoundIn text = true) := by
  obtain ⟨whole, signed, hvariants, hagree⟩ := hcreated.exists_variants
  refine ⟨whole, signed, hvariants, fun text => ⟨(hagree text).1, (hagree text).2, ?_, ?_, ?_, ?_⟩⟩
  · exact isFoundIn_iff_count _ _
  · exact String.length_toList ▸ count_le _ _
  · exact matchesSigned_of_matchesWhole
  · exact isFoundIn_of_matchesWhole

theorem Created.matchers_agree_integer : ∃ rule whole signed,
    StandardForm.integer.rule = .ok rule ∧ rule.Created ∧ rule.Variants whole signed ∧
      whole.isFoundIn "42".toList = true ∧ signed.isFoundIn "42".toList = true ∧
      rule.isFoundIn "42" = true := by
  have hcreated := (created_of_create (StandardForm.integer.rule_eq_ok :)).1
  obtain ⟨whole, signed, hvariants, hagree⟩ := hcreated.matchers_agree
  obtain ⟨hwhole, hsigned, -, -, hsign, hfound⟩ := hagree "42"
  have hmatches : StandardForm.integer.writtenRule.matchesWhole "42" = true := by decide
  exact ⟨_, whole, signed, StandardForm.integer.rule_eq_ok, hcreated, hvariants,
    hwhole.symm.trans hmatches, hsigned.symm.trans (hsign hmatches), hfound hmatches⟩

/-- **The optional sign.**  If a pattern asks neither for the start of the text nor for what stands
before a place, a text matches with the optional sign exactly if it matches as a whole, or if it is a
sign before a text that does. -/
theorem Created.matchesSigned_iff_behind_sign (hcreated : rule.Created)
    (hbefore : rule.regex.asksBefore = false) : ∃ whole signed,
    rule.Variants whole signed ∧ ∀ text : String,
      rule.matchesWhole text = whole.isFoundIn text.toList ∧
      rule.matchesSigned text = signed.isFoundIn text.toList ∧
      (rule.matchesSigned text = true ↔
        rule.matchesWhole text = true ∨
          ∃ sign ∈ ['+', '-'], ∃ rest : String, text.toList = sign :: rest.toList ∧
            rule.matchesWhole rest = true) := by
  obtain ⟨whole, signed, hvariants, hagree⟩ := hcreated.exists_variants
  refine ⟨whole, signed, hvariants, fun text => ⟨(hagree text).1, (hagree text).2, ?_⟩⟩
  rw [matchesSigned_iff_or]
  refine or_congr_right (exists_congr fun sign => and_congr_right fun hsign => ?_)
  have hword := not_isWordChar_of_sign hsign
  constructor
  · rintro ⟨hfirst, hrest⟩
    obtain ⟨rest, htext⟩ := List.head?_eq_some_iff.mp (List.head?_eq_getElem? ▸ hfirst)
    refine ⟨.ofList rest, by rw [htext, String.toList_ofList], ?_⟩
    rw [htext, exists_run_behind_iff hword hbefore] at hrest
    rwa [matchesWhole, String.toList_ofList]
  · rintro ⟨rest, htext, hwhole⟩
    rw [htext, exists_run_behind_iff hword hbefore]
    exact ⟨rfl, hwhole⟩

/-- A rule with a group that is referred to, two branches and the end of a word. -/
def doubledLetters : Rule :=
  ⟨"(a|ab)\\1|x\\b",
    .alt (.seq (.group 1 (.alt (.one (.single 'a'))
      (.seq (.one (.single 'a')) (.one (.single 'b'))))) (.backref 1))
      (.seq (.one (.single 'x')) (.anchor .wordBoundary)),
    ["abab"], ["ab"], ["x-aa"]⟩

theorem Created.matchesSigned_iff_behind_sign_doubledLetters :
    doubledLetters.Created ∧ doubledLetters.regex.asksBefore = false ∧
      doubledLetters.matchesWhole "-abab" = false ∧ doubledLetters.matchesWhole "abab" = true ∧
      doubledLetters.matchesSigned "-abab" = true := by
  have hcreate : create doubledLetters.source ["abab"] ["ab"] ["x-aa"] = .ok doubledLetters := by
    have hfault : fault? doubledLetters.source ["abab"] ["ab"] ["x-aa"] = none := by
      decide
    have hread : Regex.read? maxSourceDepth doubledLetters.source.toList =
        some doubledLetters.regex := by decide +kernel
    rw [create, hfault, hread]
    rfl
  have hcreated := (created_of_create hcreate).1
  have hmatches : doubledLetters.matchesWhole "abab" = true := by decide
  obtain ⟨whole, signed, -, hagree⟩ := hcreated.matchesSigned_iff_behind_sign rfl
  refine ⟨hcreated, rfl, by decide, hmatches, ?_⟩
  exact (hagree "-abab").2.2.mpr (Or.inr ⟨'-', by simp, "abab", rfl, hmatches⟩)

end Rule

end EquationPractice
