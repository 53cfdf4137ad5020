import EquationPractice.Language.Message
import Mathlib.Data.List.Infix

/-!
# Filled places

A text is cut at its places into pieces.  Filling the places puts an argument between any two pieces,
the first argument at the first place and so on, and leaves the pieces and the arguments as they are.

## Strategy

There is only one way to cut a text, since two places never overlap: a place begins with one brace and
ends with the other.  So it does not matter how the places are found, and `IsCut` only says what the
pieces are.  A piece is passed over because no place is in it, and because what stands behind it,
which is another place or nothing, does not complete a brace at its end.

## Main definitions

* `IsCut`: the pieces of a text between its places.
* `fillCut`: pieces with an argument at every place between them.
-/

namespace EquationPractice

/-- A place, as it is written. -/
def place : List Char :=
  ['\x7b', '\x7d']

/-- A text is made of pieces with a place in front of each later one, and no place is in a piece. -/
structure IsCut (text first : List Char) (later : List (List Char)) : Prop where
  text_eq : text = first ++ later.flatMap (place ++ ·)
  first : ¬place <:+: first
  later : ∀ piece ∈ later, ¬place <:+: piece

/-- Pieces with an argument at every place between them, from left to right.  A place without an
argument stays a place. -/
def fillCut (first : List Char) (later arguments : List (List Char)) : List Char :=
  first ++ (later.mapIdx fun i piece => arguments.getD i place ++ piece).flatten

variable {text first piece rest : List Char} {later arguments : List (List Char)} {c : Char}

theorem fillCut_nil : fillCut first [] arguments = first := by
  simp [fillCut]

/-- The first argument takes the first place, and the others take the later ones. -/
theorem fillCut_cons : fillCut first (piece :: later) arguments =
    first ++ (arguments.getD 0 place ++ fillCut piece later arguments.tail) := by
  have htail : ∀ i, arguments.tail.getD i place = arguments.getD (i + 1) place := by
    intro i
    cases arguments <;> simp
  simp only [fillCut, List.mapIdx_cons, List.flatten_cons, htail, List.append_assoc]

/-! ## The only cut -/

/-- What may stand behind a piece: nothing, or a place. -/
def Resumes (rest : List Char) : Prop :=
  rest = [] ∨ place <+: rest

theorem resumes_flatMap (later : List (List Char)) : Resumes (later.flatMap (place ++ ·)) := by
  cases later with
  | nil => exact Or.inl rfl
  | cons piece later =>
      refine Or.inr ⟨piece ++ later.flatMap (place ++ ·), ?_⟩
      rw [List.flatMap_cons, List.append_assoc]

/-- A piece does not complete a place, and neither does what stands behind it. -/
theorem ne_of_resumes {front tail behind : List Char} (hpiece : ¬place <:+: front ++ '\x7b' :: tail)
    (hrest : Resumes rest) : tail ++ rest ≠ '\x7d' :: behind := by
  intro htext
  cases tail with
  | nil =>
      obtain ⟨more, hplace⟩ := hrest.resolve_left (by rintro rfl; exact absurd htext (by simp))
      exact absurd (List.cons.inj (hplace.trans htext)).1 (by decide)
  | cons d tail =>
      obtain ⟨rfl, -⟩ := List.cons.inj htext
      exact hpiece ⟨front, tail, by simp [place]⟩

/-- A piece is not the beginning of a longer one. -/
theorem eq_nil_of_resumes {more other : List Char} (hpiece : ¬place <:+: piece ++ more)
    (hrest : Resumes rest) (hother : Resumes other) (htext : rest = more ++ other) : more = [] := by
  cases more with
  | nil => rfl
  | cons c tail =>
      -- the shorter piece ends at a place, which the longer one would have to go past
      obtain ⟨behind, rfl⟩ : place <+: rest := hrest.resolve_left (by simp [htext])
      obtain ⟨rfl, htail⟩ := List.cons.inj htext
      exact absurd htail.symm (ne_of_resumes hpiece hother)

/-- The first piece ends where the text resumes for the first time. -/
theorem eq_of_resumes {first' rest' : List Char} (hfirst : ¬place <:+: first)
    (hfirst' : ¬place <:+: first') (hrest : Resumes rest) (hrest' : Resumes rest')
    (htext : first ++ rest = first' ++ rest') : first' = first ∧ rest' = rest := by
  rcases List.append_eq_append_iff.mp htext with ⟨more, rfl, hbehind⟩ | ⟨more, rfl, hbehind⟩
  · obtain rfl := eq_nil_of_resumes hfirst' hrest hrest' hbehind
    simpa using hbehind.symm
  · obtain rfl := eq_nil_of_resumes hfirst hrest' hrest hbehind
    simpa using hbehind

/-- What stands behind the first place of a text is cut like the text. -/
theorem IsCut.tail (hcut : IsCut text first (piece :: later)) :
    IsCut (piece ++ later.flatMap (place ++ ·)) piece later :=
  ⟨rfl, hcut.later piece List.mem_cons_self, fun other hother =>
    hcut.later other (List.mem_cons_of_mem _ hother)⟩

/-- A text has at most one cut. -/
theorem IsCut.unique {first' : List Char} {later' : List (List Char)} (hcut : IsCut text first later)
    (hcut' : IsCut text first' later') : first' = first ∧ later' = later := by
  induction later generalizing text first first' later' with
  | nil =>
      obtain ⟨rfl, hbehind⟩ := eq_of_resumes hcut.first hcut'.first (resumes_flatMap [])
        (resumes_flatMap later') (hcut.text_eq.symm.trans hcut'.text_eq)
      cases later' with
      | nil => exact ⟨rfl, rfl⟩
      | cons piece' later' => exact absurd hbehind (by simp [place])
  | cons piece later ih =>
      obtain ⟨rfl, hbehind⟩ := eq_of_resumes hcut.first hcut'.first
        (resumes_flatMap (piece :: later)) (resumes_flatMap later')
        (hcut.text_eq.symm.trans hcut'.text_eq)
      cases later' with
      | nil => exact absurd hbehind (by simp [place])
      | cons piece' later' =>
          simp only [List.flatMap_cons, List.append_assoc, List.append_cancel_left_eq] at hbehind
          obtain ⟨rfl, rfl⟩ := ih hcut.tail (hbehind ▸ hcut'.tail)
          exact ⟨rfl, rfl⟩

/-- Texts with a place between them are cut into the pieces of both. -/
theorem IsCut.append {front behind first' : List Char} {later' : List (List Char)}
    (hfront : IsCut front first later) (hbehind : IsCut behind first' later') :
    IsCut (front ++ place ++ behind) first (later ++ first' :: later') := by
  refine ⟨?_, hfront.first, fun other hother => ?_⟩
  · rw [hfront.text_eq, hbehind.text_eq]
    simp
  · rcases List.mem_append.mp hother with hother | hother
    · exact hfront.later other hother
    · rcases List.mem_cons.mp hother with rfl | hother
      · exact hbehind.first
      · exact hbehind.later other hother

/-- Every text has a cut. -/
theorem exists_isCut (text : List Char) : ∃ first later, IsCut text first later := by
  induction hlength : text.length using Nat.strong_induction_on generalizing text with
  | _ length ih =>
      by_cases hplace : place <:+: text
      · obtain ⟨front, behind, rfl⟩ := hplace
        simp only [List.length_append, place, List.length_cons, List.length_nil] at hlength
        obtain ⟨first, later, hfront⟩ := ih front.length (by omega) front rfl
        obtain ⟨first', later', hbehind⟩ := ih behind.length (by omega) behind rfl
        exact ⟨first, later ++ first' :: later', hfront.append hbehind⟩
      · exact ⟨text, [], by simp, hplace, by simp⟩

/-! ## Filling -/

/-- A piece is left as it is. -/
theorem fillPlaces_piece (hpiece : ¬place <:+: piece) (hrest : Resumes rest) :
    fillPlaces (piece ++ rest) arguments = piece ++ fillPlaces rest arguments := by
  induction piece with
  | nil => rfl
  | cons c tail ih =>
      have hopen : ∀ behind, c = '\x7b' → tail ++ rest ≠ '\x7d' :: behind := by
        rintro behind rfl
        have hwhole : ¬place <:+: [] ++ '\x7b' :: tail := hpiece
        exact ne_of_resumes hwhole hrest
      have htail : ¬place <:+: tail := fun hplace => hpiece (List.infix_cons hplace)
      rw [List.cons_append, fillPlaces, ih htail, List.cons_append]
      · exact fun behind _ hc htext => hopen behind hc htext
      · exact fun behind _ _ _ hc htext => hopen behind hc htext

/-- A place takes the next argument, and stays when there is none. -/
theorem fillPlaces_place : fillPlaces (place ++ rest) arguments =
    arguments.getD 0 place ++ fillPlaces rest arguments.tail := by
  cases arguments with
  | nil => rfl
  | cons argument arguments => rfl

/-- Filling the places of a text puts the arguments between its pieces. -/
theorem fillPlaces_eq_fillCut (hcut : IsCut text first later) :
    fillPlaces text arguments = fillCut first later arguments := by
  induction later generalizing text first arguments with
  | nil =>
      have hend : fillPlaces [] arguments = [] := by simp [fillPlaces]
      rw [hcut.text_eq, fillPlaces_piece hcut.first (resumes_flatMap []), List.flatMap_nil, hend,
        List.append_nil, fillCut_nil]
  | cons piece later ih =>
      rw [hcut.text_eq, fillPlaces_piece hcut.first (resumes_flatMap (piece :: later)),
        List.flatMap_cons, List.append_assoc, fillPlaces_place, ih hcut.tail, fillCut_cons]

/-- **Every place is filled once.**  The text of a message in a language, which is its default text
where there is none in the language, has exactly one cut at its places.  Formatted, it consists of
the same pieces, with the first argument between the first two of them and so on.  Where there are
too few arguments a place stays, and where there are too many the last ones are left out.  As the
pieces and the arguments stand there unchanged, no place that an argument brings in or completes is
filled. -/
theorem Message.format_eq_fillCut (message : Message) (locale : Locale) (arguments : List String) :
    ∃ first later, IsCut (message.textIn locale).toList first later ∧
      (∀ first' later', IsCut (message.textIn locale).toList first' later' →
        first' = first ∧ later' = later) ∧
      (message.format locale arguments).toList =
        fillCut first later (arguments.map String.toList) := by
  obtain ⟨first, later, hcut⟩ := exists_isCut (message.textIn locale).toList
  refine ⟨first, later, hcut, fun first' later' hcut' => hcut.unique hcut', ?_⟩
  rw [Message.format, String.toList_ofList, fillPlaces_eq_fillCut hcut]

example : (Message.ofText "\x7b\x7b\x7d\x7d\x7b\x7d").format .english ["\x7b\x7d", "a", "b"] =
    "\x7b\x7b\x7d\x7da" := by decide

end EquationPractice
