import EquationPractice.Proofs.Regex.Shapes
import EquationPractice.Regex.Reader
import Mathlib.Data.List.TakeWhile

/-!
# Reading a source inside a group

A pattern is put together from the source of another one as text: parentheses are written around the
source, and more before and behind it.  A source that is read when it stands alone is read as the same
pattern when a closing parenthesis follows, and the reading stops right at that parenthesis.  A bracket,
a group or an escape that is left open in the source could take in the parenthesis, but then the source
would not be read alone.  A brace that begins no repetition at the end of the source begins none before
a parenthesis either.

## Strategy

Each layer of the reader is gone through once, from the innermost: what it makes of a text it makes of
the text with more behind it, and leaves that behind.  The layers inside a group are given by a property
of the reader for what is inside, and the last theorem ties the knot by induction on the depth, where
more levels of groups may be allowed around the source than for the source alone.

## Main definitions

* `Regex.Closing`: what may follow.
* `Regex.ReadsOn`: one reader reads what another one does when more text follows.

## Main results

* `Regex.readsOn_choiceWithin`: the reader of choices, for any depth.
-/

namespace EquationPractice

namespace Regex

variable {cs rest suffix : List Char} {c : Char}

/-! ## What follows -/

theorem eq_cons_or_ne (c : Char) (cs : List Char) :
    (∃ more, cs = c :: more) ∨ ∀ more, cs ≠ c :: more := by
  by_cases hcs : ∃ more, cs = c :: more
  · exact Or.inl hcs
  · exact Or.inr fun more heq => hcs ⟨more, heq⟩

/-- Nothing follows, or a closing parenthesis. -/
def Closing (suffix : List Char) : Prop :=
  HeadFree (· != ')') suffix

theorem Closing.cases (hsuffix : Closing suffix) : suffix = [] ∨ ∃ tail, suffix = ')' :: tail := by
  cases suffix with
  | nil => exact Or.inl rfl
  | cons c tail =>
      obtain rfl : c = ')' := by simpa [Closing] using hsuffix
      exact Or.inr ⟨tail, rfl⟩

theorem Closing.headFree (hsuffix : Closing suffix) {p : Char → Bool} (hp : p ')' = false) :
    HeadFree p suffix := by
  refine hsuffix.imp fun c hc => ?_
  rw [bne_iff_ne]
  rintro rfl
  simp [hp] at hc

/-- A run of characters that a parenthesis does not belong to ends where it did. -/
theorem Closing.takeWhile_dropWhile (hsuffix : Closing suffix) {p : Char → Bool}
    (hp : p ')' = false) (cs : List Char) :
    (cs ++ suffix).takeWhile p = cs.takeWhile p ∧
      (cs ++ suffix).dropWhile p = cs.dropWhile p ++ suffix := by
  have hrest : HeadFree p (cs.dropWhile p ++ suffix) :=
    (headFree_dropWhile p cs).append (hsuffix.headFree hp)
  have hrun : ∀ c ∈ cs.takeWhile p, p c = true := fun c hc => List.mem_takeWhile_imp hc
  have htake := takeWhile_append_of_headFree hrun hrest
  have hdrop := dropWhile_append_of_headFree hrun hrest
  rw [← List.append_assoc, List.takeWhile_append_dropWhile] at htake hdrop
  exact ⟨htake, hdrop⟩

/-- Only a parenthesis may stand first that did not. -/
theorem Closing.append_ne (hsuffix : Closing suffix) (hc : c ≠ ')') (hcs : ∀ more, cs ≠ c :: more) :
    ∀ more, cs ++ suffix ≠ c :: more := by
  rintro more heq
  cases cs with
  | nil =>
      rcases hsuffix.cases with rfl | ⟨tail, rfl⟩
      · cases heq
      · exact hc (List.cons.inj heq).1.symm
  | cons d rest =>
      obtain ⟨rfl, -⟩ := List.cons.inj heq
      exact hcs rest rfl

/-- Whether a character stands first, and what stands behind it, or all of the text if it does not. -/
def passOver (c : Char) (cs : List Char) : Bool × List Char :=
  if cs.head? = some c then (true, cs.tail) else (false, cs)

@[simp] theorem passOver_cons (c : Char) (rest : List Char) :
    passOver c (c :: rest) = (true, rest) := by
  simp [passOver]

theorem passOver_other (hcs : ∀ more, cs ≠ c :: more) : passOver c cs = (false, cs) := by
  rw [passOver, if_neg]
  rw [List.head?_eq_some_iff]
  rintro ⟨more, heq⟩
  exact hcs more heq

theorem passOver_append (hsuffix : Closing suffix) (hc : c ≠ ')') (cs : List Char) :
    passOver c (cs ++ suffix) = ((passOver c cs).1, (passOver c cs).2 ++ suffix) := by
  rcases eq_cons_or_ne c cs with ⟨more, rfl⟩ | hcs
  · simp
  · rw [passOver_other hcs, passOver_other (hsuffix.append_ne hc hcs)]

/-! ## Bounds -/

/-- A result of reading with more text left. -/
def leaving (suffix : List Char) {α : Type} : Option (α × List Char) → Option (α × List Char) :=
  Option.map (Prod.map id (· ++ suffix))

@[simp] theorem leaving_none {α : Type} :
    leaving suffix (none : Option (α × List Char)) = none := rfl

@[simp] theorem leaving_some {α : Type} (a : α) :
    leaving suffix (some (a, rest)) = some (a, rest ++ suffix) := rfl

theorem number?_append (hsuffix : Closing suffix) (cs : List Char) :
    number? (cs ++ suffix) = leaving suffix (number? cs) := by
  obtain ⟨htake, hdrop⟩ := hsuffix.takeWhile_dropWhile (p := Char.isDigit) (by decide) cs
  unfold number?
  rw [htake, hdrop]
  dsimp only
  split
  · rfl
  · rfl

/-- What is read of the bounds between braces behind the first number. -/
def boundsAfter? (least : Nat) : List Char → Option (Bounds × List Char)
  | '\x7d' :: rest => some (⟨least, some least⟩, rest)
  | ',' :: '\x7d' :: rest => some (⟨least, none⟩, rest)
  | ',' :: rest =>
      match number? rest with
      | some (most, '\x7d' :: rest) => some (⟨least, some most⟩, rest)
      | _ => none
  | _ => none

theorem bracedBounds?_number (hcs : ∀ more, cs ≠ ',' :: more) :
    bracedBounds? cs = (number? cs).bind fun read => boundsAfter? read.1 read.2 := by
  unfold bracedBounds?
  split
  · exact absurd rfl (hcs _)
  · rfl

theorem boundsAfter?_append (hsuffix : Closing suffix) (least : Nat) (cs : List Char) :
    boundsAfter? least (cs ++ suffix) = leaving suffix (boundsAfter? least cs) := by
  have hbrace : '\x7d' ≠ ')' := by decide
  fun_cases boundsAfter? least cs with
  | case1 rest => rfl
  | case2 rest => rfl
  | case3 rest hrest most after hread =>
      have hnumber := number?_append hsuffix rest
      rw [hread, leaving_some, List.cons_append] at hnumber
      rw [List.cons_append, boundsAfter?.eq_3 _ _ (hsuffix.append_ne hbrace hrest), hnumber]
      rfl
  | case4 rest hrest hread =>
      rw [List.cons_append, boundsAfter?.eq_3 _ _ (hsuffix.append_ne hbrace hrest),
        number?_append hsuffix]
      cases hnumber : number? rest with
      | none => rfl
      | some read =>
          obtain ⟨most, after⟩ := read
          have hafter : ∀ more, after ++ suffix ≠ '\x7d' :: more :=
            hsuffix.append_ne hbrace fun more hmore => hread most more (by rw [hnumber, hmore])
          rw [leaving_some]
          split
          · next heq => exact absurd (Prod.mk.inj (Option.some.inj heq)).2 (hafter _)
          · rfl
  | case5 cs hclosing _ hcomma =>
      have hcomma' := hsuffix.append_ne (show ',' ≠ ')' by decide) hcomma
      rw [boundsAfter?.eq_4 _ _ (hsuffix.append_ne hbrace hclosing) (fun more => hcomma' _) hcomma']
      rfl

theorem bracedBounds?_append (hsuffix : Closing suffix) (cs : List Char) :
    bracedBounds? (cs ++ suffix) = leaving suffix (bracedBounds? cs) := by
  rcases eq_cons_or_ne ',' cs with ⟨more, rfl⟩ | hcs
  · exact boundsAfter?_append hsuffix 0 (',' :: more)
  · rw [bracedBounds?_number hcs, bracedBounds?_number (hsuffix.append_ne (by decide) hcs),
      number?_append hsuffix]
    cases number? cs with
    | none => rfl
    | some read => exact boundsAfter?_append hsuffix read.1 read.2

theorem bounds?_append (hsuffix : Closing suffix) (cs : List Char) :
    bounds? (cs ++ suffix) = leaving suffix (bounds? cs) := by
  fun_cases bounds? cs with
  | case1 rest => rfl
  | case2 rest => rfl
  | case3 rest => rfl
  | case4 rest => exact bracedBounds?_append hsuffix rest
  | case5 cs hquestion hstar hplus hbrace =>
      rw [bounds?.eq_5 _ (hsuffix.append_ne (by decide) hquestion)
        (hsuffix.append_ne (by decide) hstar) (hsuffix.append_ne (by decide) hplus)
        (hsuffix.append_ne (by decide) hbrace)]
      rfl

/-! ## Classes -/

section Classes

variable {anyCase : Bool} {first item start set : CharSet}

theorem classItem?_append (suffix : List Char) (hread : classItem? cs = some (item, rest)) :
    classItem? (cs ++ suffix) = some (item, rest ++ suffix) := by
  fun_cases classItem? cs with
  | case1 c cs =>
      obtain ⟨item, hitem, heq⟩ := Option.map_eq_some_iff.mp hread
      obtain ⟨rfl, rfl⟩ := Prod.mk.inj heq
      simp [classItem?, hitem]
  | case2 | case3 | case5 => cases hread
  | case4 c cs hescape hlast hopen =>
      rw [classItem?.eq_4 _ _ hescape hlast hopen] at hread
      obtain ⟨rfl, rfl⟩ := Prod.mk.inj (Option.some.inj hread)
      -- a backslash that stands last would begin an escape now, but there is none
      have hbackslash : c ≠ '\\' := by
        rintro rfl
        cases cs with
        | nil => exact hlast rfl rfl
        | cons d cs => exact hescape d cs rfl rfl
      rw [List.cons_append, classItem?.eq_4 _ _ (fun _ _ heq => absurd heq hbackslash)
        (fun heq => absurd heq hbackslash) hopen]

/-- What is read of an item of a class behind its first character or escape. -/
def rangeAfter? (first : CharSet) (cs : List Char) : Option (CharSet × List Char) :=
  match cs with
  | '-' :: ']' :: _ | '-' :: '-' :: _ => some (first, cs)
  | '-' :: rest => do
      let (last, rest) ← classItem? rest
      return (← classRange? first last, rest)
  | rest => some (first, rest)

theorem classRangeOrItem?_eq (cs : List Char) :
    classRangeOrItem? cs = (classItem? cs).bind fun read => rangeAfter? read.1 read.2 := rfl

theorem rangeAfter?_append (hsuffix : Closing suffix)
    (hread : rangeAfter? first cs = some (item, rest)) :
    rangeAfter? first (cs ++ suffix) = some (item, rest ++ suffix) := by
  fun_cases rangeAfter? first cs with
  | case1 more =>
      obtain ⟨rfl, rfl⟩ := Prod.mk.inj (Option.some.inj hread)
      rfl
  | case2 more =>
      obtain ⟨rfl, rfl⟩ := Prod.mk.inj (Option.some.inj hread)
      rfl
  | case3 more hbracket hhyphen =>
      rw [rangeAfter?.eq_3 _ _ hbracket hhyphen] at hread
      obtain ⟨⟨last, behind⟩, hlast, hread⟩ := Option.bind_eq_some_iff.mp hread
      obtain ⟨range, hrange, heq⟩ := Option.bind_eq_some_iff.mp hread
      obtain ⟨rfl, rfl⟩ := Prod.mk.inj (Option.some.inj heq)
      rw [List.cons_append, rangeAfter?.eq_3 _ _ (hsuffix.append_ne (by decide) hbracket)
        (hsuffix.append_ne (by decide) hhyphen), classItem?_append suffix hlast]
      simp [hrange]
  | case4 cs _ _ hhyphen =>
      have hhyphen' := hsuffix.append_ne (show '-' ≠ ')' by decide) hhyphen
      rw [rangeAfter?.eq_4 _ _ (fun _ => hhyphen _) (fun _ => hhyphen _) hhyphen] at hread
      obtain ⟨rfl, rfl⟩ := Prod.mk.inj (Option.some.inj hread)
      rw [rangeAfter?.eq_4 _ _ (fun _ => hhyphen' _) (fun _ => hhyphen' _) hhyphen']

theorem classRangeOrItem?_append (hsuffix : Closing suffix)
    (hread : classRangeOrItem? cs = some (item, rest)) :
    classRangeOrItem? (cs ++ suffix) = some (item, rest ++ suffix) := by
  rw [classRangeOrItem?_eq] at hread ⊢
  obtain ⟨⟨first, mid⟩, hfirst, hread⟩ := Option.bind_eq_some_iff.mp hread
  rw [classItem?_append suffix hfirst]
  exact rangeAfter?_append hsuffix hread

theorem classItems?_append (hsuffix : Closing suffix)
    (hread : classItems? anyCase start cs = some (set, rest)) :
    classItems? anyCase start (cs ++ suffix) = some (set, rest ++ suffix) := by
  fun_induction classItems? anyCase start cs with
  | case1 start cs =>
      obtain ⟨rfl, rfl⟩ := Prod.mk.inj (Option.some.inj hread)
      rw [List.cons_append, classItems?]
  | case2 | case4 => cases hread
  | case3 start cs hopen item more hitem hlength ih =>
      have hopen' := hsuffix.append_ne (show ']' ≠ ')' by decide) hopen
      rw [classItems?, classRangeOrItem?_append hsuffix hitem]
      · simpa [hlength] using ih hread
      · exact hopen'

/-- A class, by the characters that count at its beginning only. -/
theorem class?_eq (cs : List Char) :
    class? anyCase cs =
      let negative := passOver '^' cs
      let hyphens := negative.2.takeWhile (· == '-')
      let start : CharSet := if hyphens.isEmpty then .empty else .single '-'
      let bracket := passOver ']' (negative.2.dropWhile (· == '-'))
      let read :=
        if !bracket.1 then classItems? anyCase start bracket.2
        else if hyphens.isEmpty then classItems? anyCase (.single ']') bracket.2
        else some (start, bracket.2)
      read.map fun read => (if negative.1 then .complement read.1 else read.1, read.2) := by
  rcases eq_cons_or_ne '^' cs with ⟨body, rfl⟩ | hcs
  · rcases eq_cons_or_ne ']' (body.dropWhile (· == '-')) with ⟨more, hbracket⟩ | hbracket
    · simp only [class?, passOver_cons, hbracket, Option.map_eq_bind]
      split
      · rfl
      · rfl
    · simp only [class?, passOver_cons, passOver_other hbracket, Option.map_eq_bind]
      rfl
  · rcases eq_cons_or_ne ']' (cs.dropWhile (· == '-')) with ⟨more, hbracket⟩ | hbracket
    · simp only [class?, passOver_cons, passOver_other hcs, hbracket, Option.map_eq_bind]
      split
      · rfl
      · rfl
    · simp only [class?, passOver_other hcs, passOver_other hbracket, Option.map_eq_bind]
      rfl

theorem class?_append (hsuffix : Closing suffix) (hread : class? anyCase cs = some (set, rest)) :
    class? anyCase (cs ++ suffix) = some (set, rest ++ suffix) := by
  obtain ⟨htake, hdrop⟩ :=
    hsuffix.takeWhile_dropWhile (p := (· == '-')) (by decide) (passOver '^' cs).2
  rw [class?_eq] at hread ⊢
  simp only [passOver_append hsuffix (show '^' ≠ ')' by decide), htake, hdrop,
    passOver_append hsuffix (show ']' ≠ ')' by decide)] at hread ⊢
  obtain ⟨⟨items, more⟩, hitems, heq⟩ := Option.map_eq_some_iff.mp hread
  obtain ⟨rfl, rfl⟩ := Prod.mk.inj heq
  rw [Option.map_eq_some_iff]
  refine ⟨(items, more ++ suffix), ?_, rfl⟩
  split at hitems
  · next hbracket =>
      rw [if_pos hbracket]
      exact classItems?_append hsuffix hitems
  · next hbracket =>
      rw [if_neg hbracket]
      split at hitems
      · next hhyphens =>
          rw [if_pos hhyphens]
          exact classItems?_append hsuffix hitems
      · next hhyphens =>
          obtain ⟨rfl, rfl⟩ := Prod.mk.inj (Option.some.inj hitems)
          rw [if_neg hhyphens, if_neg hhyphens]

end Classes

/-! ## Repetitions and escapes -/

/-- The reading with more text behind it. -/
def Reading.append (reading : Reading) (suffix : List Char) : Reading :=
  { reading with rest := reading.rest ++ suffix }

variable {reading after last : Reading} {r s : Regex} {inner outer : PartReader}
  {anyCase negative fresh flag : Bool} {groups : Nat}

theorem repeated?_once (honce : bounds? rest = none) :
    repeated? r ⟨rest, anyCase, groups⟩ = some (r, ⟨rest, anyCase, groups⟩) := by
  rw [repeated?, honce]

/-- A repetition, by the marks behind its bounds. -/
theorem repeated?_of_bounds {bounds : Bounds} (hbounds : bounds? reading.rest = some (bounds, rest)) :
    repeated? r reading =
      if !r.isRepeatable || !bounds.inOrder then none
      else
        let fewest := passOver '?' rest
        let committed := passOver '+' fewest.2
        let repeated := loop bounds.least bounds.most (!fewest.1) true r
        some (if committed.1 then atomic repeated else repeated,
          { reading with rest := committed.2 }) := by
  rcases eq_cons_or_ne '?' rest with ⟨more, rfl⟩ | hquestion
  · rcases eq_cons_or_ne '+' more with ⟨last, rfl⟩ | hplus
    · simp only [repeated?, hbounds, passOver_cons]
      rfl
    · simp only [repeated?, hbounds, passOver_cons, passOver_other hplus]
      rfl
  · rcases eq_cons_or_ne '+' rest with ⟨last, rfl⟩ | hplus
    · simp only [repeated?, hbounds, passOver_other hquestion, passOver_cons]
      rfl
    · simp only [repeated?, hbounds, passOver_other hquestion, passOver_other hplus]
      rfl

theorem repeated?_append (hsuffix : Closing suffix) (hread : repeated? r reading = some (s, after)) :
    repeated? r (reading.append suffix) = some (s, after.append suffix) := by
  have hbounds : bounds? (reading.append suffix).rest = leaving suffix (bounds? reading.rest) :=
    bounds?_append hsuffix reading.rest
  cases hinner : bounds? reading.rest with
  | none =>
      rw [hinner, leaving_none] at hbounds
      have honce : repeated? r reading = some (r, reading) := repeated?_once hinner
      obtain ⟨rfl, rfl⟩ := Prod.mk.inj (Option.some.inj (honce.symm.trans hread))
      exact repeated?_once hbounds
  | some read =>
      obtain ⟨bounds, rest⟩ := read
      rw [hinner, leaving_some] at hbounds
      rw [repeated?_of_bounds hinner] at hread
      rw [repeated?_of_bounds hbounds]
      split at hread
      · cases hread
      · next hallowed =>
          obtain ⟨rfl, rfl⟩ := Prod.mk.inj (Option.some.inj hread)
          rw [if_neg hallowed]
          simp only [passOver_append hsuffix (show '?' ≠ ')' by decide),
            passOver_append hsuffix (show '+' ≠ ')' by decide)]
          rfl

theorem escape?_append (hsuffix : Closing suffix) (hread : escape? reading cs = some (s, after)) :
    escape? (reading.append suffix) (cs ++ suffix) = some (s, after.append suffix) := by
  fun_cases escape? reading cs with
  | case1 => cases hread
  | case2 c more hdigit =>
      rw [escape?, if_pos hdigit] at hread
      obtain ⟨⟨index, last⟩, hnumber, heq⟩ := Option.map_eq_some_iff.mp hread
      obtain ⟨rfl, rfl⟩ := Prod.mk.inj heq
      rw [List.cons_append, escape?, if_pos hdigit, ← List.cons_append, number?_append hsuffix,
        hnumber]
      rfl
  | case3 c more hdigit condition hcondition =>
      simp only [List.cons_append, escape?, hdigit, hcondition] at hread ⊢
      obtain ⟨rfl, rfl⟩ := Prod.mk.inj (Option.some.inj hread)
      rfl
  | case4 c more hdigit hcondition set hset =>
      simp only [List.cons_append, escape?, hdigit, hcondition, hset] at hread ⊢
      obtain ⟨rfl, rfl⟩ := Prod.mk.inj (Option.some.inj hread)
      rfl
  | case5 c more hdigit hcondition hset halpha =>
      simp only [escape?, hdigit, hcondition, hset, halpha] at hread
      cases hread
  | case6 c more hdigit hcondition hset halpha =>
      simp only [List.cons_append, escape?, hdigit, hcondition, hset, halpha] at hread ⊢
      obtain ⟨rfl, rfl⟩ := Prod.mk.inj (Option.some.inj hread)
      rfl

/-! ## Groups -/

/-- What one reader reads, the other one reads when more text follows. -/
def ReadsOn (suffix : List Char) {α : Type} (inner outer : Reading → Option (α × Reading)) : Prop :=
  ∀ reading a after, inner reading = some (a, after) →
    outer (reading.append suffix) = some (a, after.append suffix)

theorem closing?_append (suffix : List Char) (hread : closing? r reading = some (s, after)) :
    closing? r (reading.append suffix) = some (s, after.append suffix) := by
  unfold closing? at hread
  split at hread
  · next more hrest =>
      obtain ⟨rfl, rfl⟩ := Prod.mk.inj (Option.some.inj hread)
      rw [closing?, Reading.append, hrest]
      rfl
  · cases hread

/-- What is read between the opening of a group and its closing parenthesis. -/
theorem ReadsOn.closed (hreads : ReadsOn suffix inner outer) (wrap : Regex → Option Regex) :
    ReadsOn suffix
      (fun reading => do
        let (r, after) ← inner reading
        closing? (← wrap r) after)
      (fun reading => do
        let (r, after) ← outer reading
        closing? (← wrap r) after) := by
  intro reading r after hread
  obtain ⟨⟨body, behind⟩, hbody, hread⟩ := Option.bind_eq_some_iff.mp hread
  obtain ⟨wrapped, hwrap, hclosing⟩ := Option.bind_eq_some_iff.mp hread
  simp [hreads _ _ _ hbody, hwrap, closing?_append suffix hclosing]

theorem flags?_append (suffix : List Char)
    (hread : flags? negative fresh anyCase cs = some (flag, rest)) :
    flags? negative fresh anyCase (cs ++ suffix) = some (flag, rest ++ suffix) := by
  fun_induction flags? negative fresh anyCase cs with
  | case1 negative fresh anyCase cs ih => exact ih hread
  | case2 | case4 | case6 | case8 | case10 => cases hread
  | case3 negative fresh anyCase cs hnegative ih =>
      rw [List.cons_append, flags?, if_neg hnegative]
      exact ih hread
  | case5 negative fresh anyCase cs hnegative ih =>
      rw [List.cons_append, flags?, if_neg hnegative]
      exact ih hread
  | case7 negative fresh anyCase cs hfresh =>
      obtain ⟨rfl, rfl⟩ := Prod.mk.inj (Option.some.inj hread)
      rw [List.cons_append, flags?, if_neg hfresh]
  | case9 negative fresh anyCase cs hfresh =>
      obtain ⟨rfl, rfl⟩ := Prod.mk.inj (Option.some.inj hread)
      rw [List.cons_append, flags?, if_neg hfresh]

/-- The flags begin with a flag, a hyphen or what ends them. -/
theorem flags?_cons (hread : flags? negative fresh anyCase cs = some (flag, rest)) :
    ∃ c ∈ ['i', 'u', '-', ':', ')'], ∃ more, cs = c :: more := by
  fun_cases flags? negative fresh anyCase cs with
  | case1 | case2 | case3 | case4 | case5 | case6 | case7 | case8 | case9 => simp
  | case10 =>
      rw [flags?] at hread
      · cases hread
      all_goals assumption

/-- Reads a group that opens with flags, from the flags on. -/
def flagged? (inner : PartReader) (reading : Reading) : Option (Regex × Reading) := do
  match ← flags? false true reading.anyCase reading.rest with
  | (anyCase, ':' :: rest) =>
      let (r, after) ← inner { reading with rest, anyCase }
      closing? r { after with anyCase := reading.anyCase }
  | (anyCase, rest) => closing? empty { reading with rest, anyCase }

theorem ReadsOn.flagged? (hreads : ReadsOn suffix inner outer) (hsuffix : Closing suffix) :
    ReadsOn suffix (flagged? inner) (flagged? outer) := by
  intro reading r after hread
  obtain ⟨⟨anyCase, behind⟩, hflags, hread⟩ := Option.bind_eq_some_iff.mp hread
  have hflags' := flags?_append suffix hflags
  rcases eq_cons_or_ne ':' behind with ⟨more, rfl⟩ | hcolon
  · obtain ⟨⟨body, last⟩, hbody, hclosing⟩ := Option.bind_eq_some_iff.mp hread
    have hbody' := hreads _ _ _ hbody
    have hclosing' := closing?_append suffix hclosing
    simp only [Reading.append] at hbody' hclosing'
    simp [Regex.flagged?, Reading.append, hflags', hbody', hclosing']
  · have hcolon' := hsuffix.append_ne (show ':' ≠ ')' by decide) hcolon
    have hclosing : closing? empty { reading with rest := behind, anyCase } = some (r, after) := by
      simp only at hread
      exact hread
    have hclosing' := closing?_append suffix hclosing
    simp only [Regex.flagged?, Reading.append, hflags', Option.bind_eq_bind, Option.bind_some]
      at hclosing' ⊢
    exact hclosing'

theorem group?_flags {read : Bool × List Char} (hflags : flags? false true anyCase cs = some read) :
    group? inner ⟨'?' :: cs, anyCase, groups⟩ = flagged? inner ⟨cs, anyCase, groups⟩ := by
  obtain ⟨c, hc, more, rfl⟩ := flags?_cons hflags
  simp only [List.mem_cons, List.not_mem_nil, or_false] at hc
  rcases hc with rfl | rfl | rfl | rfl | rfl <;> rfl

theorem group?_recorded (hcs : ∀ more, cs ≠ '?' :: more) :
    group? inner ⟨cs, anyCase, groups⟩ =
      (inner ⟨cs, anyCase, groups + 1⟩ >>= fun read =>
        closing? (group (groups + 1) read.1) read.2) := by
  fun_cases group? inner ⟨cs, anyCase, groups⟩ with
  | case1 more hrest | case2 more hrest | case3 more hrest | case4 more hrest | case5 more hrest =>
      exact absurd hrest (hcs _)
  | case6 more _ _ _ _ _ hrest => exact absurd hrest (hcs _)
  | case7 => rfl

theorem ReadsOn.group? (hreads : ReadsOn suffix inner outer) (hsuffix : Closing suffix) :
    ReadsOn suffix (group? inner) (group? outer) := by
  rintro ⟨cs, anyCase, groups⟩ r after hread
  fun_cases Regex.group? inner ⟨cs, anyCase, groups⟩ with
  | case1 more hrest =>
      obtain rfl : cs = _ := hrest
      exact hreads.closed (fun r => some (ahead true r)) _ _ _ hread
  | case2 more hrest =>
      obtain rfl : cs = _ := hrest
      exact hreads.closed (fun r => some (ahead false r)) _ _ _ hread
  | case3 more hrest =>
      obtain rfl : cs = _ := hrest
      exact hreads.closed (behind? true) _ _ _ hread
  | case4 more hrest =>
      obtain rfl : cs = _ := hrest
      exact hreads.closed (behind? false) _ _ _ hread
  | case5 more hrest =>
      obtain rfl : cs = _ := hrest
      exact hreads.closed (fun r => some (atomic r)) _ _ _ hread
  | case6 more _ _ _ _ _ hrest =>
      obtain rfl : cs = _ := hrest
      have hflagged : Regex.flagged? inner ⟨more, anyCase, groups⟩ = some (r, after) := by
        simp only [Regex.group?] at hread
        exact hread
      obtain ⟨read, hflags, -⟩ := Option.bind_eq_some_iff.mp hflagged
      rw [Reading.append, List.cons_append, group?_flags (flags?_append suffix hflags)]
      exact hreads.flagged? hsuffix _ _ _ hflagged
  | case7 index _ _ _ _ _ hquestion =>
      have hquestion' := hsuffix.append_ne (show '?' ≠ ')' by decide) hquestion
      rw [group?_recorded hquestion] at hread
      rw [Reading.append, group?_recorded hquestion']
      exact hreads.closed (fun r => some (group (groups + 1) r)) ⟨cs, anyCase, groups + 1⟩ _ _ hread

/-! ## Atoms, branches and choices -/

theorem ReadsOn.atom? (hreads : ReadsOn suffix inner outer) (hsuffix : Closing suffix) :
    ReadsOn suffix (atom? inner) (atom? outer) := by
  rintro ⟨cs, anyCase, groups⟩ r after hread
  fun_cases Regex.atom? inner ⟨cs, anyCase, groups⟩ with
  | case1 hrest | case8 more hrest | case9 more hrest | case10 more hrest =>
      obtain rfl : cs = _ := hrest
      cases hread
  | case2 more hrest | case3 more hrest | case4 more hrest =>
      obtain rfl : cs = _ := hrest
      obtain ⟨rfl, rfl⟩ := Prod.mk.inj (Option.some.inj hread)
      rfl
  | case5 more hrest =>
      obtain rfl : cs = _ := hrest
      exact hreads.group? hsuffix _ _ _ hread
  | case6 more hrest =>
      obtain rfl : cs = _ := hrest
      exact escape?_append hsuffix hread
  | case7 more hrest =>
      obtain rfl : cs = _ := hrest
      obtain ⟨⟨set, behind⟩, hclass, heq⟩ := Option.map_eq_some_iff.mp hread
      obtain ⟨rfl, rfl⟩ := Prod.mk.inj heq
      simp [Regex.atom?, Reading.append, class?_append hsuffix hclass]
  | case11 more c hdot hstart hfinish hgroup hescape hclass hquestion hstar hplus hrest =>
      obtain rfl : cs = _ := hrest
      simp only [Regex.atom?, Reading.append, List.cons_append] at hread ⊢
      obtain ⟨rfl, rfl⟩ := Prod.mk.inj (Option.some.inj hread)
      rfl

theorem ReadsOn.piece? (hreads : ReadsOn suffix inner outer) (hsuffix : Closing suffix) :
    ReadsOn suffix (piece? inner) (piece? outer) := by
  intro reading r after hread
  obtain ⟨⟨atom, behind⟩, hatom, hrepeated⟩ := Option.bind_eq_some_iff.mp hread
  rw [Regex.piece?, hreads.atom? hsuffix _ _ _ hatom]
  exact repeated?_append hsuffix hrepeated

theorem endsBranch_append (hsuffix : Closing suffix) (cs : List Char) :
    endsBranch (cs ++ suffix) = endsBranch cs := by
  cases cs with
  | cons c rest => rfl
  | nil =>
      rcases hsuffix.cases with rfl | ⟨tail, rfl⟩
      · rfl
      · rfl

theorem branch?_end (hends : endsBranch reading.rest = true) :
    branch? inner reading = some (empty, reading) := by
  rw [branch?, if_pos hends]

theorem branch?_piece (hends : endsBranch reading.rest = false)
    (hpiece : piece? inner reading = some (r, after))
    (hlength : after.rest.length < reading.rest.length)
    (hbranch : branch? inner after = some (s, last)) :
    branch? inner reading = some (followedBy r s, last) := by
  rw [branch?, if_neg (by simp [hends]), hpiece]
  simp [hlength, hbranch]

theorem ReadsOn.branch? (hreads : ReadsOn suffix inner outer) (hsuffix : Closing suffix) :
    ReadsOn suffix (branch? inner) (branch? outer) := by
  intro reading r after hread
  fun_induction Regex.branch? inner reading generalizing r with
  | case1 reading hends =>
      obtain ⟨rfl, rfl⟩ := Prod.mk.inj (Option.some.inj hread)
      exact branch?_end (by rwa [Reading.append, endsBranch_append hsuffix])
  | case2 | case4 => cases hread
  | case3 reading hends first mid hpiece hlength ih =>
      obtain ⟨⟨second, last⟩, hbranch, heq⟩ := Option.bind_eq_some_iff.mp hread
      obtain ⟨rfl, rfl⟩ := Prod.mk.inj (Option.some.inj heq)
      refine branch?_piece ?_ (hreads.piece? hsuffix _ _ _ hpiece) ?_ (ih _ hbranch)
      · rw [Reading.append, endsBranch_append hsuffix]
        simpa using hends
      · simpa [Reading.append] using hlength

theorem ReadsOn.branches? (hreads : ReadsOn suffix inner outer) (hsuffix : Closing suffix) :
    ReadsOn suffix (branches? inner) (branches? outer) := by
  intro reading rs after hread
  fun_induction Regex.branches? inner reading generalizing rs with
  | case1 | case3 => cases hread
  | case2 reading first mid hbranch more hbar hlength ih =>
      obtain ⟨⟨later, last⟩, hlater, heq⟩ := Option.bind_eq_some_iff.mp hread
      obtain ⟨rfl, rfl⟩ := Prod.mk.inj (Option.some.inj heq)
      have hlater' := ih _ hlater
      simp only [Reading.append] at hlater'
      rw [Regex.branches?, hreads.branch? hsuffix _ _ _ hbranch]
      simp [Reading.append, hbar, hlength, hlater']
  | case4 reading first mid hbranch hbar =>
      obtain ⟨rfl, rfl⟩ := Prod.mk.inj (Option.some.inj hread)
      have hbar' := hsuffix.append_ne (show '|' ≠ ')' by decide) hbar
      rw [Regex.branches?, hreads.branch? hsuffix _ _ _ hbranch]
      simp only [Reading.append]

theorem ReadsOn.choice? (hreads : ReadsOn suffix inner outer) (hsuffix : Closing suffix) :
    ReadsOn suffix (choice? inner) (choice? outer) := by
  intro reading r after hread
  obtain ⟨⟨rs, last⟩, hbranches, heq⟩ := Option.bind_eq_some_iff.mp hread
  obtain ⟨rfl, rfl⟩ := Prod.mk.inj (Option.some.inj heq)
  rw [Regex.choice?, hreads.branches? hsuffix _ _ _ hbranches]
  rfl

/-- What is read with some levels of groups is read in front of a parenthesis with as many or more. -/
theorem readsOn_choiceWithin (hsuffix : Closing suffix) {depth more : Nat} (hle : depth ≤ more) :
    ReadsOn suffix (choiceWithin depth) (choiceWithin more) := by
  induction depth generalizing more with
  | zero =>
      intro reading r after hread
      cases hread
  | succ depth ih =>
      obtain ⟨more, rfl⟩ : ∃ k, more = k + 1 := ⟨more - 1, by omega⟩
      exact (ih (show depth ≤ more by omega)).choice? hsuffix

end Regex

end EquationPractice
