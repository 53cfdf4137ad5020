import EquationPractice.Proofs.Reading.Derived

/-!
# Products with all their stars

A factor may follow a number without an operator.  This is only a short way of writing: with a star in
front of every such factor, at every level of parentheses, a text is read as the same tree by a reader
that knows no implicit factors at all.

## Strategy

`SpellsOut` goes through the productions of the grammar and puts a star where a factor follows at
once.  Which places these are can be seen from the text alone, by what stands right in front of a
letter, an underscore or an opening parenthesis; `withStars` does so in one pass.  With its star, an
implicit factor is one more operand of the product that it followed, so the term is a product, and the
readers of all other layers are what they were.

## Main definitions

* `readPlain`: reads an expression without implicit factors.
* `SpellsOut`: a derived text with a star in front of every implicit factor.
* `withStars`: a text with a star at every place where a factor follows at once.
-/

namespace EquationPractice

open Text

variable {layer : Layer} {inner : Reader Expr} {cs ds gaps run next other : List Char} {c : Char}
  {e f x : Expr}

/-! ## Reading without implicit factors -/

/-- Reads an expression without implicit factors and with fewer levels of parentheses than given. -/
def plainExpression : ℕ → Reader Expr
  | 0 => fun cs => .error ⟨cs⟩
  | levels + 1 => sumOf (product (plainExpression levels))

/-- Reads an expression without implicit factors. -/
def readPlain : Reader Expr := fun cs =>
  plainExpression (cs.length + 1) cs

/-! ## Spelling out -/

/-- `SpellsOut layer cs next e spelled`: with `next` right behind it, the text `cs` is derived from
`layer` with the tree `e`, and `spelled` is `cs` with a star in front of every factor that follows at
once. -/
inductive SpellsOut : Layer → List Char → List Char → Expr → List Char → Prop
  | literal {gaps cs next : List Char} {q : ℚ} (hgaps : Gaps gaps) (hvalue : IsLiteral cs q)
      (hmaximal : Maximal (fun token => ∃ value, IsLiteral token value) cs next) :
      SpellsOut .atom (gaps ++ cs) next (.number q) (gaps ++ cs)
  | name {gaps cs next : List Char} (hgaps : Gaps gaps) (hmaximal : Maximal IsName cs next) :
      SpellsOut .atom (gaps ++ cs) next (.var (String.ofList cs)) (gaps ++ cs)
  | group {before body after next body' : List Char} {e : Expr} (hbefore : Gaps before)
      (hafter : Gaps after) (hbody : SpellsOut .sum body (after ++ ')' :: next) e body') :
      SpellsOut .atom (before ++ '(' :: (body ++ (after ++ [')']))) next e
        (before ++ '(' :: (body' ++ (after ++ [')'])))
  | base {cs next cs' : List Char} {e : Expr} (hatom : SpellsOut .atom cs next e cs') :
      SpellsOut .power cs next e cs'
  | pow {cs gaps run ds next cs' ds' : List Char} {e f x : Expr} (hgaps : Gaps gaps)
      (hbase : SpellsOut .atom cs (gaps ++ '^' :: (run ++ (ds ++ next))) e cs')
      (hrun : Signs run f x) (hexponent : SpellsOut .power ds next f ds') :
      SpellsOut .power (cs ++ (gaps ++ '^' :: (run ++ ds))) next (.pow e x)
        (cs' ++ (gaps ++ '^' :: (run ++ ds')))
  | signed {run cs next cs' : List Char} {e f : Expr} (hrun : Signs run e f)
      (hpower : SpellsOut .power cs next e cs') :
      SpellsOut .signed (run ++ cs) next f (run ++ cs')
  | operand {cs next cs' : List Char} {e : Expr} (hsigned : SpellsOut .signed cs next e cs') :
      SpellsOut .product cs next e cs'
  | mul {cs gaps ds next cs' ds' : List Char} {e f : Expr} (hgaps : Gaps gaps)
      (hleft : SpellsOut .product cs (gaps ++ '*' :: (ds ++ next)) e cs')
      (hright : SpellsOut .signed ds next f ds') :
      SpellsOut .product (cs ++ (gaps ++ '*' :: ds)) next (.mul e f) (cs' ++ (gaps ++ '*' :: ds'))
  | div {cs gaps ds next cs' ds' : List Char} {e f : Expr} (hgaps : Gaps gaps)
      (hleft : SpellsOut .product cs (gaps ++ '/' :: (ds ++ next)) e cs')
      (hright : SpellsOut .signed ds next f ds') :
      SpellsOut .product (cs ++ (gaps ++ '/' :: ds)) next (.div e f) (cs' ++ (gaps ++ '/' :: ds'))
  | product {cs next cs' : List Char} {e : Expr} (hproduct : SpellsOut .product cs next e cs') :
      SpellsOut .term cs next e cs'
  | factor {cs ds next cs' ds' : List Char} {c : Char} {e f : Expr}
      (hleft : SpellsOut .term cs (c :: (ds ++ next)) e cs') (hends : EndsInNumber e)
      (hstart : startsName c = true ∨ c = '(') (hfactor : SpellsOut .power (c :: ds) next f ds') :
      SpellsOut .term (cs ++ c :: ds) next (.mul e f) (cs' ++ '*' :: ds')
  | summand {cs next cs' : List Char} {e : Expr} (hterm : SpellsOut .term cs next e cs') :
      SpellsOut .sum cs next e cs'
  | add {cs gaps ds next cs' ds' : List Char} {e f : Expr} (hgaps : Gaps gaps)
      (hleft : SpellsOut .sum cs (gaps ++ '+' :: (ds ++ next)) e cs')
      (hright : SpellsOut .term ds next f ds') :
      SpellsOut .sum (cs ++ (gaps ++ '+' :: ds)) next (.add e f) (cs' ++ (gaps ++ '+' :: ds'))
  | sub {cs gaps ds next cs' ds' : List Char} {e f : Expr} (hgaps : Gaps gaps)
      (hleft : SpellsOut .sum cs (gaps ++ '-' :: (ds ++ next)) e cs')
      (hright : SpellsOut .term ds next f ds') :
      SpellsOut .sum (cs ++ (gaps ++ '-' :: ds)) next (.sub e f) (cs' ++ (gaps ++ '-' :: ds'))

/-- Every derived text can be spelled out. -/
theorem Derives.exists_spellsOut (hderives : Derives layer cs next e) :
    ∃ spelled, SpellsOut layer cs next e spelled := by
  induction hderives with
  | literal hgaps hvalue hmaximal => exact ⟨_, .literal hgaps hvalue hmaximal⟩
  | name hgaps hmaximal => exact ⟨_, .name hgaps hmaximal⟩
  | group hbefore hafter _ ih => exact ih.elim fun _ hbody => ⟨_, .group hbefore hafter hbody⟩
  | base _ ih => exact ih.imp fun _ => .base
  | pow hgaps _ hrun _ ihl ihr =>
      obtain ⟨_, hbase⟩ := ihl
      obtain ⟨_, hexponent⟩ := ihr
      exact ⟨_, .pow hgaps hbase hrun hexponent⟩
  | signed hrun _ ih => exact ih.elim fun _ hpower => ⟨_, .signed hrun hpower⟩
  | operand _ ih => exact ih.imp fun _ => .operand
  | mul hgaps _ _ ihl ihr =>
      obtain ⟨_, hleft⟩ := ihl
      obtain ⟨_, hright⟩ := ihr
      exact ⟨_, .mul hgaps hleft hright⟩
  | div hgaps _ _ ihl ihr =>
      obtain ⟨_, hleft⟩ := ihl
      obtain ⟨_, hright⟩ := ihr
      exact ⟨_, .div hgaps hleft hright⟩
  | product _ ih => exact ih.imp fun _ => .product
  | factor _ hends hstart _ ihl ihr =>
      obtain ⟨_, hleft⟩ := ihl
      obtain ⟨_, hfactor⟩ := ihr
      exact ⟨_, .factor hleft hends hstart hfactor⟩
  | summand _ ih => exact ih.imp fun _ => .summand
  | add hgaps _ _ ihl ihr =>
      obtain ⟨_, hleft⟩ := ihl
      obtain ⟨_, hright⟩ := ihr
      exact ⟨_, .add hgaps hleft hright⟩
  | sub hgaps _ _ ihl ihr =>
      obtain ⟨_, hleft⟩ := ihl
      obtain ⟨_, hright⟩ := ihr
      exact ⟨_, .sub hgaps hleft hright⟩

/-! ## Where the stars go -/

/-- What stands right in front of a place in a text: a name, a literal or a group, or none of these. -/
inductive Preceding where
  | apart
  | name
  | operand
  deriving DecidableEq, Repr

namespace Preceding

/-- The place behind a character. -/
def after (place : Preceding) (c : Char) : Preceding :=
  if startsName c then .name
  else if c.isDigit then if place = .name then .name else .operand
  else if c == '.' || c == ')' then .operand
  else .apart

/-- Whether a character at the place is the first one of a factor that follows at once. -/
def startsFactor (c : Char) : Preceding → Bool
  | .apart => false
  | .name => c == '('
  | .operand => startsName c || c == '('

/-- The place behind a text. -/
def afterAll (place : Preceding) (cs : List Char) : Preceding :=
  cs.foldl after place

/-- The text with a star in front of every factor that follows at once, if it begins at the place. -/
def addStars : Preceding → List Char → List Char
  | _, [] => []
  | place, c :: rest =>
      (if place.startsFactor c then ['*', c] else [c]) ++ addStars (place.after c) rest

end Preceding

/-- The text with a star in front of every factor that follows at once. -/
def withStars (cs : List Char) : List Char :=
  Preceding.apart.addStars cs

namespace Preceding

variable {place : Preceding}

theorem addStars_append (place : Preceding) (cs ds : List Char) :
    place.addStars (cs ++ ds) = place.addStars cs ++ (place.afterAll cs).addStars ds := by
  induction cs generalizing place with
  | nil => rfl
  | cons c rest ih =>
      rw [List.cons_append, addStars, addStars, ih, List.append_assoc]
      rfl

theorem afterAll_append (place : Preceding) (cs ds : List Char) :
    place.afterAll (cs ++ ds) = (place.afterAll cs).afterAll ds :=
  List.foldl_append ..

end Preceding

/-- From one place to the other, the text is given these stars. -/
structure Marks (front : Preceding) (cs starred : List Char) (behind : Preceding) : Prop where
  starred_eq : front.addStars cs = starred
  place_eq : front.afterAll cs = behind

section Marks

variable {front between behind : Preceding} {starred starred' : List Char}

theorem Marks.append (hfirst : Marks front cs starred between)
    (hsecond : Marks between ds starred' behind) :
    Marks front (cs ++ ds) (starred ++ starred') behind := by
  refine ⟨?_, ?_⟩
  · rw [Preceding.addStars_append, hfirst.starred_eq, hfirst.place_eq, hsecond.starred_eq]
  · rw [Preceding.afterAll_append, hfirst.place_eq, hsecond.place_eq]

theorem Marks.nil : Marks front [] [] front := ⟨rfl, rfl⟩

/-- No star stands in front of this character. -/
theorem Marks.cons (hnone : front.startsFactor c = false)
    (hrest : Marks (front.after c) cs starred behind) :
    Marks front (c :: cs) (c :: starred) behind := by
  refine ⟨?_, hrest.place_eq⟩
  rw [Preceding.addStars, hnone, hrest.starred_eq]
  rfl

/-- A character that starts no factor is given no star. -/
theorem Marks.cons_plain (hc : startsName c = false ∧ c ≠ '(')
    (hrest : Marks (front.after c) cs starred behind) :
    Marks front (c :: cs) (c :: starred) behind := by
  refine .cons ?_ hrest
  cases front <;> simp [Preceding.startsFactor, hc]

/-- A factor that follows at once is given a star. -/
theorem Marks.star (hstarts : front.startsFactor c = true)
    (hsame : front.after c = Preceding.apart.after c)
    (hfactor : Marks .apart (c :: cs) starred behind) :
    Marks front (c :: cs) ('*' :: starred) behind := by
  obtain ⟨rfl, rfl⟩ := hfactor
  refine ⟨?_, ?_⟩
  · rw [Preceding.addStars, Preceding.addStars, hstarts, hsame]
    rfl
  · rw [Preceding.afterAll, Preceding.afterAll, List.foldl_cons, List.foldl_cons, hsame]

/-- A character that is neither a part of a token nor a parenthesis is given no star, and nothing
stands right in front of what follows it. -/
theorem marks_apart (front : Preceding) (htoken : isTokenChar c = false) (hc : c ≠ '(' ∧ c ≠ ')') :
    Marks front [c] [c] .apart := by
  simp only [isTokenChar, Bool.or_eq_false_iff, beq_eq_false_iff_ne] at htoken
  obtain ⟨hname, hpoint⟩ := htoken
  have hstart : startsName c = false := by
    rw [Bool.eq_false_iff]
    intro hstart
    exact absurd (continuesName_of_startsName hstart) (by simp [hname])
  have hdigit : c.isDigit = false := by
    rw [Bool.eq_false_iff]
    intro hdigit
    exact absurd (continuesName_of_isDigit hdigit) (by simp [hname])
  have hafter : front.after c = .apart := by
    simp [Preceding.after, hstart, hdigit, hpoint, hc.2]
  exact hafter ▸ Marks.cons_plain ⟨hstart, hc.1⟩ .nil

theorem marks_gap (front : Preceding) (hgap : isGap c = true) : Marks front [c] [c] .apart := by
  have hfree := Gaps.headFree_isTokenChar (List.forall_mem_singleton.mpr hgap)
  refine marks_apart front (headFree_cons.mp hfree) ?_
  have hblank := isBlank_of_isGap hgap
  constructor
  · rintro rfl
    exact absurd hblank (by decide)
  · rintro rfl
    exact absurd hblank (by decide)

theorem marks_gaps (hgaps : Gaps gaps) : Marks .apart gaps gaps .apart := by
  induction gaps with
  | nil => exact .nil
  | cons c rest ih =>
      obtain ⟨hgap, hrest⟩ := List.forall_mem_cons.mp hgaps
      exact (marks_gap .apart hgap).append (ih hrest)

theorem exists_marks_gaps (front : Preceding) (hgaps : Gaps gaps) :
    ∃ behind, Marks front gaps gaps behind := by
  cases gaps with
  | nil => exact ⟨front, .nil⟩
  | cons c rest =>
      obtain ⟨hgap, hrest⟩ := List.forall_mem_cons.mp hgaps
      exact ⟨.apart, (marks_gap front hgap).append (marks_gaps hrest)⟩

/-- Wherever an operator stands, no star is put in front of it. -/
theorem marks_operator (front : Preceding) (hgaps : Gaps gaps) (htoken : isTokenChar c = false)
    (hc : c ≠ '(' ∧ c ≠ ')') (hrest : Marks .apart cs starred behind) :
    Marks front (gaps ++ c :: cs) (gaps ++ c :: starred) behind := by
  obtain ⟨between, hmarks⟩ := exists_marks_gaps front hgaps
  exact hmarks.append ((marks_apart between htoken hc).append hrest)

theorem Signs.marks (hrun : Signs run e f) : Marks .apart run run .apart := by
  induction hrun with
  | none => exact .nil
  | plus hgaps _ ih | minus hgaps _ ih =>
      exact marks_operator .apart hgaps (by decide) (by decide) ih

/-- A character of a literal or a name inside it is given no star. -/
theorem marks_token (hstay : ∀ c ∈ cs, front.after c = front ∧ front.startsFactor c = false) :
    Marks front cs cs front := by
  induction cs with
  | nil => exact .nil
  | cons c rest ih =>
      obtain ⟨⟨hafter, hnone⟩, hrest⟩ := List.forall_mem_cons.mp hstay
      refine .cons hnone ?_
      rw [hafter]
      exact ih hrest

theorem marks_literal {q : ℚ} (hvalue : IsLiteral cs q) : Marks .apart cs cs .operand := by
  have hplain : ∀ c ∈ cs, ∀ place : Preceding, place ≠ .name →
      place.after c = .operand ∧ place.startsFactor c = false := by
    intro c hc place hplace
    rcases hvalue.digit_or_point c hc with hdigit | rfl
    · have hstart : startsName c = false := by
        rw [Bool.eq_false_iff]
        intro hstart
        exact absurd hdigit (by simp [not_isDigit_of_startsName hstart])
      have hopen : c ≠ '(' := by
        rintro rfl
        exact absurd hdigit (by decide)
      refine ⟨by simp [Preceding.after, hstart, hdigit, hplace], ?_⟩
      cases place <;> simp [Preceding.startsFactor, hstart, hopen]
    · cases place <;> exact ⟨rfl, rfl⟩
  cases cs with
  | nil => exact absurd rfl hvalue.ne_nil
  | cons c tail =>
      obtain ⟨hafter, hnone⟩ := hplain c List.mem_cons_self .apart (by decide)
      refine .cons hnone ?_
      rw [hafter]
      exact marks_token fun d hd => hplain d (List.mem_cons_of_mem c hd) .operand (by decide)

theorem marks_name (hname : IsName cs) : Marks .apart cs cs .name := by
  cases cs with
  | nil => exact hname.elim
  | cons c tail =>
      obtain ⟨hstart, htail⟩ := hname
      have hafter : Preceding.apart.after c = .name := by simp [Preceding.after, hstart]
      refine .cons rfl ?_
      rw [hafter]
      refine marks_token fun d hd => ⟨?_, ?_⟩
      · rcases continuesName_iff.mp (htail d hd) with hstart | hdigit
        · simp [Preceding.after, hstart]
        · simp [Preceding.after, hdigit]
      · have hopen : d ≠ '(' := by
          rintro rfl
          exact absurd (htail _ hd) (by decide)
        simpa [Preceding.startsFactor] using hopen

end Marks

/-! ### Derived texts -/

/-- An operand ends at the place: a literal or a group, or a name that is not continued. -/
def EndsAt (place : Preceding) (next : List Char) : Prop :=
  place = .operand ∨ place = .name ∧ HeadFree continuesName next

/-- Behind an operand a factor starts. -/
theorem EndsAt.startsFactor {place : Preceding} (hends : EndsAt place (c :: next))
    (hstart : startsName c = true ∨ c = '(') : place.startsFactor c = true := by
  rcases hends with rfl | ⟨rfl, hfree⟩
  · simpa [Preceding.startsFactor] using hstart
  · rcases hstart with hname | rfl
    · exact absurd (continuesName_of_startsName hname) (by simp [headFree_cons.mp hfree])
    · rfl

theorem Preceding.after_factor (place : Preceding) (hstart : startsName c = true ∨ c = '(') :
    place.after c = Preceding.apart.after c := by
  rcases hstart with hname | rfl
  · simp [Preceding.after, hname]
  · rfl

/-- The places of the implicit factors of a derived text can be told from the text. -/
theorem SpellsOut.marks {spelled : List Char} (hspells : SpellsOut layer cs next e spelled) :
    ∃ place, Marks .apart cs spelled place ∧ EndsAt place next := by
  induction hspells with
  | literal hgaps hvalue _ =>
      exact ⟨.operand, (marks_gaps hgaps).append (marks_literal hvalue), Or.inl rfl⟩
  | name hgaps hmaximal =>
      exact ⟨.name, (marks_gaps hgaps).append (marks_name hmaximal.isToken),
        Or.inr ⟨rfl, hmaximal.name_ends⟩⟩
  | group hbefore hafter _ ih =>
      obtain ⟨inside, hbody, -⟩ := ih
      obtain ⟨between, hmarks⟩ := exists_marks_gaps inside hafter
      have hclose : Marks between [')'] [')'] .operand := .cons_plain (by decide) .nil
      refine ⟨.operand, (marks_gaps hbefore).append (.cons rfl ?_), Or.inl rfl⟩
      exact hbody.append (hmarks.append hclose)
  | base _ ih | operand _ ih | product _ ih | summand _ ih => exact ih
  | pow hgaps _ hrun _ ihl ihr =>
      obtain ⟨between, hbase, -⟩ := ihl
      obtain ⟨place, hexponent, hends⟩ := ihr
      refine ⟨place, hbase.append ?_, hends⟩
      exact marks_operator between hgaps (by decide) (by decide) (hrun.marks.append hexponent)
  | signed hrun _ ih =>
      obtain ⟨place, hpower, hends⟩ := ih
      exact ⟨place, hrun.marks.append hpower, hends⟩
  | factor _ _ hstart _ ihl ihr =>
      obtain ⟨between, hleft, hbetween⟩ := ihl
      obtain ⟨place, hfactor, hends⟩ := ihr
      refine ⟨place, hleft.append ?_, hends⟩
      exact .star (hbetween.startsFactor hstart) (between.after_factor hstart) hfactor
  | mul hgaps _ _ ihl ihr | div hgaps _ _ ihl ihr | add hgaps _ _ ihl ihr | sub hgaps _ _ ihl ihr =>
      obtain ⟨between, hleft, -⟩ := ihl
      obtain ⟨place, hright, hends⟩ := ihr
      exact ⟨place, hleft.append (marks_operator between hgaps (by decide) (by decide) hright), hends⟩

/-! ## Reading what is spelled out -/

/-- How a reader without implicit factors takes a phrase of each layer off a text: a term is a
product. -/
def PlainReadAs (inner : Reader Expr) : Layer → List Char → List Char → Expr → Prop
  | .atom, cs, next, e => ReadAs inner .atom cs next e
  | .power, cs, next, e => ReadAs inner .power cs next e
  | .signed, cs, next, e => ReadAs inner .signed cs next e
  | .product, cs, next, e => ReadAs inner .product cs next e
  | .term, cs, next, e => ReadAs inner .product cs next e
  | .sum, cs, next, e => NoneAhead productOperators next →
      OpensChain (product inner) ['+', '-'] extendSum cs next e

section PlainReadAs

variable {spelled : List Char}

theorem SpellsOut.unsigned_atom (hspells : SpellsOut .atom cs next e spelled) :
    Unsigned (spelled ++ other) := by
  cases hspells with
  | literal hgaps hvalue _ => exact unsigned_literal hgaps hvalue
  | name hgaps hmaximal => exact unsigned_name hgaps hmaximal.isToken
  | group hbefore _ _ =>
      rw [List.append_assoc, List.cons_append]
      exact hbefore.noneAhead (by decide) (by decide)

theorem SpellsOut.unsigned_power (hspells : SpellsOut .power cs next e spelled) :
    Unsigned (spelled ++ other) := by
  cases hspells with
  | base hatom => exact hatom.unsigned_atom
  | pow _ hbase _ _ =>
      rw [List.append_assoc]
      exact hbase.unsigned_atom

/-- What is spelled out is read without implicit factors, whatever follows that ends the same
tokens. -/
theorem SpellsOut.plainReadAs (hspells : SpellsOut layer cs next e spelled) {levels : ℕ}
    (hlevels : spelled.length ≤ levels) (halike : EndsAlike next other) :
    PlainReadAs (plainExpression levels) layer spelled other e := by
  induction hspells generalizing levels other with
  | literal hgaps hvalue hmaximal =>
      exact readAs_literal hgaps hvalue (halike.maximal_literal hmaximal)
  | name hgaps hmaximal => exact readAs_name hgaps (halike.maximal_name hmaximal)
  | @group before body after next body' e hbefore hafter _ ih =>
      -- a pair of parentheses makes up for the level that it takes
      simp only [List.length_append, List.length_cons] at hlevels
      obtain ⟨fewer, rfl⟩ := Nat.exists_eq_succ_of_ne_zero (show levels ≠ 0 by omega)
      have hbody := ih (show _ ≤ fewer by omega) (endsAlike_append_cons after ')' next other)
      have hchain := hbody (hafter.noneAhead (by decide) (by decide))
      exact readAs_group hbefore hafter
        (sumOf_of_opensChain hchain (hafter.noneAhead (by decide) (by decide)))
  | base _ ih => exact ReadAs.base (ih hlevels halike)
  | pow hgaps _ hrun hexponent ihl ihr =>
      simp only [List.length_append, List.length_cons] at hlevels
      exact ReadAs.pow hgaps (ihl (by omega) (endsAlike_append_cons ..)) hrun
        hexponent.unsigned_power (ihr (by omega) halike)
  | signed hrun hpower ih =>
      simp only [List.length_append] at hlevels
      exact ReadAs.signed hrun hpower.unsigned_power (ih (by omega) halike)
  | operand _ ih => exact ReadAs.operand (ih hlevels halike)
  | mul hgaps _ _ ihl ihr | div hgaps _ _ ihl ihr =>
      simp only [List.length_append, List.length_cons] at hlevels
      exact ReadAs.extend_product (by simp) hgaps (ihl (by omega) (endsAlike_append_cons ..))
        (ihr (by omega) halike)
  | product _ ih => exact ih hlevels halike
  | factor _ _ _ hfactor ihl ihr =>
      -- behind its star the factor is an operand without a sign
      simp only [List.length_append, List.length_cons] at hlevels
      exact ReadAs.extend_product (by simp) gaps_nil
        (ihl (by omega) (Or.inr (headFree_cons.mpr (by decide))))
        (ReadAs.signed .none hfactor.unsigned_power (ihr (by omega) halike))
  | summand _ ih => exact fun hnext => .of_operand (product_of_readAs (ih hlevels halike) hnext)
  | add hgaps _ _ ihl ihr | sub hgaps _ _ ihl ihr =>
      simp only [List.length_append, List.length_cons] at hlevels
      intro hnext
      refine OpensChain.snoc hgaps (by simp) (by decide) ?_
        (product_of_readAs (ihr (by omega) halike) hnext)
      exact ihl (by omega) (endsAlike_append_cons ..) (hgaps.noneAhead (by decide) (by decide))

end PlainReadAs

/-! ## Whole texts -/

/-- **An implicit product is an explicit one with its star left out.**  If the reader takes a whole
text, there is just one way to spell it out: a star goes in front of every name and every group that
stands right behind an operand.  With these stars the text is read whole and with the same tree by
the reader that knows no implicit factors. -/
theorem readPlain_withStars {cs : List Char} {e : Expr} (hread : readExpr cs = .ok (e, [])) :
    (∀ spelled, SpellsOut .sum cs [] e spelled ↔ spelled = withStars cs) ∧
      readPlain (withStars cs) = .ok (e, []) := by
  obtain ⟨taken, htaken, hderives⟩ := takes_readExpr _ _ _ hread
  obtain rfl : cs = taken := by simpa using htaken
  have hmarked : ∀ {spelled}, SpellsOut .sum cs [] e spelled → spelled = withStars cs := by
    intro spelled hspells
    obtain ⟨place, hmarks, -⟩ := hspells.marks
    exact hmarks.starred_eq.symm
  obtain ⟨spelled, hspells⟩ := hderives.exists_spellsOut
  obtain rfl := hmarked hspells
  refine ⟨fun spelled' => ⟨hmarked, fun heq => heq ▸ hspells⟩, ?_⟩
  have hplain := hspells.plainReadAs le_rfl (Or.inl rfl)
  have hwhole := sumOf_of_opensChain (hplain headFree_nil) headFree_nil
  rwa [List.append_nil] at hwhole

/-- A power behind a sign, a group and another one inside it, a quotient, and a name with a digit. -/
theorem readPlain_withStars_nested :
    readExpr "-2x^2(y+.5(3)b) + 6/2n_1^-3".toList =
      .ok (.add
        (.mul (.mul (.number (-2)) (.pow (.var "x") (.number 2)))
          (.add (.var "y") (.mul (.mul (.number (1 / 2)) (.number 3)) (.var "b"))))
        (.mul (.div (.number 6) (.number 2)) (.pow (.var "n_1") (.number (-3)))), []) ∧
    readPlain "-2*x^2*(y+.5*(3)*b) + 6/2*n_1^-3".toList =
      .ok (.add
        (.mul (.mul (.number (-2)) (.pow (.var "x") (.number 2)))
          (.add (.var "y") (.mul (.mul (.number (1 / 2)) (.number 3)) (.var "b"))))
        (.mul (.div (.number 6) (.number 2)) (.pow (.var "n_1") (.number (-3)))), []) := by
  have hread : readExpr "-2x^2(y+.5(3)b) + 6/2n_1^-3".toList =
      .ok (.add
        (.mul (.mul (.number (-2)) (.pow (.var "x") (.number 2)))
          (.add (.var "y") (.mul (.mul (.number (1 / 2)) (.number 3)) (.var "b"))))
        (.mul (.div (.number 6) (.number 2)) (.pow (.var "n_1") (.number (-3)))), []) := by
    decide +kernel
  have hstars : withStars "-2x^2(y+.5(3)b) + 6/2n_1^-3".toList =
      "-2*x^2*(y+.5*(3)*b) + 6/2*n_1^-3".toList := by decide +kernel
  obtain ⟨-, hplain⟩ := readPlain_withStars hread
  rw [hstars] at hplain
  exact ⟨hread, hplain⟩

end EquationPractice
