import EquationPractice.Proofs.Reading.Derived

/-!
# Characters in derived texts

What a single character of a derived text tells of the derivation.  An opening parenthesis opens a
group, and the group may be exchanged for another one with the same tree.  A star stands between two
operands of a product, and this product is a term of the whole text or of the text in parentheses
where the star stands.

## Strategy

Both facts are inductions on the derivation.  The character stands in one of the parts of which a
production puts the text together, and neither in a gap nor in a run of signs.

## Main definitions

* `HasGroup`: a derived text with a group that may be exchanged.
* `OpensTerm`: what stands in front of a term of a sum.
* `StarIn`: where a star may stand in a text that is derived from a layer.
-/

namespace EquationPractice

open Text

variable {layer : Layer} {cs ds gaps run next front behind : List Char} {c operator : Char}
  {e f : Expr}

/-! ## Cutting a text at a character -/

/-- A character of a text that has two parts stands in one of them. -/
theorem cut_append (htext : cs ++ ds = front ++ c :: behind) :
    (∃ rest, cs = front ++ c :: rest ∧ behind = rest ++ ds) ∨
      ∃ rest, front = cs ++ rest ∧ ds = rest ++ c :: behind := by
  rcases List.append_eq_append_iff.mp htext with ⟨rest, rfl, rfl⟩ | ⟨rest, rfl, hrest⟩
  · exact Or.inr ⟨rest, rfl, rfl⟩
  · cases rest with
    | nil => exact Or.inr ⟨[], by simp, by simpa using hrest.symm⟩
    | cons d tail =>
        rw [List.cons_append, List.cons.injEq] at hrest
        obtain ⟨rfl, rfl⟩ := hrest
        exact Or.inl ⟨tail, rfl, rfl⟩

/-- A character that is not in the first part stands in the second one. -/
theorem cut_behind (hnot : c ∉ cs) (htext : cs ++ ds = front ++ c :: behind) :
    ∃ rest, front = cs ++ rest ∧ ds = rest ++ c :: behind := by
  rcases cut_append htext with ⟨rest, rfl, -⟩ | hright
  · exact absurd hnot (by simp)
  · exact hright

theorem Gaps.notMem (hgaps : Gaps gaps) (hc : isGap c = false) : c ∉ gaps := by
  intro hmem
  exact absurd (hgaps c hmem) (by simp [hc])

theorem Signs.notMem (hrun : Signs run e f) (hc : isGap c = false) (hsign : c ∉ ['+', '-']) :
    c ∉ run := by
  simp only [List.mem_cons, List.not_mem_nil, or_false, not_or] at hsign
  induction hrun with
  | none => simp
  | plus hgaps _ ih | minus hgaps _ ih => simp [hgaps.notMem hc, ih, hsign]

/-- A character that is no operator stands in one of the operands. -/
theorem cut_operands (hgaps : Gaps gaps) (hc : isGap c = false) (hne : c ≠ operator)
    (htext : cs ++ (gaps ++ operator :: ds) = front ++ c :: behind) :
    (∃ rest, cs = front ++ c :: rest ∧ behind = rest ++ (gaps ++ operator :: ds)) ∨
      ∃ rest, front = cs ++ (gaps ++ operator :: rest) ∧ ds = rest ++ c :: behind := by
  rcases cut_append htext with hleft | ⟨rest, rfl, hrest⟩
  · exact Or.inl hleft
  · have hnot : c ∉ gaps ++ [operator] := by simp [hgaps.notMem hc, hne]
    have hrest' : (gaps ++ [operator]) ++ ds = rest ++ c :: behind := by simpa using hrest
    obtain ⟨rest, rfl, rfl⟩ := cut_behind hnot hrest'
    exact Or.inr ⟨rest, by simp, rfl⟩

/-- A character that belongs to no token stands in none. -/
theorem notMem_token (hgaps : Gaps gaps) (htoken : ∀ d ∈ cs, isTokenChar d = true)
    (hc : isGap c = false) (hnot : isTokenChar c = false) : c ∉ gaps ++ cs := by
  have hmem : c ∉ cs := fun hmem => absurd (htoken c hmem) (by simp [hnot])
  simp [hgaps.notMem hc, hmem]

/-! ## Groups -/

/-- Behind an opening parenthesis of a derived text stands an expression that is closed, and any other
one with the same tree may stand there. -/
def HasGroup (layer : Layer) (front behind next : List Char) (e : Expr) : Prop :=
  ∃ body after rest g, behind = body ++ (after ++ ')' :: rest) ∧ Gaps after ∧
    Derives .sum body (after ++ ')' :: (rest ++ next)) g ∧
    ∀ body', Derives .sum body' (after ++ ')' :: (rest ++ next)) g →
      Derives layer (front ++ '(' :: (body' ++ (after ++ ')' :: rest))) next e

section HasGroup

variable {link link' : Layer} {inside : List Char} {g : Expr}

/-- A group of a part is a group of the whole. -/
theorem HasGroup.within (hgroup : HasGroup link front behind inside f)
    (hinside : inside = ds ++ next)
    (hbuild : ∀ rest, Derives link (front ++ '(' :: rest) inside f →
      Derives layer (cs ++ (front ++ '(' :: (rest ++ ds))) next e) :
    HasGroup layer (cs ++ front) (behind ++ ds) next e := by
  subst hinside
  obtain ⟨body, after, rest, g, rfl, hafter, hbody, hreplace⟩ := hgroup
  rw [← List.append_assoc rest] at hbody hreplace
  refine ⟨body, after, rest ++ ds, g, by simp, hafter, hbody, fun body' hbody' => ?_⟩
  simpa using hbuild _ (hreplace body' hbody')

theorem HasGroup.left (hgroup : HasGroup link front behind inside f) (hinside : inside = ds ++ next)
    (hbuild : ∀ cs, Derives link cs inside f → Derives layer (cs ++ ds) next e) :
    HasGroup layer front (behind ++ ds) next e := by
  have hwhole : HasGroup layer ([] ++ front) (behind ++ ds) next e :=
    hgroup.within hinside fun rest hleft => by simpa using hbuild _ hleft
  exact hwhole

theorem HasGroup.right (hgroup : HasGroup link front behind next f)
    (hbuild : ∀ rest, Derives link (front ++ '(' :: rest) next f →
      Derives layer (cs ++ (front ++ '(' :: rest)) next e) :
    HasGroup layer (cs ++ front) behind next e := by
  have hwhole : HasGroup layer (cs ++ front) (behind ++ []) next e :=
    hgroup.within rfl fun rest hright => by simpa using hbuild _ hright
  rwa [List.append_nil] at hwhole

theorem HasGroup.imp (hgroup : HasGroup link front behind next f)
    (hbuild : ∀ cs, Derives link cs next f → Derives layer cs next e) :
    HasGroup layer front behind next e := by
  obtain ⟨body, after, rest, g, htext, hafter, hbody, hreplace⟩ := hgroup
  exact ⟨body, after, rest, g, htext, hafter, hbody, fun body' h => hbuild _ (hreplace body' h)⟩

/-- A group of either operand is a group of the whole. -/
theorem HasGroup.operands (hgaps : Gaps gaps) (hoperator : '(' ≠ operator)
    (hleft : Derives link cs (gaps ++ operator :: (ds ++ next)) f) (hright : Derives link' ds next g)
    (hbuild : ∀ {cs ds}, Derives link cs (gaps ++ operator :: (ds ++ next)) f →
      Derives link' ds next g → Derives layer (cs ++ (gaps ++ operator :: ds)) next e)
    (ihl : ∀ {front behind}, cs = front ++ '(' :: behind →
      HasGroup link front behind (gaps ++ operator :: (ds ++ next)) f)
    (ihr : ∀ {front behind}, ds = front ++ '(' :: behind → HasGroup link' front behind next g)
    (htext : cs ++ (gaps ++ operator :: ds) = front ++ '(' :: behind) :
    HasGroup layer front behind next e := by
  rcases cut_operands hgaps (by decide) hoperator htext with ⟨rest, hcs, rfl⟩ | ⟨rest, rfl, hds⟩
  · exact (ihl hcs).left (by simp) fun cs hleft => hbuild hleft hright
  · have hsep : ∀ ds, cs ++ (gaps ++ operator :: ds) = (cs ++ (gaps ++ [operator])) ++ ds := by simp
    rw [hsep]
    refine (ihr hds).right fun tail hright => ?_
    rw [← hsep]
    refine hbuild (hleft.behind ?_) hright
    exact endsAlike_append_cons ..

end HasGroup

/-- An opening parenthesis of a derived text opens a group. -/
theorem Derives.hasGroup (hderives : Derives layer cs next e) (htext : cs = front ++ '(' :: behind) :
    HasGroup layer front behind next e := by
  induction hderives generalizing front behind with
  | literal hgaps hvalue _ =>
      have hnot := notMem_token hgaps hvalue.isTokenChar (c := '(') (by decide) (by decide)
      exact absurd (by rw [htext]; simp) hnot
  | name hgaps hmaximal =>
      have hnot := notMem_token hgaps hmaximal.isToken.isTokenChar (c := '(') (by decide) (by decide)
      exact absurd (by rw [htext]; simp) hnot
  | @group before body after next e hbefore hafter hbody ih =>
      obtain ⟨rest, rfl, hrest⟩ := cut_behind (hbefore.notMem (by decide)) htext
      cases rest with
      | nil =>
          obtain rfl : body ++ (after ++ [')']) = behind := by simpa using hrest
          rw [List.append_nil]
          exact ⟨body, after, [], e, rfl, hafter, hbody, fun _ h => .group hbefore hafter h⟩
      | cons d inside =>
          -- the parenthesis opens a group inside this one
          rw [List.cons_append, List.cons.injEq] at hrest
          obtain ⟨rfl, hinside⟩ := hrest
          rcases cut_append hinside with ⟨rest, hbodytext, rfl⟩ | ⟨rest, -, hclose⟩
          · have hopen : before ++ '(' :: inside = (before ++ ['(']) ++ inside := by simp
            rw [hopen]
            refine (ih hbodytext).within (by simp) fun tail hbody' => ?_
            simpa using Derives.group hbefore hafter hbody'
          · have hnot : '(' ∉ after ++ [')'] := by simp [hafter.notMem (c := '(') (by decide)]
            exact absurd (by rw [hclose]; simp) hnot
  | base _ ih => exact (ih htext).imp fun _ => .base
  | @pow cs gaps run ds next e f x hgaps hbase hrun hexponent ihl ihr =>
      rcases cut_operands hgaps (by decide) (by decide) htext with ⟨rest, hcs, rfl⟩ | ⟨rest, rfl, hds⟩
      · exact (ihl hcs).left (by simp) fun cs' h => .pow hgaps h hrun hexponent
      · obtain ⟨rest, rfl, hoperand⟩ := cut_behind (hrun.notMem (by decide) (by decide)) hds
        have hsep : ∀ ds, cs ++ (gaps ++ '^' :: (run ++ ds)) =
            (cs ++ (gaps ++ '^' :: run)) ++ ds := by simp
        rw [hsep]
        refine (ihr hoperand).right fun tail hexponent => ?_
        rw [← hsep]
        exact .pow hgaps (hbase.behind (endsAlike_append_cons ..)) hrun hexponent
  | signed hrun _ ih => 
      obtain ⟨rest, rfl, hds⟩ := cut_behind (hrun.notMem (by decide) (by decide)) htext
      exact (ih hds).right fun _ hpower => .signed hrun hpower
  | operand _ ih => exact (ih htext).imp fun _ => .operand
  | mul hgaps hleft hright ihl ihr =>
      exact .operands hgaps (by decide) hleft hright (.mul hgaps) ihl ihr htext
  | div hgaps hleft hright ihl ihr =>
      exact .operands hgaps (by decide) hleft hright (.div hgaps) ihl ihr htext
  | product _ ih => exact (ih htext).imp fun _ => .product
  | @factor cs ds next c e f hleft hends hstart hfactor ihl ihr =>
      rcases cut_append htext with ⟨rest, hcs, rfl⟩ | ⟨rest, rfl, hds⟩
      · exact (ihl hcs).left (by simp) fun _ h => .factor h hends hstart hfactor
      · refine (ihr hds).right fun tail hfactor' => ?_
        -- with another group in it, the factor still begins with the same character
        cases rest with
        | nil =>
            obtain ⟨rfl, -⟩ : c = '(' ∧ ds = behind := by simpa using hds
            exact .factor (hleft.behind (endsAlike_append_cons [] ..)) hends hstart hfactor'
        | cons d rest =>
            obtain ⟨rfl, -⟩ : c = d ∧ ds = rest ++ '(' :: behind := by simpa using hds
            exact .factor (hleft.behind (endsAlike_append_cons [] ..)) hends hstart hfactor'
  | summand _ ih => exact (ih htext).imp fun _ => .summand
  | add hgaps hleft hright ihl ihr =>
      exact .operands hgaps (by decide) hleft hright (.add hgaps) ihl ihr htext
  | sub hgaps hleft hright ihl ihr =>
      exact .operands hgaps (by decide) hleft hright (.sub hgaps) ihl ihr htext

/-! ## Stars -/

/-- What stands in front of a term of a sum: nothing, or the terms before it and a sign. -/
inductive OpensTerm : List Char → Prop
  | first : OpensTerm []
  | sign {cs gaps next : List Char} {operator : Char} {e : Expr} (hgaps : Gaps gaps)
      (hmem : operator ∈ ['+', '-']) (hterms : Derives .sum cs (gaps ++ operator :: next) e) :
      OpensTerm (cs ++ (gaps ++ [operator]))

/-- The star between the two texts follows a product with which the first one begins. -/
def StarInProduct (front behind : List Char) : Prop :=
  ∃ cs gaps e, front = cs ++ gaps ∧ Gaps gaps ∧ Derives .product cs (gaps ++ '*' :: behind) e

/-- The star between the two texts stands in a term of a sum with which the first one begins. -/
def StarInSum (front behind : List Char) : Prop :=
  ∃ terms operands, front = terms ++ operands ∧ OpensTerm terms ∧ StarInProduct operands behind

/-- The star between the two texts stands in a group. -/
def StarInGroup (front behind : List Char) : Prop :=
  ∃ outer inside, front = outer ++ '(' :: inside ∧ StarInSum inside behind

/-- Where a star may stand in a text that is derived from a layer. -/
def StarIn : Layer → List Char → List Char → Prop
  | .sum, front, behind => StarInSum front behind ∨ StarInGroup front behind
  | .term, front, behind | .product, front, behind =>
      StarInProduct front behind ∨ StarInGroup front behind
  | .signed, front, behind | .power, front, behind | .atom, front, behind =>
      StarInGroup front behind

theorem starInGroup_append (cs : List Char) (hstar : StarInGroup front behind) :
    StarInGroup (cs ++ front) behind := by
  obtain ⟨outer, inside, rfl, hinside⟩ := hstar
  exact ⟨cs ++ outer, inside, by simp, hinside⟩

/-- A star of a right operand that stands in a group there. -/
theorem starInGroup_operand (cs gaps : List Char) (operator : Char)
    (hstar : StarInGroup front behind) :
    StarInGroup (cs ++ (gaps ++ operator :: front)) behind := by
  have hwhole := starInGroup_append (cs ++ (gaps ++ [operator])) hstar
  simpa using hwhole

/-- Inside parentheses a star of a sum is a star of a group. -/
theorem StarIn.group (hstar : StarIn .sum front behind) (cs : List Char) :
    StarIn .atom (cs ++ '(' :: front) behind := by
  rcases hstar with hsum | hgroup
  · exact ⟨cs, front, rfl, hsum⟩
  · have hwhole := starInGroup_append (cs ++ ['(']) hgroup
    simpa [StarIn] using hwhole

/-- A star of the last term of a sum is a star of the sum. -/
theorem StarIn.last_term (hstar : StarIn .term front behind) (hgaps : Gaps gaps)
    (hmem : operator ∈ ['+', '-']) (hterms : Derives .sum cs (gaps ++ operator :: next) e) :
    StarIn .sum (cs ++ (gaps ++ operator :: front)) behind := by
  rcases hstar with hproduct | hgroup
  · exact Or.inl ⟨_, front, by simp, .sign hgaps hmem hterms, hproduct⟩
  · exact Or.inr (starInGroup_operand cs gaps operator hgroup)

/-- A star of a derived text stands behind an operand of a product. -/
theorem Derives.starIn (hderives : Derives layer cs next e) (htext : cs = front ++ '*' :: behind) :
    StarIn layer front (behind ++ next) := by
  have hgap : isGap '*' = false := by decide
  induction hderives generalizing front behind with
  | literal hgaps hvalue _ =>
      have hnot := notMem_token hgaps hvalue.isTokenChar hgap (by decide)
      exact absurd (by rw [htext]; simp) hnot
  | name hgaps hmaximal =>
      have hnot := notMem_token hgaps hmaximal.isToken.isTokenChar hgap (by decide)
      exact absurd (by rw [htext]; simp) hnot
  | @group before body after next e hbefore hafter _ ih =>
      have hopen : '*' ∉ before ++ ['('] := by simp [hbefore.notMem hgap]
      have hclose : '*' ∉ after ++ [')'] := by simp [hafter.notMem hgap]
      have htext' : (before ++ ['(']) ++ (body ++ (after ++ [')'])) = front ++ '*' :: behind := by
        simpa using htext
      obtain ⟨rest, rfl, hinside⟩ := cut_behind hopen htext'
      rcases cut_append hinside with ⟨more, hbody, rfl⟩ | ⟨more, -, hafterBody⟩
      · simpa using (ih hbody).group before
      · exact absurd (by rw [hafterBody]; simp) hclose
  | base _ ih => exact ih htext
  | @pow cs gaps run ds next e f x hgaps _ hrun _ ihl ihr =>
      rcases cut_operands hgaps hgap (by decide) htext with ⟨rest, hcs, rfl⟩ | ⟨rest, rfl, hds⟩
      · simpa [StarIn] using ihl hcs
      · obtain ⟨more, rfl, hoperand⟩ := cut_behind (hrun.notMem hgap (by decide)) hds
        exact starInGroup_operand cs gaps '^' (starInGroup_append run (ihr hoperand))
  | signed hrun _ ih =>
      obtain ⟨rest, rfl, hoperand⟩ := cut_behind (hrun.notMem hgap (by decide)) htext
      exact starInGroup_append _ (ih hoperand)
  | operand _ ih => exact Or.inr (ih htext)
  | @mul cs gaps ds next e f hgaps hleft _ ihl ihr =>
      rcases cut_append htext with ⟨rest, hcs, rfl⟩ | ⟨rest, rfl, hrest⟩
      · simpa using ihl hcs
      · obtain ⟨more, rfl, hmore⟩ := cut_behind (hgaps.notMem hgap) hrest
        cases more with
        | nil =>
            -- it is the star of this product
            obtain rfl : ds = behind := by simpa using hmore
            exact Or.inl ⟨cs, gaps, e, by simp, hgaps, hleft⟩
        | cons d tail =>
            obtain ⟨rfl, hds⟩ : '*' = d ∧ ds = tail ++ '*' :: behind := by simpa using hmore
            exact Or.inr (starInGroup_operand cs gaps '*' (ihr hds))
  | @div cs gaps ds next e f hgaps _ _ ihl ihr =>
      rcases cut_operands hgaps hgap (by decide) htext with ⟨rest, hcs, rfl⟩ | ⟨rest, rfl, hds⟩
      · simpa using ihl hcs
      · exact Or.inr (starInGroup_operand cs gaps '/' (ihr hds))
  | product _ ih => exact ih htext
  | factor _ _ _ _ ihl ihr =>
      rcases cut_append htext with ⟨rest, hcs, rfl⟩ | ⟨rest, rfl, hds⟩
      · simpa using ihl hcs
      · exact Or.inr (starInGroup_append _ (ihr hds))
  | summand _ ih =>
      rcases ih htext with hproduct | hgroup
      · exact Or.inl ⟨[], front, rfl, .first, hproduct⟩
      · exact Or.inr hgroup
  | add hgaps hleft _ ihl ihr | sub hgaps hleft _ ihl ihr =>
      rcases cut_operands hgaps hgap (by decide) htext with ⟨rest, hcs, rfl⟩ | ⟨rest, rfl, hds⟩
      · simpa using ihl hcs
      · exact (ihr hds).last_term hgaps (by simp) hleft

end EquationPractice
