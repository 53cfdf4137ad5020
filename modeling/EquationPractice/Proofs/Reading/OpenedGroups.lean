import EquationPractice.Proofs.Reading.Derivations
import EquationPractice.Proofs.Reading.Derived

/-!
# The groups that a reader opens

A reader opens a group when it takes an opening parenthesis and goes on to read what stands behind it.
For every layer this file lists the texts behind the parentheses that the layer opens itself, in the
order in which it comes to them.  What is listed does not depend on how an attempt ends: a group is
there also when it is never closed, and when the attempt that opened it is given up.

Two things are said about these lists.  They are all that a layer asks the reader of groups for, so
two readers of groups that agree on them make the same layer.  And each of the texts stands behind
a balanced text and a parenthesis.

## Main definitions

* `openedBySum`: the texts behind the parentheses that a sum opens, and the same for every layer.
* `Passes`: what is left of a text behind a balanced one.
* `OpensAt`: what is left of a text behind a balanced one and an opening parenthesis.
-/

namespace EquationPractice

open Text

variable {α : Type}

/-! ## What is opened -/

/-- What is opened behind a value, if it is read. -/
def openedBehind (reader : Reader α) (opened : α → List Char → List (List Char))
    (cs : List Char) : List (List Char) :=
  match reader cs with
  | .error _ => []
  | .ok (value, rest) => opened value rest

/-- What a repetition opens.  The last item may be an attempt that gets stuck. -/
def openedByMany (item : Reader α) (opened : List Char → List (List Char)) (cs : List Char) :
    List (List Char) :=
  opened cs ++
    match item cs with
    | .error _ => []
    | .ok (_, rest) => if rest.length < cs.length then openedByMany item opened rest else []
termination_by cs.length

/-- A group is opened by its parenthesis. -/
def openedByGroup (cs : List Char) : List (List Char) :=
  match skipGaps cs with
  | '(' :: body => [body]
  | _ => []

/-- An atom opens a group when it is neither a number nor a name. -/
def openedByAtom (cs : List Char) : List (List Char) :=
  match decimal? (skipGaps cs) with
  | some _ => []
  | none =>
      match name? (skipGaps cs) with
      | some _ => []
      | none => openedByGroup cs

/-- What a storey of a tower opens. -/
def openedByStorey : List Char → List (List Char) :=
  openedBehind (oneOf ['^']) fun _ after => openedByAtom (signs after).2

/-- What an operation opens: what its operand does. -/
def openedByOperation (operators : List Char) (opened : List Char → List (List Char)) :
    List Char → List (List Char) :=
  openedBehind (oneOf operators) fun _ => opened

variable (inner : Reader Expr)

/-- What an atom and its tower open. -/
def openedByPower (cs : List Char) : List (List Char) :=
  openedByAtom cs ++
    openedBehind (atom inner) (fun _ => openedByMany (storey inner) openedByStorey) cs

/-- What a signed power opens. -/
def openedBySigned (cs : List Char) : List (List Char) :=
  openedByPower inner (signs cs).2

/-- What the factors that follow without an operator open. -/
def openedByFactors (acc : Expr) (cs : List Char) : List (List Char) :=
  if startsFactor cs && takesFactor acc then
    openedByPower inner cs ++
      match power inner cs with
      | .error _ => []
      | .ok (factor, rest) =>
          if rest.length < cs.length then openedByFactors (.mul acc factor) rest else []
  else []
termination_by cs.length

/-- What a term opens. -/
def openedByTerm (cs : List Char) : List (List Char) :=
  openedBySigned inner cs ++
    openedBehind (signed inner) (fun first rest =>
      let operations := many (operation ['*', '/'] (signed inner)) rest
      openedByMany (operation ['*', '/'] (signed inner))
          (openedByOperation ['*', '/'] (openedBySigned inner)) rest ++
        openedByFactors inner (foldProduct first operations.1) operations.2) cs

/-- What a sum opens. -/
def openedBySum (cs : List Char) : List (List Char) :=
  openedByTerm inner cs ++
    openedBehind (term inner) (fun _ => openedByMany (operation ['+', '-'] (term inner))
      (openedByOperation ['+', '-'] (openedByTerm inner))) cs

variable {inner} {cs mid rest body : List Char}

@[simp] theorem mem_openedBehind {reader : Reader α} {opened : α → List Char → List (List Char)} :
    body ∈ openedBehind reader opened cs ↔
      ∃ value rest, reader cs = .ok (value, rest) ∧ body ∈ opened value rest := by
  unfold openedBehind
  cases reader cs with
  | error stuck => simp
  | ok result => simp [Prod.ext_iff]

section openedByMany

variable {item : Reader α} {opened : List Char → List (List Char)} {value : α} {stuck : Mismatch}

theorem openedByMany_cons (hitem : item cs = .ok (value, rest)) (hlength : rest.length < cs.length) :
    openedByMany item opened cs = opened cs ++ openedByMany item opened rest := by
  rw [openedByMany, hitem]
  simp only [hlength, if_true]

/-- What is opened first is opened by the first item, also when that one gets stuck. -/
theorem mem_openedByMany (hbody : body ∈ opened cs) : body ∈ openedByMany item opened cs := by
  rw [openedByMany]
  exact List.mem_append_left _ hbody

end openedByMany

section openedByFactors

variable {acc factor : Expr}

theorem openedByFactors_cons (hstarts : (startsFactor cs && takesFactor acc) = true)
    (hread : power inner cs = .ok (factor, rest)) (hlength : rest.length < cs.length) :
    openedByFactors inner acc cs =
      openedByPower inner cs ++ openedByFactors inner (.mul acc factor) rest := by
  rw [openedByFactors, if_pos hstarts, hread]
  simp only [hlength, if_true]

theorem mem_openedByFactors (hstarts : (startsFactor cs && takesFactor acc) = true)
    (hbody : body ∈ openedByPower inner cs) : body ∈ openedByFactors inner acc cs := by
  rw [openedByFactors, if_pos hstarts]
  exact List.mem_append_left _ hbody

end openedByFactors

/-! ## What a layer asks for -/

section Agreement

variable {inner' : Reader Expr}

theorem group_congr (hagree : ∀ body ∈ openedByGroup cs, inner body = inner' body) :
    group inner cs = group inner' cs := by
  unfold group
  split
  · next body hopen => rw [hagree body (by simp [openedByGroup, hopen])]
  · rfl

theorem atom_congr (hagree : ∀ body ∈ openedByAtom cs, inner body = inner' body) :
    atom inner cs = atom inner' cs := by
  unfold openedByAtom at hagree
  unfold atom
  split
  · rfl
  · next hliteral =>
      split
      · rfl
      · next hname =>
          rw [hliteral, hname] at hagree
          exact group_congr hagree

/-- Repetitions agree when their items do on every text that an item is tried on. -/
theorem many_congr {item item' : Reader α} {opened : List Char → List (List Char)}
    (hitem : ∀ cs, (∀ body ∈ opened cs, inner body = inner' body) → item cs = item' cs)
    (hagree : ∀ body ∈ openedByMany item opened cs, inner body = inner' body) :
    many item cs = many item' cs := by
  have hfirst : ∀ cs, (∀ body ∈ openedByMany item opened cs, inner body = inner' body) →
      item cs = item' cs := fun cs hagree =>
    hitem cs fun body hbody => hagree body (mem_openedByMany hbody)
  induction cs using many.induct item with
  | case1 cs stuck hread =>
      rw [many_stop hread, many_stop ((hfirst cs hagree).symm.trans hread)]
  | case2 cs value rest hread hshorter values last hmany ih =>
      have hread' := (hfirst cs hagree).symm.trans hread
      rw [openedByMany_cons hread hshorter] at hagree
      rw [many_cons hread hshorter, many_cons hread' hshorter,
        ih fun body hbody => hagree body (List.mem_append_right _ hbody)]
  | case3 cs value rest hread hshorter =>
      rw [many_stall hread hshorter, many_stall ((hfirst cs hagree).symm.trans hread) hshorter]

theorem storey_congr (hagree : ∀ body ∈ openedByStorey cs, inner body = inner' body) :
    storey inner cs = storey inner' cs := by
  unfold storey
  split
  · rfl
  · next c after hcaret =>
      have hatom : atom inner (signs after).2 = atom inner' (signs after).2 :=
        atom_congr fun body hbody => hagree body (mem_openedBehind.mpr ⟨c, after, hcaret, hbody⟩)
      simp only [hatom]

theorem operation_congr {operators : List Char} {operand operand' : Reader Expr}
    {opened : List Char → List (List Char)}
    (hoperand : ∀ cs, (∀ body ∈ opened cs, inner body = inner' body) → operand cs = operand' cs)
    (hagree : ∀ body ∈ openedByOperation operators opened cs, inner body = inner' body) :
    operation operators operand cs = operation operators operand' cs := by
  unfold operation
  split
  · rfl
  · next c after hoperator =>
      rw [hoperand after fun body hbody =>
        hagree body (mem_openedBehind.mpr ⟨c, after, hoperator, hbody⟩)]

theorem power_congr (hagree : ∀ body ∈ openedByPower inner cs, inner body = inner' body) :
    power inner cs = power inner' cs := by
  have hatom : atom inner cs = atom inner' cs :=
    atom_congr fun body hbody => hagree body (List.mem_append_left _ hbody)
  unfold power
  rw [← hatom]
  split
  · rfl
  · next base rest hread =>
      have htower : many (storey inner) rest = many (storey inner') rest :=
        many_congr (fun _ => storey_congr) fun body hbody => hagree body
          (List.mem_append_right _ (mem_openedBehind.mpr ⟨base, rest, hread, hbody⟩))
      rw [htower]

theorem signed_congr (hagree : ∀ body ∈ openedBySigned inner cs, inner body = inner' body) :
    signed inner cs = signed inner' cs := by
  have hpower : power inner (signs cs).2 = power inner' (signs cs).2 := power_congr hagree
  simp only [signed, hpower]

theorem implicitFactors_congr {acc : Expr}
    (hagree : ∀ body ∈ openedByFactors inner acc cs, inner body = inner' body) :
    implicitFactors inner acc cs = implicitFactors inner' acc cs := by
  have hfactor : ∀ cs acc, (startsFactor cs && takesFactor acc) = true →
      (∀ body ∈ openedByFactors inner acc cs, inner body = inner' body) →
        power inner cs = power inner' cs := fun cs acc hstarts hagree =>
    power_congr fun body hbody => hagree body (mem_openedByFactors hstarts hbody)
  induction acc, cs using implicitFactors.induct inner with
  | case1 acc cs hstarts stuck hread =>
      rw [implicitFactors_stuck hread,
        implicitFactors_stuck ((hfactor cs acc hstarts hagree).symm.trans hread)]
  | case2 acc cs hstarts factor rest hread hshorter ih =>
      have hread' := (hfactor cs acc hstarts hagree).symm.trans hread
      obtain ⟨hstart, htakes⟩ := Bool.and_eq_true_iff.mp hstarts
      rw [openedByFactors_cons hstarts hread hshorter] at hagree
      rw [implicitFactors_cons hstart htakes hread hshorter,
        implicitFactors_cons hstart htakes hread' hshorter,
        ih fun body hbody => hagree body (List.mem_append_right _ hbody)]
  | case3 acc cs hstarts factor rest hread hshorter =>
      rw [implicitFactors, implicitFactors, if_pos hstarts, if_pos hstarts,
        ← hfactor cs acc hstarts hagree, hread]
      simp only [hshorter, if_false]
  | case4 acc cs hstarts =>
      rw [implicitFactors, implicitFactors, if_neg hstarts, if_neg hstarts]

theorem term_congr (hagree : ∀ body ∈ openedByTerm inner cs, inner body = inner' body) :
    term inner cs = term inner' cs := by
  have hsigned : signed inner cs = signed inner' cs :=
    signed_congr fun body hbody => hagree body (List.mem_append_left _ hbody)
  unfold term
  rw [← hsigned]
  split
  · rfl
  · next first rest hread =>
      have hbehind := fun body hbody => hagree body
        (List.mem_append_right _ (mem_openedBehind.mpr ⟨first, rest, hread, hbody⟩))
      have hmany : many (operation ['*', '/'] (signed inner)) rest =
          many (operation ['*', '/'] (signed inner')) rest :=
        many_congr (fun _ => operation_congr fun _ => signed_congr) fun body hbody =>
          hbehind body (List.mem_append_left _ hbody)
      rw [← hmany]
      exact congrArg Except.ok (implicitFactors_congr fun body hbody =>
        hbehind body (List.mem_append_right _ hbody))

theorem sum_congr (hagree : ∀ body ∈ openedBySum inner cs, inner body = inner' body) :
    sum inner cs = sum inner' cs := by
  have hterm : term inner cs = term inner' cs :=
    term_congr fun body hbody => hagree body (List.mem_append_left _ hbody)
  unfold sum sumOf
  rw [← hterm]
  split
  · rfl
  · next first rest hread =>
      have hmany : many (operation ['+', '-'] (term inner)) rest =
          many (operation ['+', '-'] (term inner')) rest :=
        many_congr (fun _ => operation_congr fun _ => term_congr) fun body hbody => hagree body
          (List.mem_append_right _ (mem_openedBehind.mpr ⟨first, rest, hread, hbody⟩))
      rw [hmany]

end Agreement

/-! ## Where groups are opened -/

/-- The second text is what is left of the first one behind a balanced text. -/
def Passes (cs rest : List Char) : Prop :=
  ∃ taken, cs = taken ++ rest ∧ Balanced taken

/-- The second text is what is left of the first one behind a balanced text and an opening
parenthesis. -/
def OpensAt (cs body : List Char) : Prop :=
  Passes cs ('(' :: body)

theorem Passes.refl (cs : List Char) : Passes cs cs :=
  ⟨[], rfl, balanced_of_plain (by simp)⟩

theorem Passes.trans (hfirst : Passes cs mid) (hsecond : Passes mid rest) : Passes cs rest := by
  obtain ⟨taken, rfl, htaken⟩ := hfirst
  obtain ⟨more, rfl, hmore⟩ := hsecond
  exact ⟨taken ++ more, by simp, htaken.append hmore⟩

theorem Passes.opensAt (hpasses : Passes cs mid) (hopens : OpensAt mid body) : OpensAt cs body :=
  hpasses.trans hopens

/-- A group behind a balanced text is nested one level deeper than the text. -/
theorem OpensAt.nestsWithin {limit depth : ℕ} (hopens : OpensAt cs body)
    (hnests : nestsWithin limit depth cs = true) :
    depth < limit ∧ EquationPractice.nestsWithin limit (depth + 1) body = true := by
  obtain ⟨before, rfl, hbefore⟩ := hopens
  rw [hbefore, Bool.and_eq_true] at hnests
  simpa [EquationPractice.nestsWithin] using hnests.2

theorem OpensAt.length_lt (hopens : OpensAt cs body) : body.length < cs.length := by
  obtain ⟨before, rfl, -⟩ := hopens
  simp only [List.length_append, List.length_cons]
  omega

/-- A reader takes balanced texts. -/
def PassesOver (reader : Reader α) : Prop :=
  ∀ cs value rest, reader cs = .ok (value, rest) → Passes cs rest

theorem passes_skipGaps (cs : List Char) : Passes cs (skipGaps cs) := by
  obtain ⟨gaps, hgaps, hcs⟩ := exists_gaps (rfl : skipGaps cs = skipGaps cs)
  exact ⟨gaps, hcs, hgaps.balanced⟩

theorem passes_signs (cs : List Char) : Passes cs (signs cs).2 := by
  obtain ⟨run, hcs, hrun⟩ := signs_of_signs cs
  exact ⟨run, hcs, (hrun (.number 0)).balanced⟩

theorem Takes.passesOver {reader : Reader Expr} {layer : Layer} (htakes : Takes reader layer) :
    PassesOver reader := by
  intro cs e rest hread
  obtain ⟨taken, hcs, hderives⟩ := htakes cs e rest hread
  exact ⟨taken, hcs, hderives.balanced⟩

theorem passesOver_oneOf {allowed : List Char} (hplain : ∀ c ∈ allowed, c ≠ '(' ∧ c ≠ ')') :
    PassesOver (oneOf allowed) := by
  intro cs c rest hread
  obtain ⟨hskip, hmem⟩ := oneOf_eq_ok.mp hread
  have hgaps := passes_skipGaps cs
  rw [hskip] at hgaps
  exact hgaps.trans ⟨[c], rfl, balanced_of_plain (by simpa using hplain c hmem)⟩

theorem passes_many {item : Reader α} (hitem : PassesOver item) (cs : List Char) :
    Passes cs (many item cs).2 := by
  induction cs using many.induct item with
  | case1 cs stuck hread =>
      rw [many_stop hread]
      exact Passes.refl cs
  | case2 cs value rest hread hshorter values last hmany ih =>
      rw [many_cons hread hshorter]
      exact (hitem cs value rest hread).trans ih
  | case3 cs value rest hread hshorter =>
      rw [many_stall hread hshorter]
      exact Passes.refl cs

theorem passesOver_operation {operators : List Char} {operand : Reader Expr}
    (hplain : ∀ c ∈ operators, c ≠ '(' ∧ c ≠ ')') (hoperand : PassesOver operand) :
    PassesOver (operation operators operand) := by
  intro cs (operator, e) rest hread
  obtain ⟨after, hoperator, hafter⟩ := operation_eq_ok.mp hread
  exact (passesOver_oneOf hplain _ _ _ hoperator).trans (hoperand _ _ _ hafter)

/-- Every text that is listed stands behind a balanced text and an opening parenthesis. -/
def OpensIn (opened : List Char → List (List Char)) : Prop :=
  ∀ cs, ∀ body ∈ opened cs, OpensAt cs body

theorem opensIn_behind {reader : Reader α} {opened : α → List Char → List (List Char)}
    (hreader : PassesOver reader) (hopened : ∀ value, OpensIn (opened value)) :
    OpensIn (openedBehind reader opened) := by
  intro cs body hbody
  obtain ⟨value, rest, hread, hbody⟩ := mem_openedBehind.mp hbody
  exact (hreader cs value rest hread).opensAt (hopened value rest body hbody)

theorem opensIn_append {first second : List Char → List (List Char)} (hfirst : OpensIn first)
    (hsecond : OpensIn second) : OpensIn fun cs => first cs ++ second cs := by
  intro cs body hbody
  rcases List.mem_append.mp hbody with hbody | hbody
  · exact hfirst cs body hbody
  · exact hsecond cs body hbody

theorem opensIn_many {item : Reader α} {opened : List Char → List (List Char)}
    (hitem : PassesOver item) (hopened : OpensIn opened) : OpensIn (openedByMany item opened) := by
  intro cs
  induction hlength : cs.length using Nat.strong_induction_on generalizing cs with
  | _ length ih =>
      intro body hbody
      rw [openedByMany] at hbody
      rcases List.mem_append.mp hbody with hbody | hbody
      · exact hopened cs body hbody
      · split at hbody
        · exact absurd hbody List.not_mem_nil
        · next value rest hread =>
            split at hbody
            · next hshorter =>
                exact (hitem cs value rest hread).opensAt
                  (ih rest.length (hlength ▸ hshorter) rest rfl body hbody)
            · exact absurd hbody List.not_mem_nil

theorem opensIn_group : OpensIn openedByGroup := by
  intro cs body hbody
  unfold openedByGroup at hbody
  split at hbody
  · next hopen =>
      obtain rfl := List.mem_singleton.mp hbody
      have hgaps := passes_skipGaps cs
      rw [hopen] at hgaps
      exact hgaps
  · exact absurd hbody List.not_mem_nil

theorem opensIn_atom : OpensIn openedByAtom := by
  intro cs body hbody
  unfold openedByAtom at hbody
  split at hbody
  · exact absurd hbody List.not_mem_nil
  · split at hbody
    · exact absurd hbody List.not_mem_nil
    · exact opensIn_group cs body hbody

theorem opensIn_storey : OpensIn openedByStorey :=
  opensIn_behind (passesOver_oneOf (by simp)) fun _ cs body hbody =>
    (passes_signs cs).opensAt (opensIn_atom _ body hbody)

theorem opensIn_operation {operators : List Char} {opened : List Char → List (List Char)}
    (hplain : ∀ c ∈ operators, c ≠ '(' ∧ c ≠ ')') (hopened : OpensIn opened) :
    OpensIn (openedByOperation operators opened) :=
  opensIn_behind (passesOver_oneOf hplain) fun _ => hopened

variable (htakes : Takes inner .sum)
include htakes

theorem passesOver_storey : PassesOver (storey inner) := by
  intro cs (minus, operand) rest hread
  obtain ⟨after, hcaret, -, hatom⟩ := storey_eq_ok.mp hread
  exact (passesOver_oneOf (by simp) _ _ _ hcaret).trans
    ((passes_signs after).trans ((takes_atom htakes).passesOver _ _ _ hatom))

theorem opensIn_power : OpensIn (openedByPower inner) :=
  opensIn_append opensIn_atom (opensIn_behind (takes_atom htakes).passesOver fun _ =>
    opensIn_many (passesOver_storey htakes) opensIn_storey)

theorem opensIn_signed : OpensIn (openedBySigned inner) := fun cs body hbody =>
  (passes_signs cs).opensAt (opensIn_power htakes _ body hbody)

theorem opensIn_factors (acc : Expr) : OpensIn (openedByFactors inner acc) := by
  intro cs
  induction hlength : cs.length using Nat.strong_induction_on generalizing acc cs with
  | _ length ih =>
      intro body hbody
      rw [openedByFactors] at hbody
      split at hbody
      · rcases List.mem_append.mp hbody with hbody | hbody
        · exact opensIn_power htakes cs body hbody
        · split at hbody
          · exact absurd hbody List.not_mem_nil
          · next factor rest hread =>
              split at hbody
              · next hshorter =>
                  exact ((takes_power htakes).passesOver cs factor rest hread).opensAt
                    (ih rest.length (hlength ▸ hshorter) _ rest rfl body hbody)
              · exact absurd hbody List.not_mem_nil
      · exact absurd hbody List.not_mem_nil

theorem opensIn_term : OpensIn (openedByTerm inner) := by
  have hsigned := (takes_signed htakes).passesOver
  have hoperation : PassesOver (operation ['*', '/'] (signed inner)) :=
    passesOver_operation (by simp) hsigned
  refine opensIn_append (opensIn_signed htakes) (opensIn_behind hsigned fun first => ?_)
  refine opensIn_append (opensIn_many hoperation (opensIn_operation (by simp)
    (opensIn_signed htakes))) fun cs body hbody => ?_
  exact (passes_many hoperation cs).opensAt (opensIn_factors htakes _ _ body hbody)

/-- Every group that a sum opens stands behind a balanced text. -/
theorem opensIn_sum : OpensIn (openedBySum inner) := by
  have hterm := (takes_term htakes).passesOver
  exact opensIn_append (opensIn_term htakes) (opensIn_behind hterm fun _ =>
    opensIn_many (passesOver_operation (by simp) hterm) (opensIn_operation (by simp)
      (opensIn_term htakes)))

end EquationPractice
