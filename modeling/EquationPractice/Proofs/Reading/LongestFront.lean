import EquationPractice.Proofs.Reading.Consumption
import EquationPractice.Proofs.Reading.Relations
import Mathlib.Data.List.DropRight

/-!
# Where the reader stops

If a text is refused because something is left of it, what is left begins right behind the longest
front of the text that is accepted; and if the reader gets stuck, no front of the text is accepted.
So the errors of the reader tell the truth about the text, although it never goes back on a choice
that turned out well.

## Strategy

Take an accepted front.  In the whole text its last token may go on, which makes the front longer and
changes no other token (`Derives.exists_longer`).  Everything but the last operand of each layer is
followed by an operator, so the reader takes it exactly as it was derived.  The last operand may be
read beyond the end of the front, and the repetitions may go on from there, but none of them can stop
earlier (`Derives.readsPast`).  So the reader gets past the end of every accepted front, and what it
has taken when it stops is an accepted front itself.

## Main definitions

* `Layer.reader`: the reader of a layer.
* `ReadsPast`: a reader takes at least a given front of a text.
* `LongestAccepted`: the longest accepted front of a text.
-/

namespace EquationPractice

open Text

variable {levels : ℕ} {layer : Layer} {inner : Reader Expr}
  {cs ds gaps run next other rest : List Char} {e f x : Expr}

/-! ## Longer phrases -/

/-- In front of any text, a token becomes a maximal one when it is made as long as possible. -/
theorem exists_maximal (token : List Char → Prop) (htoken : token cs) (other : List Char) :
    ∃ more rest, other = more ++ rest ∧ Maximal token (cs ++ more) rest := by
  induction hlength : other.length using Nat.strong_induction_on generalizing cs other with
  | _ length ih =>
      by_cases hlonger : ∃ more rest, other = more ++ rest ∧ more ≠ [] ∧ token (cs ++ more)
      · obtain ⟨more, rest, rfl, hne, hmore⟩ := hlonger
        have hpos := List.length_pos_iff.mpr hne
        have hshorter : rest.length < length := by
          rw [← hlength, List.length_append]
          omega
        obtain ⟨others, last, rfl, hmaximal⟩ := ih _ hshorter hmore rest rfl
        exact ⟨more ++ others, last, by simp, by rwa [← List.append_assoc]⟩
      · refine ⟨[], other, rfl, by simpa using htoken, ?_⟩
        intro more rest hother hlong
        by_contra hne
        exact hlonger ⟨more, rest, hother, hne, by simpa using hlong⟩

/-- A run of signs may stand in front of any expression. -/
theorem Signs.exists_of_expr (hrun : Signs run e f) (g : Expr) : ∃ x, Signs run g x := by
  induction hrun with
  | none => exact ⟨g, .none⟩
  | plus hgaps _ ih =>
      obtain ⟨x, hx⟩ := ih
      exact ⟨x, .plus hgaps hx⟩
  | minus hgaps _ ih =>
      obtain ⟨x, hx⟩ := ih
      exact ⟨negate x, .minus hgaps hx⟩

/-- Whatever comes to stand behind a derived text, the text is still derived if its last token is made
as long as possible. -/
theorem Derives.exists_longer (hderives : Derives layer cs next e) (other : List Char) :
    ∃ more rest f, other = more ++ rest ∧ Derives layer (cs ++ more) rest f := by
  induction hderives with
  | literal hgaps hvalue _ =>
      obtain ⟨more, rest, rfl, hmaximal⟩ :=
        exists_maximal (fun token => ∃ value, IsLiteral token value) ⟨_, hvalue⟩ other
      obtain ⟨value, hlonger⟩ := hmaximal.isToken
      refine ⟨more, rest, .number value, rfl, ?_⟩
      rw [List.append_assoc]
      exact .literal hgaps hlonger hmaximal
  | @name gaps cs next hgaps hmaximal =>
      obtain ⟨more, rest, rfl, hlonger⟩ := exists_maximal IsName hmaximal.isToken other
      refine ⟨more, rest, .var (String.ofList (cs ++ more)), rfl, ?_⟩
      rw [List.append_assoc]
      exact .name hgaps hlonger
  | @group before body after next e hbefore hafter hbody _ =>
      refine ⟨[], other, e, rfl, ?_⟩
      rw [List.append_nil]
      exact .group hbefore hafter (hbody.behind (endsAlike_append_cons ..))
  | base _ ih =>
      obtain ⟨more, rest, f, hother, hlonger⟩ := ih
      exact ⟨more, rest, f, hother, .base hlonger⟩
  | @pow cs gaps run ds next e f x hgaps hbase hrun _ _ ihr =>
      obtain ⟨more, rest, g, hother, hlonger⟩ := ihr
      obtain ⟨y, hrun'⟩ := hrun.exists_of_expr g
      refine ⟨more, rest, .pow e y, hother, ?_⟩
      simpa using Derives.pow hgaps (hbase.behind (endsAlike_append_cons ..)) hrun' hlonger
  | signed hrun _ ih =>
      obtain ⟨more, rest, f, hother, hlonger⟩ := ih
      obtain ⟨x, hrun'⟩ := hrun.exists_of_expr f
      refine ⟨more, rest, x, hother, ?_⟩
      rw [List.append_assoc]
      exact .signed hrun' hlonger
  | operand _ ih =>
      obtain ⟨more, rest, f, hother, hlonger⟩ := ih
      exact ⟨more, rest, f, hother, .operand hlonger⟩
  | @mul cs gaps ds next e f hgaps hleft _ _ ihr =>
      obtain ⟨more, rest, g, hother, hlonger⟩ := ihr
      refine ⟨more, rest, .mul e g, hother, ?_⟩
      simpa using Derives.mul hgaps (hleft.behind (endsAlike_append_cons ..)) hlonger
  | @div cs gaps ds next e f hgaps hleft _ _ ihr =>
      obtain ⟨more, rest, g, hother, hlonger⟩ := ihr
      refine ⟨more, rest, .div e g, hother, ?_⟩
      simpa using Derives.div hgaps (hleft.behind (endsAlike_append_cons ..)) hlonger
  | product _ ih =>
      obtain ⟨more, rest, f, hother, hlonger⟩ := ih
      exact ⟨more, rest, f, hother, .product hlonger⟩
  | @factor cs ds next c e f hleft hends hstart _ _ ihr =>
      obtain ⟨more, rest, g, hother, hlonger⟩ := ihr
      refine ⟨more, rest, .mul e g, hother, ?_⟩
      rw [List.append_assoc]
      exact .factor (hleft.behind (endsAlike_append_cons [] ..)) hends hstart hlonger
  | summand _ ih =>
      obtain ⟨more, rest, f, hother, hlonger⟩ := ih
      exact ⟨more, rest, f, hother, .summand hlonger⟩
  | @add cs gaps ds next e f hgaps hleft _ _ ihr =>
      obtain ⟨more, rest, g, hother, hlonger⟩ := ihr
      refine ⟨more, rest, .add e g, hother, ?_⟩
      simpa using Derives.add hgaps (hleft.behind (endsAlike_append_cons ..)) hlonger
  | @sub cs gaps ds next e f hgaps hleft _ _ ihr =>
      obtain ⟨more, rest, g, hother, hlonger⟩ := ihr
      refine ⟨more, rest, .sub e g, hother, ?_⟩
      simpa using Derives.sub hgaps (hleft.behind (endsAlike_append_cons ..)) hlonger

/-! ## How far the layers get -/

/-- The reader of a layer. -/
def Layer.reader (inner : Reader Expr) : Layer → Reader Expr
  | .sum => EquationPractice.sum inner
  | .term => EquationPractice.term inner
  | .product => EquationPractice.product inner
  | .signed => EquationPractice.signed inner
  | .power => EquationPractice.power inner
  | .atom => EquationPractice.atom inner

/-- Of the two texts in a row, the reader takes at least the first one. -/
def ReadsPast (reader : Reader Expr) (cs next : List Char) : Prop :=
  ∃ e rest, reader (cs ++ next) = .ok (e, rest) ∧ rest.length ≤ next.length

theorem readsPast_base (hatom : ReadAs inner .atom cs next e) :
    ReadsPast (power inner) cs next :=
  ⟨_, _, power_eq_ok.mpr ⟨e, next, hatom, rfl, rfl⟩, length_many_le _ next⟩

theorem readsPast_pow (hinner : Consumes inner) (hgaps : Gaps gaps)
    (hbase : ReadAs inner .atom cs (gaps ++ '^' :: (run ++ (ds ++ next))) e) (hrun : Signs run f x)
    (hunsigned : Unsigned (ds ++ next)) (hexponent : ReadsPast (power inner) ds next) :
    ReadsPast (power inner) (cs ++ (gaps ++ '^' :: (run ++ ds))) next := by
  obtain ⟨g, rest, hpower, hlength⟩ := hexponent
  obtain ⟨operand, mid, hatom, -, rfl⟩ := power_eq_ok.mp hpower
  obtain ⟨minus, hsigns, -⟩ := hrun.signs_append hunsigned
  have hcaret : oneOf ['^'] (gaps ++ '^' :: (run ++ (ds ++ next))) =
      .ok ('^', run ++ (ds ++ next)) :=
    oneOf_eq_ok.mpr ⟨hgaps.skipGaps_cons (by decide), by simp⟩
  have hstorey : storey inner (gaps ++ '^' :: (run ++ (ds ++ next))) =
      .ok ((minus, operand), mid) := by
    simp only [storey, hcaret, hsigns, hatom]
  have hshorter : mid.length < (gaps ++ '^' :: (run ++ (ds ++ next))).length := by
    have hmid := (consumes_atom hinner _ _ _ hatom).length_le
    simp only [List.length_append, List.length_cons] at hmid ⊢
    omega
  have htext : cs ++ (gaps ++ '^' :: (run ++ ds)) ++ next =
      cs ++ (gaps ++ '^' :: (run ++ (ds ++ next))) := by simp
  unfold ReadsPast
  rw [htext]
  refine ⟨_, _, power_eq_ok.mpr ⟨e, _, hbase, rfl, rfl⟩, ?_⟩
  rw [many_cons hstorey hshorter]
  exact hlength

theorem readsPast_signed (hrun : Signs run e f) (hunsigned : Unsigned (cs ++ next))
    (hpower : ReadsPast (power inner) cs next) :
    ReadsPast (signed inner) (run ++ cs) next := by
  obtain ⟨g, rest, hread, hlength⟩ := hpower
  obtain ⟨minus, hsigns, -⟩ := hrun.signs_append hunsigned
  refine ⟨applySigns minus g, rest, ?_, hlength⟩
  rw [List.append_assoc]
  exact signed_eq_ok.mpr ⟨g, by rw [hsigns]; exact hread, by rw [hsigns]⟩

theorem readsPast_operand (hsigned : ReadsPast (signed inner) cs next) :
    ReadsPast (product inner) cs next := by
  obtain ⟨g, rest, hread, hlength⟩ := hsigned
  exact ⟨_, _, product_eq_ok.mpr ⟨g, rest, hread, rfl, rfl⟩, (length_many_le _ rest).trans hlength⟩

/-- If a chain of operations goes on with an operator, and its operand is read past the end, so is the
chain. -/
theorem readsPast_operation {operand : Reader Expr} {operators : List Char} {operator : Char}
    {first : Expr} {operations : List (Char × Expr)} (hgaps : Gaps gaps)
    (hmem : operator ∈ operators) (hgap : isGap operator = false)
    (hopens : OpensBefore operand (operation operators operand) cs
      (gaps ++ operator :: (ds ++ next)) first operations)
    (hright : ReadsPast operand ds next) :
    ∃ mid, operand (cs ++ (gaps ++ operator :: ds) ++ next) = .ok (first, mid) ∧
      (many (operation operators operand) mid).2.length ≤ next.length := by
  obtain ⟨g, rest, hoperand, hlength⟩ := hright
  have hshorter : rest.length ≤ (ds ++ next).length := by
    rw [List.length_append]
    omega
  obtain ⟨mid, hhead, hmany⟩ := hopens.many_operation hgaps hmem hgap hoperand hshorter
  refine ⟨mid, by simpa using hhead, ?_⟩
  rw [hmany]
  exact (length_many_le _ rest).trans hlength

theorem readsPast_product {operator : Char} (hmem : operator ∈ ['*', '/'])
    (hgaps : Gaps gaps) (hleft : ReadAs inner .product cs (gaps ++ operator :: (ds ++ next)) e)
    (hright : ReadsPast (signed inner) ds next) :
    ReadsPast (product inner) (cs ++ (gaps ++ operator :: ds)) next := by
  obtain ⟨hgap, hnot⟩ := plain_of_mem_operations hmem
  obtain ⟨first, operations, hopens, -⟩ := hleft (hgaps.noneAhead hgap hnot)
  obtain ⟨mid, hfirst, hlength⟩ := readsPast_operation hgaps hmem hgap hopens hright
  exact ⟨_, _, product_eq_ok.mpr ⟨first, mid, hfirst, rfl, rfl⟩, hlength⟩

theorem readsPast_term (hproduct : ReadsPast (product inner) cs next) :
    ReadsPast (term inner) cs next := by
  obtain ⟨g, rest, hread, hlength⟩ := hproduct
  refine ⟨_, _, by rw [term_eq_product, hread]; rfl, ?_⟩
  exact (length_implicitFactors_le inner g rest).trans hlength

theorem readsPast_factor {c : Char} (hleft : ReadAs inner .term cs (c :: (ds ++ next)) e)
    (hends : EndsInNumber e) (hstart : startsName c = true ∨ c = '(')
    (hfactor : ReadsPast (power inner) (c :: ds) next) :
    ReadsPast (term inner) (cs ++ c :: ds) next := by
  obtain ⟨g, rest, hpower, hlength⟩ := hfactor
  have hstarts : startsFactor (c :: (ds ++ next)) = true := by simpa [startsFactor] using hstart
  have hshorter : rest.length < (c :: (ds ++ next)).length := by
    simp only [List.length_append, List.length_cons]
    omega
  have hread := hleft (noneAhead_factor hstart)
  rw [implicitFactors_cons hstarts (takesFactor_iff.mpr hends) hpower hshorter] at hread
  refine ⟨_, _, by simpa using hread, ?_⟩
  exact (length_implicitFactors_le inner _ rest).trans hlength

theorem readsPast_summand (hterm : ReadsPast (term inner) cs next) :
    ReadsPast (sum inner) cs next := by
  obtain ⟨g, rest, hread, hlength⟩ := hterm
  exact ⟨_, _, sum_eq_ok.mpr ⟨g, rest, hread, rfl, rfl⟩, (length_many_le _ rest).trans hlength⟩

theorem readsPast_sum {operator : Char} (hmem : operator ∈ ['+', '-']) (hgaps : Gaps gaps)
    (hleft : ReadAs inner .sum cs (gaps ++ operator :: (ds ++ next)) e)
    (hright : ReadsPast (term inner) ds next) :
    ReadsPast (sum inner) (cs ++ (gaps ++ operator :: ds)) next := by
  obtain ⟨hgap, hnot, hstart⟩ := plain_of_mem_signs hmem
  obtain ⟨first, operations, hopens, -⟩ :=
    hleft (hgaps.noneAhead hgap hnot) (hgaps.not_startsFactor hstart)
  obtain ⟨mid, hfirst, hlength⟩ := readsPast_operation hgaps hmem hgap hopens hright
  exact ⟨_, _, sum_eq_ok.mpr ⟨first, mid, hfirst, rfl, rfl⟩, hlength⟩

/-- No layer stops within a text that is derived from it. -/
theorem Derives.readsPast (hderives : Derives layer cs next e) (hlevels : cs.length ≤ levels) :
    ReadsPast (layer.reader (expression levels)) cs next := by
  have hinner : Consumes (expression levels) := consumes_expression levels
  induction hderives with
  | literal hgaps hvalue hmaximal => exact ⟨_, _, readAs_literal hgaps hvalue hmaximal, le_rfl⟩
  | name hgaps hmaximal => exact ⟨_, _, readAs_name hgaps hmaximal, le_rfl⟩
  | group hbefore hafter hbody _ =>
      exact ⟨_, _, (Derives.group hbefore hafter hbody).readAs hlevels, le_rfl⟩
  | base hatom _ => exact readsPast_base (hatom.readAs hlevels)
  | pow hgaps hbase hrun hexponent _ ihr =>
      simp only [List.length_append, List.length_cons] at hlevels
      exact readsPast_pow hinner hgaps (hbase.readAs (by omega)) hrun hexponent.unsigned_power
        (ihr (by omega))
  | signed hrun hpower ih =>
      simp only [List.length_append] at hlevels
      exact readsPast_signed hrun hpower.unsigned_power (ih (by omega))
  | operand _ ih => exact readsPast_operand (ih hlevels)
  | mul hgaps hleft _ _ ihr =>
      simp only [List.length_append, List.length_cons] at hlevels
      exact readsPast_product (by simp) hgaps (hleft.readAs (by omega)) (ihr (by omega))
  | div hgaps hleft _ _ ihr =>
      simp only [List.length_append, List.length_cons] at hlevels
      exact readsPast_product (by simp) hgaps (hleft.readAs (by omega)) (ihr (by omega))
  | product _ ih => exact readsPast_term (ih hlevels)
  | factor hleft hends hstart _ _ ihr =>
      simp only [List.length_append, List.length_cons] at hlevels
      exact readsPast_factor (hleft.readAs (by omega)) hends hstart
        (ihr (by simp only [List.length_cons]; omega))
  | summand _ ih => exact readsPast_summand (ih hlevels)
  | add hgaps hleft _ _ ihr =>
      simp only [List.length_append, List.length_cons] at hlevels
      exact readsPast_sum (by simp) hgaps (hleft.readAs (by omega)) (ihr (by omega))
  | sub hgaps hleft _ _ ihr =>
      simp only [List.length_append, List.length_cons] at hlevels
      exact readsPast_sum (by simp) hgaps (hleft.readAs (by omega)) (ihr (by omega))

/-! ## Accepted fronts -/

/-- The reader gets past the end of every accepted front of a text, blanks at its end aside. -/
theorem readExpr_past {front : List Char} (behind : List Char) (hfront : parseChars front = .ok e) :
    ∃ f rest taken blanks, readExpr (front ++ behind) = .ok (f, rest) ∧ front = taken ++ blanks ∧
      (∀ c ∈ blanks, isBlank c = true) ∧ rest.length ≤ (blanks ++ behind).length := by
  obtain ⟨taken, blanks, rfl, hblanks, hderives⟩ := exists_derives_of_parseChars hfront
  obtain ⟨more, last, g, hother, hlonger⟩ := hderives.exists_longer (blanks ++ behind)
  have htext : taken ++ blanks ++ behind = (taken ++ more) ++ last := by
    rw [List.append_assoc, List.append_assoc, hother]
  have hlevels : (taken ++ more).length ≤ (taken ++ blanks ++ behind).length := by
    rw [htext]
    simp
  obtain ⟨f, rest, hread, hlength⟩ := hlonger.readsPast hlevels
  refine ⟨f, rest, taken, blanks, ?_, rfl, hblanks, ?_⟩
  · rw [← htext] at hread
    exact hread
  · rw [hother, List.length_append]
    omega

/-- What the reader takes off a text is accepted, with any blanks that follow it. -/
theorem parseChars_taken {blanks behind : List Char} (hcheck : checkText cs = .ok ())
    (hread : readExpr cs = .ok (e, blanks ++ behind)) (hblanks : ∀ c ∈ blanks, isBlank c = true) :
    ∃ taken, cs = taken ++ (blanks ++ behind) ∧ parseChars (taken ++ blanks) = .ok e := by
  obtain ⟨taken, rfl, hderives⟩ := takes_readExpr _ _ _ hread
  refine ⟨taken, rfl, ?_⟩
  obtain ⟨-, hlength, hnests⟩ := checkText_eq_ok.mp hcheck
  have hbalanced : Balanced (taken ++ blanks) :=
    hderives.balanced.append (balanced_of_blanks hblanks)
  rw [← List.append_assoc, hbalanced, Bool.and_eq_true] at hnests
  have htoken : HeadFree isTokenChar blanks := headFree_isTokenChar_of_blanks hblanks
  refine parseChars_of_derives (hderives.behind (Or.inr htoken)) hblanks ?_ hnests.1
  simp only [List.length_append] at hlength ⊢
  omega

/-- What the reader takes off a text and the blanks behind it are the longest accepted front. -/
theorem longest_of_readExpr (hcheck : checkText cs = .ok ()) (hread : readExpr cs = .ok (e, rest)) :
    ∃ front, cs = front ++ rest.dropWhile isBlank ∧ parseChars front = .ok e ∧
      ∀ shorter others f, cs = shorter ++ others → parseChars shorter = .ok f →
        shorter.length ≤ front.length := by
  have hsplit : rest = rest.takeWhile isBlank ++ rest.dropWhile isBlank :=
    List.takeWhile_append_dropWhile.symm
  obtain ⟨taken, htext, hfront⟩ := parseChars_taken hcheck (hsplit ▸ hread)
    (fun c hc => List.mem_takeWhile_imp hc)
  refine ⟨taken ++ rest.takeWhile isBlank, by rw [htext, List.append_assoc], hfront, ?_⟩
  intro shorter others f hshorter haccepted
  obtain ⟨g, rest', taken', blanks, hpast, rfl, hblanks, hlength⟩ :=
    readExpr_past others haccepted
  rw [← hshorter, hread, Except.ok.injEq, Prod.mk.injEq] at hpast
  obtain ⟨-, rfl⟩ := hpast
  rw [htext, List.append_assoc] at hshorter
  -- the reader got past what was taken of the shorter front, and what follows there are blanks
  obtain ⟨more, rfl, hbehind⟩ : ∃ more, taken = taken' ++ more ∧ blanks ++ others = more ++ rest := by
    rcases List.append_eq_append_iff.mp hshorter with ⟨more, rfl, hrest⟩ | hmore
    · rw [← hsplit] at hrest
      obtain rfl : more = [] := by
        rw [hrest, List.length_append] at hlength
        exact List.length_eq_zero_iff.mp (by omega)
      exact ⟨[], by simp, hrest.symm⟩
    · rwa [← hsplit] at hmore
  rcases List.append_eq_append_iff.mp hbehind with ⟨tail, rfl, -⟩ | ⟨tail, rfl, hrest⟩
  · simp only [List.length_append]
    omega
  · have htail : ∀ c ∈ tail, isBlank c = true := fun c hc => hblanks c (List.mem_append_right _ hc)
    rw [hrest, List.takeWhile_append_of_pos htail]
    simp only [List.length_append]
    omega

/-! ## What is reported -/

theorem trim_dropWhile (cs : List Char) : trim (cs.dropWhile isBlank) = trim cs := by
  rw [trim, List.dropWhile_idempotent, trim]

/-- Only of blanks nothing is left when they are trimmed. -/
theorem trim_ne_nil (hplain : ¬cs.all isBlank = true) : trim cs ≠ [] := by
  intro htrim
  rw [trim, trimEnd, List.reverse_eq_nil_iff, List.dropWhile_eq_nil_iff] at htrim
  have hfree := headFree_dropWhile isBlank cs
  cases hdrop : cs.dropWhile isBlank with
  | nil => exact hplain (List.all_eq_true.mpr (List.dropWhile_eq_nil_iff.mp hdrop))
  | cons c tail =>
      rw [hdrop, headFree_cons] at hfree
      have hc := htrim c (by simp [hdrop])
      exact absurd hc (by simp [hfree])

/-- A text that is read as an expression. -/
def Accepted (text : String) : Prop :=
  ∃ e, parse text = .ok e

/-- Of the two parts of a text, the first one is accepted, and no longer front of the text is. -/
structure LongestAccepted (text front behind : String) : Prop where
  text_eq : text = front ++ behind
  accepted : Accepted front
  longest : ∀ other rest, text = other ++ rest → Accepted other → other.length ≤ front.length

theorem LongestAccepted.of_readExpr {text : String} (hcheck : checkText text.toList = .ok ())
    (hread : readExpr text.toList = .ok (e, rest)) :
    ∃ front behind, LongestAccepted text front behind ∧ trim rest = trim behind.toList := by
  obtain ⟨front, htext, hfront, hlongest⟩ := longest_of_readExpr hcheck hread
  refine ⟨String.ofList front, String.ofList (rest.dropWhile isBlank), ⟨?_, ?_, ?_⟩, ?_⟩
  · rw [← String.toList_inj, String.toList_append, String.toList_ofList, String.toList_ofList]
    exact htext
  · exact ⟨e, by rwa [parse, String.toList_ofList]⟩
  · intro other behind hother haccepted
    obtain ⟨f, hf⟩ := haccepted
    rw [String.length_ofList, ← String.length_toList]
    exact hlongest other.toList behind.toList f (by rw [hother, String.toList_append]) hf
  · rw [String.toList_ofList, trim_dropWhile]

/-- The reader gets past the end of every accepted front, so it does not get stuck. -/
theorem readExpr_of_accepted {front : String} (behind : String) (hfront : Accepted front) :
    ∃ e rest, readExpr (front ++ behind).toList = .ok (e, rest) := by
  obtain ⟨e, he⟩ := hfront
  obtain ⟨f, rest, -, -, hread, -⟩ := readExpr_past behind.toList he
  exact ⟨f, rest, by rwa [String.toList_append]⟩

section Reports

variable {text : String} (hcheck : checkText text.toList = .ok ())

include hcheck

/-- What becomes of a text that is let in. -/
theorem parse_cases : (∃ stuck, readExpr text.toList = .error stuck ∧
      parse text = .error (.stuck stuck.rest)) ∨
    ∃ e rest, readExpr text.toList = .ok (e, rest) ∧
      (rest.all isBlank = true ∧ parse text = .ok e ∨
        rest.all isBlank = false ∧ parse text = .error (.unread (trim rest))) := by
  unfold parse parseChars parseBy
  rw [hcheck]
  cases readExpr text.toList with
  | error stuck => simp
  | ok result =>
      obtain ⟨e, rest⟩ := result
      refine Or.inr ⟨e, rest, rfl, ?_⟩
      cases hblank : rest.all isBlank with
      | true => exact Or.inl ⟨rfl, by simp only [hblank, if_true]⟩
      | false => exact Or.inr ⟨rfl, by simp only [hblank, Bool.false_eq_true, if_false]⟩

/-- The reader gets stuck where no front of the text is accepted. -/
theorem parse_stuck_iff : (∃ rest, parse text = .error (.stuck rest)) ↔
    ∀ front behind, text = front ++ behind → ¬Accepted front := by
  constructor
  · rintro ⟨rest, hparse⟩ front behind rfl hfront
    obtain ⟨e, last, hread⟩ := readExpr_of_accepted behind hfront
    rcases parse_cases hcheck with ⟨stuck, hstuck, -⟩ | ⟨f, last', -, ⟨-, hok⟩ | ⟨-, hunread⟩⟩
    · exact absurd (hread.symm.trans hstuck) (by simp)
    · exact absurd (hparse.symm.trans hok) (by simp)
    · exact absurd (hparse.symm.trans hunread) (by simp)
  · intro hnone
    rcases parse_cases hcheck with ⟨stuck, -, hparse⟩ | ⟨e, rest, hread, -⟩
    · exact ⟨stuck.rest, hparse⟩
    · -- what was read is an accepted front
      obtain ⟨front, behind, hlongest, -⟩ := LongestAccepted.of_readExpr hcheck hread
      exact absurd hlongest.accepted (hnone front behind hlongest.text_eq)

/-- What is reported to be left follows the longest accepted front. -/
theorem longest_of_unread (hunread : parse text = .error (.unread rest)) : rest ≠ [] ∧
    ∃ front behind, LongestAccepted text front behind ∧ rest = trim behind.toList := by
  rcases parse_cases hcheck with ⟨stuck, -, hparse⟩ | ⟨e, last, hread, ⟨-, hparse⟩ | ⟨hblank, hparse⟩⟩
  · exact absurd (hunread.symm.trans hparse) (by simp)
  · exact absurd (hunread.symm.trans hparse) (by simp)
  · obtain rfl : rest = trim last := by simpa using hunread.symm.trans hparse
    exact ⟨trim_ne_nil (by simp [hblank]), LongestAccepted.of_readExpr hcheck hread⟩

end Reports

/-- **What is reported is what follows the longest accepted front.**  Take any text that is neither
blank nor too long nor nested too deeply.  The reader gets stuck if and only if no front of the text is
accepted.  It reports that something is left if and only if a front of the text is accepted, but not
the text itself, and then it reports what follows the longest accepted front, trimmed. -/
theorem parse_error_iff (text : String) (hcheck : checkText text.toList = .ok ()) :
    ((∃ rest, parse text = .error (.stuck rest)) ↔
      ∀ front behind, text = front ++ behind → ¬Accepted front) ∧
    ((∃ rest, rest ≠ [] ∧ parse text = .error (.unread rest)) ↔
      (∃ front behind, text = front ++ behind ∧ Accepted front) ∧ ¬Accepted text) ∧
    ∀ rest, parse text = .error (.unread rest) → rest ≠ [] ∧
      ∃ front behind, LongestAccepted text front behind ∧ rest = trim behind.toList := by
  refine ⟨parse_stuck_iff hcheck, ⟨?_, ?_⟩, fun rest => longest_of_unread hcheck⟩
  · rintro ⟨rest, -, hunread⟩
    obtain ⟨-, front, behind, hlongest, -⟩ := longest_of_unread hcheck hunread
    refine ⟨⟨front, behind, hlongest.text_eq, hlongest.accepted⟩, ?_⟩
    rintro ⟨e, hok⟩
    exact absurd (hunread.symm.trans hok) (by simp)
  · rintro ⟨⟨front, behind, htext, hfront⟩, hrefused⟩
    rcases parse_cases hcheck with ⟨stuck, -, hparse⟩ | ⟨e, rest, -, ⟨-, hparse⟩ | ⟨-, hparse⟩⟩
    · exact absurd hfront ((parse_stuck_iff hcheck).mp ⟨_, hparse⟩ front behind htext)
    · exact absurd ⟨e, hparse⟩ hrefused
    · exact ⟨trim rest, (longest_of_unread hcheck hparse).1, hparse⟩

/-- The group of `2x ^(y * 3` is not closed, and the reader goes back to the `x`. -/
theorem parse_error_iff_open_group :
    checkText "2x ^(y * 3".toList = .ok () ∧
    parse "2x ^(y * 3" = .error (.unread "^(y * 3".toList) ∧
    "^(y * 3".toList ≠ [] ∧
    ∃ front behind, LongestAccepted "2x ^(y * 3" front behind ∧
      "^(y * 3".toList = trim behind.toList := by
  have hcheck : checkText "2x ^(y * 3".toList = .ok () := by decide +kernel
  have hparse : parse "2x ^(y * 3" = .error (.unread "^(y * 3".toList) := by decide +kernel
  obtain ⟨-, -, hreported⟩ := parse_error_iff "2x ^(y * 3" hcheck
  exact ⟨hcheck, hparse, hreported _ hparse⟩

end EquationPractice
