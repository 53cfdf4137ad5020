import EquationPractice.Proofs.Printing.Reread
import EquationPractice.Proofs.Reading.LongestFront
import EquationPractice.Proofs.Reading.Positions

/-!
# Stars that may be dropped

Between a number and a name or a group the star of a product may be dropped, and the text is read as
before, but not everywhere.  Behind a star any number of operands follow, while an operand that
follows at once ends all operations of its product: `2*x*3` is read and `2x*3` is not.  And a power
behind a minus sign, as in `-2^2*x`, is not taken for something that ends in a number.  Where neither
is the case, the text without the star is read as the same expression; where one of them is, it is
refused.

## Strategy

The star belongs to a term of the sum that begins with the text or behind the last parenthesis that
is open (`Derives.starIn`).  What stands in front of this term and the product in front of the star
are read in the same way with or without the star.  Then the factor is read, by the same reader in
both texts, and from there on everything is the same if no operation follows (`sum_dropStar`).
Otherwise the reader stops at the factor or behind it, where no expression may end (`sum_stops`).
Outside the sum nothing changes, since any other text that is read as the same sum may stand in its
place (`Derives.enclosed_sum`).

## Main definitions

* `EndsInLiteral`: a number stands at the end of a text.
* `ProductInFront`: the product in front of a star.
* `FactorBehind`: what follows the factor behind a star.
-/

namespace EquationPractice

open Text

variable {levels : ℕ} {inner : Reader Expr}
  {cs gaps front behind next other outer operands terms text taken blanks rest : List Char}
  {e f l r : Expr}

/-! ## Numbers at the end of a text -/

/-- A decimal literal ends at the end of the text. -/
def EndsInLiteral (cs : List Char) : Prop :=
  ∃ front token q, cs = front ++ token ∧ IsLiteral token q ∧ HeadFree isTokenChar front.reverse

/-- No gap stands behind the number. -/
theorem EndsInLiteral.gaps_eq_nil (hnumber : EndsInLiteral (cs ++ gaps)) (hgaps : Gaps gaps) :
    gaps = [] := by
  obtain ⟨front, token, q, htext, hvalue, -⟩ := hnumber
  by_contra hne
  obtain ⟨init, c, rfl⟩ := (List.eq_nil_or_concat' gaps).resolve_left hne
  obtain ⟨digits, d, rfl⟩ := (List.eq_nil_or_concat' token).resolve_left hvalue.ne_nil
  have hlast : c = d := by simpa using congrArg List.getLast? htext
  have hblank := isBlank_of_isGap (hgaps c (by simp))
  have htoken := not_isBlank_of_isTokenChar (hvalue.isTokenChar d (by simp))
  exact absurd hblank (by simp [hlast, htoken])

/-- The text does not end in a name. -/
theorem EndsInLiteral.not_isName {token : List Char} (hnumber : EndsInLiteral (front ++ token)) :
    ¬IsName token := by
  intro hname
  obtain ⟨before, literal, q, htext, hvalue, hbefore⟩ := hnumber
  -- the name is a part of the literal
  obtain ⟨more, rfl⟩ : ∃ more, literal = more ++ token := by
    rcases List.append_eq_append_iff.mp htext with ⟨more, rfl, rfl⟩ | ⟨more, rfl, rfl⟩
    · rcases List.eq_nil_or_concat' more with rfl | ⟨init, c, rfl⟩
      · exact ⟨[], rfl⟩
      · have hc : isTokenChar c = false := by simpa using hbefore
        have htoken := hname.isTokenChar c (by simp)
        exact absurd htoken (by simp [hc])
    · exact ⟨more, rfl⟩
  cases token with
  | nil => exact hname
  | cons c tail =>
      rcases hvalue.digit_or_point c (by simp) with hdigit | rfl
      · exact absurd hdigit (by simp [not_isDigit_of_startsName hname.1])
      · exact absurd hname.1 (by decide)

theorem exists_of_startsFactor (hstart : startsFactor cs = true) :
    ∃ c tail, cs = c :: tail ∧ (startsName c = true ∨ c = '(') := by
  cases cs with
  | nil => exact absurd hstart Bool.false_ne_true
  | cons c tail => exact ⟨c, tail, rfl, by simpa [startsFactor] using hstart⟩

/-- The number ends in front of a factor, whatever else may stand there. -/
theorem EndsInLiteral.tokensEnd (hnumber : EndsInLiteral cs) (hstart : startsFactor other = true) :
    TokensEnd cs next other where
  literal _ hmaximal := by
    refine Maximal.of_headFree (p := fun c => c.isDigit || c == '.') hmaximal.isToken ?_ ?_
    · obtain ⟨c, tail, rfl, hc⟩ := exists_of_startsFactor hstart
      rw [headFree_cons, Bool.or_eq_false_iff, beq_eq_false_iff_ne]
      rcases hc with hname | rfl
      · refine ⟨not_isDigit_of_startsName hname, ?_⟩
        rintro rfl
        exact absurd hname (by decide)
      · decide
    · rintro c more ⟨value, hlong⟩
      simpa using hlong.digit_or_point c (by simp)
  name htext hmaximal := by
    subst htext
    exact absurd hmaximal.isToken hnumber.not_isName

/-! ## Around a star -/

/-- The first text ends in a product, which begins a term of the whole text or of the text behind the
last parenthesis that is open; the other text follows behind a star. -/
def ProductInFront (front behind : List Char) (l : Expr) : Prop :=
  ∃ outer terms operands, front = outer ++ (terms ++ operands) ∧
    (outer = [] ∨ ∃ before, outer = before ++ ['(']) ∧ OpensTerm terms ∧
      Derives .product operands ('*' :: behind) l

/-- The text begins with a power, and `rest` follows. -/
def FactorBehind (behind rest : List Char) : Prop :=
  ∃ factor r, behind = factor ++ rest ∧ Derives .power factor rest r ∧ NoneAhead towerOperators rest

/-- A star behind a number stands behind a product. -/
theorem exists_productInFront (hnumber : EndsInLiteral front)
    (hstar : StarIn .sum front behind) : ∃ l, ProductInFront front behind l := by
  have hproduct : ∀ outer terms operands, front = outer ++ (terms ++ operands) →
      (outer = [] ∨ ∃ before, outer = before ++ ['(']) → OpensTerm terms →
      StarInProduct operands behind → ∃ l, ProductInFront front behind l := by
    rintro outer terms operands rfl houter hterms ⟨cs, gaps, l, rfl, hgaps, hderives⟩
    have hnumber' : EndsInLiteral ((outer ++ (terms ++ cs)) ++ gaps) := by simpa using hnumber
    obtain rfl := hnumber'.gaps_eq_nil hgaps
    rw [List.append_nil] at hnumber ⊢
    exact ⟨l, outer, terms, cs, rfl, houter, hterms, hderives⟩
  rcases hstar with ⟨terms, operands, rfl, hterms, hstar⟩ |
    ⟨outer, inside, rfl, terms, operands, rfl, hterms, hstar⟩
  · exact hproduct [] terms operands rfl (Or.inl rfl) hterms hstar
  · exact hproduct (outer ++ ['(']) terms operands (by simp) (Or.inr ⟨outer, rfl⟩) hterms hstar

/-! ## Reading with and without the star -/

/-- Where one of some operators comes next, none of the others does. -/
theorem noneAhead_of_ahead {operators others : List Char} (hahead : ¬NoneAhead operators rest)
    (hdisjoint : ∀ c ∈ operators, c ∉ others) : NoneAhead others rest := by
  intro c hc
  refine decide_eq_false fun hother => hahead fun d hd => ?_
  obtain rfl := Option.mem_unique hd hc
  exact decide_eq_false fun hmem => hdisjoint d hmem hother

theorem not_startsFactor_of_ahead (hahead : ¬NoneAhead productOperators rest) :
    startsFactor rest = false := by
  rw [Bool.eq_false_iff]
  intro hstart
  obtain ⟨c, tail, rfl, hc⟩ := exists_of_startsFactor hstart
  exact hahead (noneAhead_factor hc)

theorem unsigned_of_startsFactor (hstart : startsFactor cs = true) : Unsigned cs := by
  obtain ⟨c, tail, rfl, hname | rfl⟩ := exists_of_startsFactor hstart
  · exact unsigned_of_continuesName (continuesName_of_startsName hname)
  · exact gaps_nil.noneAhead (by decide) (by decide)

section Reading

variable {close : List Char} {g t : Expr} {stuck : Mismatch}

/-- Behind the terms in front of it, a term is read as if it began the sum. -/
theorem OpensTerm.sum (hterms : OpensTerm terms) (hlevels : terms.length ≤ levels) :
    ∃ extend : Expr → Expr, ∀ {cs t rest}, term (expression levels) cs = .ok (t, rest) →
      EquationPractice.sum (expression levels) (terms ++ cs) =
        .ok ((many (operation ['+', '-'] (term (expression levels))) rest).1.foldl extendSum
            (extend t),
          (many (operation ['+', '-'] (term (expression levels))) rest).2) := by
  cases hterms with
  | first => exact ⟨id, fun hterm => sum_eq_ok.mpr ⟨_, _, hterm, rfl, rfl⟩⟩
  | @sign terms gaps next operator e hgaps hmem hterms =>
      refine ⟨fun t => extendSum e (operator, t), fun {cs t rest} hterm => ?_⟩
      obtain ⟨hgap, hnot, hstart⟩ := plain_of_mem_signs hmem
      have hderives : Derives .sum terms (gaps ++ operator :: cs) e :=
        hterms.behind (endsAlike_append_cons ..)
      have hfewer : terms.length ≤ levels := by
        rw [List.length_append] at hlevels
        omega
      obtain ⟨first, operations, hopens, rfl⟩ :=
        hderives.readAs hfewer (hgaps.noneAhead hgap hnot) (hgaps.not_startsFactor hstart)
      have hconsumes := consumes_term (consumes_expression levels)
      obtain ⟨mid, hfirst, hmany⟩ :=
        hopens.many_operation hgaps hmem hgap hterm (hconsumes _ _ _ hterm).length_le
      have htext : terms ++ (gaps ++ [operator]) ++ cs = terms ++ (gaps ++ operator :: cs) := by simp
      rw [htext]
      refine sum_eq_ok.mpr ⟨first, mid, hfirst, ?_, by rw [hmany]⟩
      rw [hmany, foldSum, List.foldl_append]
      rfl

/-- The sum ends behind a term that no sign follows. -/
theorem OpensTerm.sum_ends (hterms : OpensTerm terms) (hlevels : terms.length ≤ levels)
    (hterm : term (expression levels) cs = .ok (t, rest)) (hnone : NoneAhead ['+', '-'] rest) :
    ∃ g, EquationPractice.sum (expression levels) (terms ++ cs) = .ok (g, rest) := by
  obtain ⟨extend, hsum⟩ := hterms.sum hlevels
  refine ⟨extend t, ?_⟩
  rw [hsum hterm, many_stop (operation_stuck hnone)]
  rfl

theorem length_lt_of_power (hpower : power (expression levels) behind = .ok (r, rest)) :
    rest.length < behind.length := by
  obtain ⟨factor, rfl, hfactor⟩ := takes_power (takes_expression levels) _ _ _ hpower
  obtain ⟨c, hc, -⟩ := hfactor.exists_not_isBlank
  have hpos := List.length_pos_of_mem hc
  rw [List.length_append]
  omega

/-- Behind a product, a star and a power are read as one more operation. -/
theorem term_star (hinner : Consumes inner)
    (hleft : ReadAs inner .product operands ('*' :: behind) l) (hstart : startsFactor behind = true)
    (hpower : power inner behind = .ok (r, rest)) :
    term inner (operands ++ '*' :: behind) = .ok (implicitFactors inner
      ((many (operation ['*', '/'] (signed inner)) rest).1.foldl extendProduct (.mul l r))
      (many (operation ['*', '/'] (signed inner)) rest).2) := by
  obtain ⟨first, operations, hopens, rfl⟩ :=
    hleft (gaps_nil.noneAhead (by decide) (by decide))
  rw [← signed_of_unsigned (unsigned_of_startsFactor hstart)] at hpower
  obtain ⟨mid, hfirst, hmany⟩ := OpensBefore.many_operation gaps_nil (by simp) (by decide) hopens
    hpower (consumes_signed hinner _ _ _ hpower).length_le
  refine term_eq_ok.mpr ⟨first, mid, hfirst, ?_⟩
  rw [hmany, foldProduct, List.foldl_append]
  rfl

/-- If no power can be read behind the star, the product ends in front of it. -/
theorem term_star_stuck (hleft : ReadAs inner .product operands ('*' :: behind) l)
    (hstart : startsFactor behind = true) (hpower : power inner behind = .error stuck) :
    term inner (operands ++ '*' :: behind) = .ok (l, '*' :: behind) := by
  obtain ⟨first, operations, hopens, rfl⟩ :=
    hleft (gaps_nil.noneAhead (by decide) (by decide))
  have hstar : oneOf ['*', '/'] ('*' :: behind) = .ok ('*', behind) :=
    oneOf_eq_ok.mpr ⟨skipGaps_cons_of_not_isGap (by decide), by simp⟩
  have hoperation : operation ['*', '/'] (signed inner) ('*' :: behind) = .error stuck := by
    simp only [operation, hstar, signed_of_unsigned (unsigned_of_startsFactor hstart), hpower]
  obtain ⟨mid, hfirst, hmany⟩ := hopens.close hoperation
  refine term_eq_ok.mpr ⟨first, mid, hfirst, ?_⟩
  rw [hmany]
  exact implicitFactors_stop (Or.inl rfl)

/-- Without the star, the factor follows the product at once. -/
theorem term_bare (hleft : ReadAs inner .product operands behind l)
    (hstart : startsFactor behind = true) :
    term inner (operands ++ behind) = .ok (implicitFactors inner l behind) := by
  obtain ⟨c, tail, rfl, hc⟩ := exists_of_startsFactor hstart
  exact hleft.product (noneAhead_factor hc)

section Sums

variable (hterms : OpensTerm terms) (hlevels : terms.length ≤ levels)
  (hstart : startsFactor behind = true)

include hterms hlevels hstart

/-- If the sum with the star ends where a sum may end, a power is read behind the star. -/
theorem exists_power_behind
    (hleft : ReadAs (expression levels) .product operands ('*' :: behind) l)
    (hread : sum (expression levels) (terms ++ (operands ++ '*' :: behind)) = .ok (g, close))
    (hclose : NoneAhead productOperators close) :
    ∃ r rest, power (expression levels) behind = .ok (r, rest) ∧ NoneAhead towerOperators rest := by
  have hinner : Consumes (expression levels) := consumes_expression levels
  have hstops : ∀ {t last}, ¬NoneAhead productOperators last →
      term (expression levels) (operands ++ '*' :: behind) ≠ .ok (t, last) := by
    intro t last hahead hterm
    obtain ⟨g', hsum⟩ := hterms.sum_ends hlevels hterm (noneAhead_of_ahead hahead (by simp))
    rw [hread, Except.ok.injEq, Prod.mk.injEq] at hsum
    exact hahead (hsum.2 ▸ hclose)
  cases hpower : power (expression levels) behind with
  | error stuck =>
      have hahead : ¬NoneAhead productOperators ('*' :: behind) := by
        simp [NoneAhead, skipGaps_cons_of_not_isGap (show isGap '*' = false by decide)]
      exact absurd (term_star_stuck hleft hstart hpower) (hstops hahead)
  | ok result =>
      obtain ⟨r, rest⟩ := result
      refine ⟨r, rest, rfl, ?_⟩
      by_contra htower
      have hahead : ¬NoneAhead productOperators rest := fun hnone => htower (hnone.subset (by simp))
      have hterm := term_star hinner hleft hstart hpower
      rw [many_stop (operation_stuck (noneAhead_of_ahead htower (by simp))),
        implicitFactors_stop (Or.inl (not_startsFactor_of_ahead hahead))] at hterm
      exact hstops hahead hterm

variable (hbare : ReadAs (expression levels) .product operands behind l)
  (hpower : power (expression levels) behind = .ok (r, rest))

include hbare hpower

/-- Behind a number and in front of the end of a product, the sum is the same without the star. -/
theorem sum_dropStar (hleft : ReadAs (expression levels) .product operands ('*' :: behind) l)
    (hends : EndsInNumber l) (hnone : NoneAhead ['*', '/'] rest) :
    sum (expression levels) (terms ++ (operands ++ behind)) =
      sum (expression levels) (terms ++ (operands ++ '*' :: behind)) := by
  have hinner : Consumes (expression levels) := consumes_expression levels
  have hshorter := length_lt_of_power hpower
  have hterm := term_star hinner hleft hstart hpower
  have hterm' := term_bare hbare hstart
  rw [many_stop (operation_stuck hnone)] at hterm
  rw [implicitFactors_cons hstart (takesFactor_iff.mpr hends) hpower hshorter] at hterm'
  obtain ⟨extend, hsum⟩ := hterms.sum hlevels
  rw [hsum hterm, hsum hterm']
  rfl

/-- Anywhere else the sum without the star ends in front of the factor or in front of an operator. -/
theorem sum_stops (hrefused : ¬(EndsInNumber l ∧ NoneAhead ['*', '/'] rest)) :
    ∃ g close, sum (expression levels) (terms ++ (operands ++ behind)) = .ok (g, close) ∧
      (startsFactor close = true ∨ ¬NoneAhead productOperators close) := by
  have hterm := term_bare hbare hstart
  by_cases hends : EndsInNumber l
  · have hahead : ¬NoneAhead productOperators rest :=
      fun hnone => hrefused ⟨hends, hnone.subset (by simp)⟩
    have htakes : takesFactor l = true := takesFactor_iff.mpr hends
    rw [implicitFactors_cons hstart htakes hpower (length_lt_of_power hpower),
      implicitFactors_stop (Or.inl (not_startsFactor_of_ahead hahead))] at hterm
    have hnone : NoneAhead ['+', '-'] rest := noneAhead_of_ahead hahead (by simp)
    obtain ⟨g, hsum⟩ := hterms.sum_ends hlevels hterm hnone
    exact ⟨g, rest, hsum, Or.inr hahead⟩
  · have htakes : takesFactor l = false := by
      rw [Bool.eq_false_iff]
      exact fun htakes => hends (takesFactor_iff.mp htakes)
    rw [implicitFactors_stop (Or.inr htakes)] at hterm
    have hunsigned : NoneAhead ['-', '+'] behind := unsigned_of_startsFactor hstart
    obtain ⟨g, hsum⟩ := hterms.sum_ends hlevels hterm (hunsigned.subset (by simp))
    exact ⟨g, behind, hsum, Or.inl hstart⟩

end Sums

end Reading

/-! ## Around the sum -/

/-- The sum that begins with a derived text or behind a parenthesis of it is read up to where it may
end, and any other text that is read as the same sum may stand in its place. -/
theorem Derives.enclosed_sum (hderives : Derives .sum taken blanks e)
    (hblanks : ∀ c ∈ blanks, isBlank c = true) (htext : outer ++ text = taken ++ blanks)
    (houter : outer = [] ∨ ∃ before, outer = before ++ ['(']) (hlevels : taken.length ≤ levels) :
    ∃ g close, sum (expression levels) text = .ok (g, close) ∧
      NoneAhead productOperators close ∧ startsFactor close = false ∧
      ∀ other, sum (expression levels) other = .ok (g, close) →
        ∃ taken', outer ++ other = taken' ++ blanks ∧ Derives .sum taken' blanks e := by
  have htakes : Takes (sum (expression levels)) .sum := takes_expression (levels + 1)
  rcases houter with rfl | ⟨before, rfl⟩
  · have hnone := noneAhead_blanks hblanks
    have hfactor := not_startsFactor_blanks hblanks
    have hread := (hderives.readAs hlevels).sum hnone hfactor
    rw [← htext] at hread
    exact ⟨e, blanks, hread, hnone.subset (by simp), hfactor, fun other hother => htakes _ _ _ hother⟩
  · have hopen : taken ++ blanks = before ++ '(' :: text := by simpa using htext.symm
    rcases cut_append hopen with ⟨inside, rfl, rfl⟩ | ⟨more, -, hmore⟩
    · obtain ⟨body, after, rest, g, rfl, hafter, hbody, hreplace⟩ := hderives.hasGroup rfl
      have hnone : ∀ {operators : List Char}, ')' ∉ operators →
          NoneAhead operators (after ++ ')' :: (rest ++ blanks)) :=
        fun hnot => hafter.noneAhead (by decide) hnot
      have hfactor : startsFactor (after ++ ')' :: (rest ++ blanks)) = false :=
        hafter.not_startsFactor (by decide)
      have hlevels' : body.length ≤ levels := by
        simp only [List.length_append, List.length_cons] at hlevels
        omega
      have hread := (hbody.readAs hlevels').sum (hnone (by decide)) hfactor
      refine ⟨g, _, by simpa using hread, hnone (by decide), hfactor, fun other hother => ?_⟩
      obtain ⟨body', rfl, hbody'⟩ := htakes _ _ _ hother
      exact ⟨_, by simp, hreplace body' hbody'⟩
    · have hblank := hblanks '(' (by rw [hmore]; simp)
      exact absurd hblank (by decide)

/-! ## Whole texts -/

theorem nestsWithin_dropStar {limit depth : ℕ} :
    nestsWithin limit depth (front ++ behind) = nestsWithin limit depth (front ++ '*' :: behind) := by
  have hplain : ∀ c, (c != '*') = false → c ≠ '(' ∧ c ≠ ')' := by
    intro c hc
    obtain rfl : c = '*' := by simpa using hc
    decide
  calc nestsWithin limit depth (front ++ behind)
      = nestsWithin limit depth ((front ++ behind).filter (· != '*')) :=
        (nestsWithin_filter hplain).symm
    _ = nestsWithin limit depth ((front ++ '*' :: behind).filter (· != '*')) := by simp
    _ = nestsWithin limit depth (front ++ '*' :: behind) := nestsWithin_filter hplain

section Whole

variable (hnumber : EndsInLiteral front) (hstart : startsFactor behind = true)

include hnumber hstart

/-- In a text that is read, a product stands in front of the star and a power behind it. -/
theorem exists_around_star (hread : parseChars (front ++ '*' :: behind) = .ok e) :
    ∃ l rest, ProductInFront front behind l ∧ FactorBehind behind rest := by
  obtain ⟨taken, blanks, htext, hblanks, hderives⟩ := exists_derives_of_parseChars hread
  have hstar : StarIn .sum front behind := by
    rcases cut_append htext.symm with ⟨more, htaken, rfl⟩ | ⟨more, -, hmore⟩
    · exact hderives.starIn htaken
    · have hblank := hblanks '*' (by rw [hmore]; simp)
      exact absurd hblank (by decide)
  obtain ⟨l, hproduct⟩ := exists_productInFront hnumber hstar
  obtain ⟨outer, terms, operands, rfl, houter, hterms, hleft⟩ := id hproduct
  have houtside : outer ++ (terms ++ (operands ++ '*' :: behind)) = taken ++ blanks := by
    simpa using htext
  have hlength := congrArg List.length houtside
  simp only [List.length_append, List.length_cons] at hlength
  obtain ⟨g, close, hsum, hclose, -, -⟩ := hderives.enclosed_sum hblanks houtside houter
    (Nat.le_add_right taken.length blanks.length)
  obtain ⟨r, rest, hpower, htower⟩ :=
    exists_power_behind hterms (by omega) hstart (hleft.readAs (by omega)) hsum hclose
  obtain ⟨factor, hbehind, hfactor⟩ := takes_power (takes_expression _) _ _ _ hpower
  exact ⟨l, rest, hproduct, factor, r, hbehind, hfactor, htower⟩

variable (hproduct : ProductInFront front behind l) (hfactor : FactorBehind behind rest)

include hproduct hfactor

/-- Behind a number and in front of the end of a product, the text is read as the same expression
without the star. -/
theorem parseChars_dropStar (hread : parseChars (front ++ '*' :: behind) = .ok e)
    (hends : EndsInNumber l) (hnone : NoneAhead ['*', '/'] rest) :
    parseChars (front ++ behind) = .ok e := by
  obtain ⟨outer, terms, operands, rfl, houter, hterms, hleft⟩ := hproduct
  obtain ⟨factor, r, rfl, hpower, htower⟩ := hfactor
  obtain ⟨hcheck, -⟩ := parseChars_eq_ok_iff.mp hread
  obtain ⟨-, hshort, hnests⟩ := checkText_eq_ok.mp hcheck
  obtain ⟨taken, blanks, htext, hblanks, hderives⟩ := exists_derives_of_parseChars hread
  have hbare : Derives .product operands (factor ++ rest) l :=
    hleft.behind_tokens (hnumber.tokensEnd hstart).suffix.suffix
  have houtside : outer ++ (terms ++ (operands ++ '*' :: (factor ++ rest))) = taken ++ blanks := by
    simpa using htext
  have hlength := congrArg List.length houtside
  simp only [List.length_append, List.length_cons] at hlength
  obtain ⟨g, close, hsum, -, -, hreplace⟩ := hderives.enclosed_sum hblanks houtside houter
    (Nat.le_add_right taken.length blanks.length)
  have hlevels : terms.length ≤ taken.length + blanks.length := by omega
  have hdropped := sum_dropStar hterms hlevels hstart (hbare.readAs (by omega))
    ((hpower.readAs (by omega)).power htower) (hleft.readAs (by omega)) hends hnone
  obtain ⟨taken', htext', hderives'⟩ := hreplace _ (hdropped.trans hsum)
  have hwhole : outer ++ (terms ++ operands) ++ (factor ++ rest) = taken' ++ blanks := by
    rw [← htext']
    simp
  rw [hwhole]
  refine parseChars_of_derives hderives' hblanks ?_ ?_
  · rw [← hwhole]
    simp only [List.length_append, List.length_cons] at hshort ⊢
    omega
  · rwa [← hwhole, nestsWithin_dropStar]

/-- Only there the text is read without the star. -/
theorem conditions_of_dropStar (hread : parseChars (front ++ behind) = .ok f) :
    EndsInNumber l ∧ NoneAhead ['*', '/'] rest := by
  by_contra hrefused
  obtain ⟨outer, terms, operands, rfl, houter, hterms, hleft⟩ := hproduct
  obtain ⟨factor, r, rfl, hpower, htower⟩ := hfactor
  obtain ⟨taken, blanks, htext, hblanks, hderives⟩ := exists_derives_of_parseChars hread
  have hbare : Derives .product operands (factor ++ rest) l :=
    hleft.behind_tokens (hnumber.tokensEnd hstart).suffix.suffix
  have houtside : outer ++ (terms ++ (operands ++ (factor ++ rest))) = taken ++ blanks := by
    simpa using htext
  have hlength := congrArg List.length houtside
  simp only [List.length_append] at hlength
  -- the sum that holds the factor would end where no sum may end
  obtain ⟨g, close, hsum, hclose, hnoFactor, -⟩ := hderives.enclosed_sum hblanks houtside houter
    (Nat.le_add_right taken.length blanks.length)
  have hlevels : terms.length ≤ taken.length + blanks.length := by omega
  obtain ⟨g', close', hsum', hstuck⟩ := sum_stops hterms hlevels hstart
    (hbare.readAs (by omega)) ((hpower.readAs (by omega)).power htower) hrefused
  rw [hsum, Except.ok.injEq, Prod.mk.injEq] at hsum'
  obtain ⟨-, rfl⟩ := hsum'
  rcases hstuck with hfactor | hahead
  · exact absurd hfactor (by simp [hnoFactor])
  · exact hahead hclose

end Whole

/-- **Where the star may be dropped behind a number.**  Take a text that is read, with a star in it
that stands right behind a number and right in front of a name or a group.  Then a product stands in
front of the star and a power behind it.  The text without the star is read if and only if the product
ends in a number or a power, and no star or slash follows the power behind the star; and then it is
read as the same expression.  So whenever the text without the star is read, it has the same value
under every assignment. -/
theorem parse_dropStar_iff {front behind : String} {e : Expr}
    (hread : parse (front ++ "*" ++ behind) = .ok e) (hnumber : EndsInLiteral front.toList)
    (hstart : startsFactor behind.toList = true) :
    (∃ l rest, ProductInFront front.toList behind.toList l ∧ FactorBehind behind.toList rest) ∧
    (∀ l rest, ProductInFront front.toList behind.toList l → FactorBehind behind.toList rest →
      ∀ f, parse (front ++ behind) = .ok f ↔
        f = e ∧ EndsInNumber l ∧ NoneAhead ['*', '/'] rest) ∧
    ∀ f, parse (front ++ behind) = .ok f → ∀ assignment : String → ℚ,
      (f.assign assignment).value? = (e.assign assignment).value? := by
  have hchars : parseChars (front.toList ++ '*' :: behind.toList) = .ok e := by
    have hlist : (front ++ "*" ++ behind).toList = front.toList ++ '*' :: behind.toList := by
      simp [String.toList_append]
    rwa [parse, hlist] at hread
  have hdropped : ∀ f, parse (front ++ behind) = .ok f ↔
      parseChars (front.toList ++ behind.toList) = .ok f := by
    intro f
    rw [parse, String.toList_append]
  have hexists := exists_around_star hnumber hstart hchars
  have hiff : ∀ l rest, ProductInFront front.toList behind.toList l →
      FactorBehind behind.toList rest → ∀ f, parse (front ++ behind) = .ok f ↔
        f = e ∧ EndsInNumber l ∧ NoneAhead ['*', '/'] rest := by
    intro l rest hproduct hfactor f
    rw [hdropped]
    constructor
    · intro hread'
      obtain ⟨hends, hnone⟩ := conditions_of_dropStar hnumber hstart hproduct hfactor hread'
      have hsame := parseChars_dropStar hnumber hstart hproduct hfactor hchars hends hnone
      exact ⟨Except.ok.inj (hread'.symm.trans hsame), hends, hnone⟩
    · rintro ⟨rfl, hends, hnone⟩
      exact parseChars_dropStar hnumber hstart hproduct hfactor hchars hends hnone
  refine ⟨hexists, hiff, fun f hread' assignment => ?_⟩
  obtain ⟨l, rest, hproduct, hfactor⟩ := hexists
  rw [((hiff l rest hproduct hfactor f).mp hread').1]

/-- The number ends a quotient, and nothing follows the power. -/
theorem parse_dropStar_iff_quotient :
    parse ("5-3/2" ++ "*" ++ "x^2") =
      .ok (.sub (.number 5) (.mul (.div (.number 3) (.number 2)) (.pow (.var "x") (.number 2)))) ∧
    EndsInLiteral "5-3/2".toList ∧ startsFactor "x^2".toList = true ∧
    ∃ l rest, ProductInFront "5-3/2".toList "x^2".toList l ∧ FactorBehind "x^2".toList rest ∧
      EndsInNumber l ∧ NoneAhead ['*', '/'] rest := by
  have hread : parse ("5-3/2" ++ "*" ++ "x^2") = .ok
      (.sub (.number 5) (.mul (.div (.number 3) (.number 2)) (.pow (.var "x") (.number 2)))) := by
    decide +kernel
  have hdropped : parse ("5-3/2" ++ "x^2") = .ok
      (.sub (.number 5) (.mul (.div (.number 3) (.number 2)) (.pow (.var "x") (.number 2)))) := by
    decide +kernel
  have hliteral : IsLiteral ['2'] _ := .whole (by simp) (List.forall_mem_singleton.mpr rfl)
  have hslash : HeadFree isTokenChar ['/', '3', '-', '5'] := headFree_cons.mpr (by decide)
  have hnumber : EndsInLiteral "5-3/2".toList :=
    ⟨['5', '-', '3', '/'], ['2'], _, by decide, hliteral, hslash⟩
  have hstart : startsFactor "x^2".toList = true := by decide
  obtain ⟨⟨l, rest, hproduct, hfactor⟩, hiff, -⟩ := parse_dropStar_iff hread hnumber hstart
  obtain ⟨-, hends, hnone⟩ := (hiff l rest hproduct hfactor _).mp hdropped
  exact ⟨hread, hnumber, hstart, l, rest, hproduct, hfactor, hends, hnone⟩

/-- A power behind a minus sign takes no factor. -/
example : parse "-2^2*x" = .ok (.mul (.neg (.pow (.number 2) (.number 2))) (.var "x")) ∧
    parse "-2^2x" = .error (.unread ['x']) := by
  decide +kernel

/-- Behind the `x` another star follows, and without the first one the text is refused. -/
theorem not_parse_dropStar_operation_behind :
    parse ("2" ++ "*" ++ "x*3") = .ok (.mul (.mul (.number 2) (.var "x")) (.number 3)) ∧
    EndsInLiteral "2".toList ∧ startsFactor "x*3".toList = true ∧
    parse ("2" ++ "x*3") = .error (.unread "*3".toList) ∧ ¬∃ f, parse ("2" ++ "x*3") = .ok f := by
  have hrefused : parse ("2" ++ "x*3") = .error (.unread "*3".toList) := by decide +kernel
  have hliteral : IsLiteral ['2'] _ := .whole (by simp) (List.forall_mem_singleton.mpr rfl)
  refine ⟨by decide +kernel, ⟨[], ['2'], _, rfl, hliteral, by simp⟩, by decide, hrefused, ?_⟩
  rintro ⟨f, hread⟩
  exact absurd (hrefused.symm.trans hread) (by simp)

end EquationPractice
