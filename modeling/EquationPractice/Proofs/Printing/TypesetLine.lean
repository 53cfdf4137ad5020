import EquationPractice.Expr.Latex
import EquationPractice.Proofs.Printing.Reread
import EquationPractice.Proofs.Reading.Literals

/-!
# Typeset mathematics on one line

Typeset mathematics is read by what the commands and the braces in it mean.  A fraction is the
quotient of two groups, a raised group is an exponent, a dot is a product, sized parentheses are
parentheses, an index belongs to the name before it, and upright text is a name.  So it can be written
on one line, where groups stand in parentheses, and be read from there.

## Strategy

The rewriting goes through the text once and remembers what the open braces enclose.  A piece of text
in which all braces are closed is written on the line whatever is open around it; `OnLine` says so, and
every piece of the LaTeX form of an expression is put together from such pieces.

## Main definitions

* `lineFrom`: the rest of a typeset text on one line, given what is open.
* `readTypeset`: the expression that a typeset text is read as.
* `Expr.lineChars`: what becomes of the LaTeX form of an expression.
-/

namespace EquationPractice

open Text

/-! ## Reading what is typeset -/

/-- What a brace encloses. -/
inductive Brace where
  | numerator
  | denominator
  | exponent
  | name
  deriving DecidableEq, Repr

/-- The rest of a typeset text on one line, given what the open braces enclose, the innermost one
first.  A command, a brace or a raised character that has no meaning here makes the text unreadable. -/
def lineFrom : List Brace → List Char → Option (List Char)
  | [], [] => some []
  | _ :: _, [] => none
  | braces, '\\' :: 'f' :: 'r' :: 'a' :: 'c' :: '\x7b' :: rest =>
      (lineFrom (.numerator :: braces) rest).map (['(', '('] ++ ·)
  | .numerator :: braces, '\x7d' :: '\x7b' :: rest =>
      (lineFrom (.denominator :: braces) rest).map ([')', '/', '('] ++ ·)
  | .denominator :: braces, '\x7d' :: rest => (lineFrom braces rest).map ([')', ')'] ++ ·)
  | braces, '^' :: '\x7b' :: rest => (lineFrom (.exponent :: braces) rest).map (['^', '('] ++ ·)
  | .exponent :: braces, '\x7d' :: rest => (lineFrom braces rest).map ([')'] ++ ·)
  | braces, '_' :: '\x7b' :: rest => lineFrom (.name :: braces) rest
  | braces, '\\' :: 't' :: 'e' :: 'x' :: 't' :: '\x7b' :: rest => lineFrom (.name :: braces) rest
  | .name :: braces, '\x7d' :: rest => lineFrom braces rest
  | braces, '\\' :: 'c' :: 'd' :: 'o' :: 't' :: rest => (lineFrom braces rest).map (['*'] ++ ·)
  | braces, '\\' :: 'l' :: 'e' :: 'f' :: 't' :: '(' :: rest =>
      (lineFrom braces rest).map (['('] ++ ·)
  | braces, '\\' :: 'r' :: 'i' :: 'g' :: 'h' :: 't' :: ')' :: rest =>
      (lineFrom braces rest).map ([')'] ++ ·)
  | braces, c :: rest =>
      if c ∈ ['\\', '\x7b', '\x7d', '^'] then none else (lineFrom braces rest).map ([c] ++ ·)

-- the many equations are derived here, once for all the proofs below
attribute [grind =] lineFrom

/-- The expression that a typeset text is read as: it is written on one line, and nothing may be left
over there. -/
def readTypeset (text : String) : Option Expr := do
  match readExpr (← lineFrom [] text.toList) with
  | .ok (e, []) => some e
  | _ => none

/-! ## Pieces -/

/-- A fraction on one line. -/
def lineFraction (top bottom : List Char) : List Char :=
  ['(', '('] ++ top ++ [')', '/', '('] ++ bottom ++ [')', ')']

/-- A rational number on one line. -/
def lineRat (q : ℚ) : List Char :=
  if q.den = 1 then intChars q.num
  else (if q < 0 then ['-'] else []) ++ lineFraction (natChars q.num.natAbs) (natChars q.den)

/-- A piece of typeset text is written on the line as another text, whatever is open around it and
whatever follows, as long as no brace opens right behind it. -/
structure OnLine (cs ds : List Char) : Prop where
  head : HeadFree (· == '\x7b') cs
  writes : ∀ braces rest, HeadFree (· == '\x7b') rest →
    lineFrom braces (cs ++ rest) = (lineFrom braces rest).map (ds ++ ·)

section OnLine

variable {braces : List Brace} {cs ds cs' ds' rest : List Char} {c : Char} {wanted : Bool}

theorem OnLine.append (hcs : OnLine cs ds) (hcs' : OnLine cs' ds') :
    OnLine (cs ++ cs') (ds ++ ds') := by
  refine ⟨hcs.head.append hcs'.head, fun braces rest hrest => ?_⟩
  rw [List.append_assoc, hcs.writes _ _ (hcs'.head.append hrest), hcs'.writes _ _ hrest,
    Option.map_map]
  congr 1
  funext line
  simp

theorem lineFrom_plain (hplain : c ∉ ['\\', '\x7b', '\x7d', '^'])
    (hrest : HeadFree (· == '\x7b') rest) :
    lineFrom braces (c :: rest) = (lineFrom braces rest).map ([c] ++ ·) := by
  have hmark : ∀ d ∈ ['\\', '\x7b', '\x7d', '^'], c ≠ d := fun d hd hc => hplain (hc ▸ hd)
  rw [lineFrom, if_neg hplain]
  case x_7 =>
    -- an index would open a brace behind the character
    rintro tail - rfl
    simp at hrest
  case x_3 | x_4 | x_6 | x_9 =>
    intros
    exact hmark '\x7d' (by simp) ‹_›
  all_goals
    rintro tail hc -
    exact hmark _ (by simp) hc

/-- Characters without a meaning of their own are written as they are. -/
theorem OnLine.plain (hplain : ∀ c ∈ cs, c ∉ ['\\', '\x7b', '\x7d', '^']) : OnLine cs cs := by
  have hfree : ∀ c ∉ ['\\', '\x7b', '\x7d', '^'], (c == '\x7b') = false := by
    intro c hc
    rw [beq_eq_false_iff_ne]
    rintro rfl
    exact hc (by decide)
  induction cs with
  | nil => exact ⟨headFree_nil, fun braces rest _ => by simp⟩
  | cons c tail ih =>
      have hc := hplain c List.mem_cons_self
      have htail := ih fun d hd => hplain d (List.mem_cons_of_mem _ hd)
      refine ⟨headFree_cons.mpr (hfree c hc), fun braces rest hrest => ?_⟩
      rw [List.cons_append, lineFrom_plain hc (htail.head.append hrest), htail.writes _ _ hrest,
        Option.map_map]
      rfl

theorem headFree_close (tail : List Char) : HeadFree (· == '\x7b') ('\x7d' :: tail) :=
  headFree_cons.mpr (by decide)

/-- Sized parentheses are parentheses. -/
theorem OnLine.sizedParentheses (hcs : OnLine cs ds) :
    OnLine (Expr.sizedParentheses wanted cs) (Expr.parenthesized wanted ds) := by
  cases wanted with
  | false => exact hcs
  | true =>
      refine ⟨headFree_cons.mpr (by decide), fun braces rest hrest => ?_⟩
      have htext : Expr.sizedParentheses true cs ++ rest = '\\' :: 'l' :: 'e' :: 'f' :: 't' :: '(' ::
          (cs ++ '\\' :: 'r' :: 'i' :: 'g' :: 'h' :: 't' :: ')' :: rest) := by
        simp [Expr.sizedParentheses]
      have hright : HeadFree (· == '\x7b') ('\\' :: 'r' :: 'i' :: 'g' :: 'h' :: 't' :: ')' :: rest) :=
        headFree_cons.mpr (by decide)
      rw [htext, lineFrom, hcs.writes _ _ hright, lineFrom]
      cases lineFrom braces rest <;> simp [Expr.parenthesized]

/-- A fraction is the quotient of two groups. -/
theorem OnLine.fraction (hcs : OnLine cs ds) (hcs' : OnLine cs' ds') :
    OnLine (fractionLatex cs cs') (lineFraction ds ds') := by
  refine ⟨headFree_cons.mpr (by decide), fun braces rest hrest => ?_⟩
  have htext : fractionLatex cs cs' ++ rest = '\\' :: 'f' :: 'r' :: 'a' :: 'c' :: '\x7b' ::
      (cs ++ '\x7d' :: '\x7b' :: (cs' ++ '\x7d' :: rest)) := by
    change "\\frac".toList ++ braced cs ++ braced cs' ++ rest = _
    simp [braced]
  rw [htext, lineFrom, hcs.writes _ _ (headFree_close _), lineFrom,
    hcs'.writes _ _ (headFree_close _), lineFrom]
  cases lineFrom braces rest <;> simp [lineFraction]

/-- A raised group is an exponent. -/
theorem OnLine.exponent (hcs : OnLine cs ds) :
    OnLine ('^' :: braced cs) ('^' :: '(' :: (ds ++ [')'])) := by
  refine ⟨headFree_cons.mpr (by decide), fun braces rest hrest => ?_⟩
  have htext : '^' :: braced cs ++ rest = '^' :: '\x7b' :: (cs ++ '\x7d' :: rest) := by
    simp [braced]
  rw [htext, lineFrom, hcs.writes _ _ (headFree_close _), lineFrom]
  cases lineFrom braces rest <;> simp

/-- A dot between spaces is a product. -/
theorem OnLine.dot : OnLine " \\cdot ".toList [' ', '*', ' '] := by
  refine ⟨headFree_cons.mpr (by decide), fun braces rest hrest => ?_⟩
  have htext : " \\cdot ".toList ++ rest =
      ' ' :: '\\' :: 'c' :: 'd' :: 'o' :: 't' :: ' ' :: rest := by
    simp
  rw [htext, lineFrom_plain (by decide) (headFree_cons.mpr (by decide)), lineFrom,
    lineFrom_plain (by decide) hrest]
  cases lineFrom braces rest <;> simp

theorem not_command_of_continuesName (hname : continuesName c = true) :
    c ∉ ['\\', '\x7b', '\x7d', '^'] := by
  intro hc
  simp only [List.mem_cons, List.not_mem_nil, or_false] at hc
  rcases hc with rfl | rfl | rfl | rfl
  all_goals exact absurd hname (by decide)

/-- A name is a letter, a letter with an index, or upright text. -/
theorem OnLine.name (hname : IsName cs) : OnLine (nameLatex cs) cs := by
  have hplain : ∀ ds : List Char, (∀ c ∈ ds, continuesName c = true) → OnLine ds ds := fun ds hds =>
    OnLine.plain fun c hc => not_command_of_continuesName (hds c hc)
  have hall := hname.continuesName
  unfold nameLatex
  split
  · exact hplain [] (by simp)
  · exact hplain _ hall
  · next c rest _ =>
      split
      · next hindex =>
          -- the head is written as it is, and of the index only the digits are left
          refine ⟨?_, fun braces after hafter => ?_⟩
          · exact (hplain [c] (by simpa using hall c List.mem_cons_self)).head
          · have hc := hplain [c] (by simpa using hall c List.mem_cons_self)
            have hrest := hplain rest fun d hd => hall d (List.mem_cons_of_mem _ hd)
            have htext : c :: '_' :: braced rest ++ after =
                [c] ++ '_' :: '\x7b' :: (rest ++ '\x7d' :: after) := by
              simp [braced]
            rw [htext, hc.writes _ _ (headFree_cons.mpr (by decide)), lineFrom,
              hrest.writes _ _ (headFree_close _), lineFrom]
            cases lineFrom braces after <;> simp
      · refine ⟨headFree_cons.mpr (by decide), fun braces after hafter => ?_⟩
        have htext : "\\text".toList ++ braced (c :: rest) ++ after =
            '\\' :: 't' :: 'e' :: 'x' :: 't' :: '\x7b' :: (c :: rest ++ '\x7d' :: after) := by
          simp [braced]
        rw [htext, lineFrom, (hplain _ hall).writes _ _ (headFree_close _), lineFrom]

end OnLine

/-! ## Expressions on one line -/

namespace Expr

/-- What becomes of the LaTeX form of an expression. -/
def lineChars : Expr → List Char
  | number q => lineRat q
  | var name => name.toList
  | add l r => l.lineChars ++ [' ', '+', ' '] ++ parenthesized (r.strength < 1) r.lineChars
  | sub l r => l.lineChars ++ [' ', '-', ' '] ++ parenthesized (r.strength ≤ 1) r.lineChars
  | mul l r =>
      parenthesized (l.strength < 2) l.lineChars ++ [' ', '*', ' '] ++
        parenthesized (r.strength < 2) r.lineChars
  | div l r => lineFraction l.lineChars r.lineChars
  | pow b x => parenthesized (b.strength ≤ 3) b.lineChars ++ '^' :: '(' :: (x.lineChars ++ [')'])
  | neg e => '-' :: parenthesized (e.strength ≤ 4) e.lineChars

end Expr

theorem onLine_natChars (n : Nat) : OnLine (natChars n) (natChars n) :=
  OnLine.plain fun c hc =>
    not_command_of_continuesName (continuesName_of_isDigit (isDigit_of_mem_natChars c hc))

theorem onLine_intChars (n : Int) : OnLine (intChars n) (intChars n) := by
  refine OnLine.plain fun c hc => ?_
  rcases mem_intChars hc with rfl | hdigit
  · decide
  · exact not_command_of_continuesName (continuesName_of_isDigit hdigit)

theorem onLine_ratLatex (q : ℚ) : OnLine (ratLatex q) (lineRat q) := by
  unfold ratLatex lineRat
  split
  · exact onLine_intChars q.num
  · have hsign : OnLine (if q < 0 then ['-'] else []) (if q < 0 then ['-'] else []) := by
      split
      · exact OnLine.plain (by simp)
      · exact OnLine.plain (by simp)
    exact hsign.append ((onLine_natChars _).fraction (onLine_natChars _))

/-- The LaTeX form of an expression whose variables are names, on one line. -/
theorem onLine_latexChars {e : Expr} (hnames : ∀ name, e.mentions name = true → IsName name.toList) :
    OnLine e.latexChars e.lineChars := by
  have hminus : OnLine ['-'] ['-'] := OnLine.plain (by simp)
  exact Expr.named_induction (motive := fun e => OnLine e.latexChars e.lineChars) onLine_ratLatex
    OnLine.name
    (fun hl hr => (hl.append (OnLine.plain (by simp))).append hr.sizedParentheses)
    (fun hl hr => (hl.append (OnLine.plain (by simp))).append hr.sizedParentheses)
    (fun hl hr => (hl.sizedParentheses.append OnLine.dot).append hr.sizedParentheses)
    OnLine.fraction
    (fun hb hx => hb.sizedParentheses.append hx.exponent)
    (fun he => hminus.append he.sizedParentheses) hnames

/-- A typeset expression is read from what it is on one line. -/
theorem readTypeset_latex {e e' : Expr}
    (hnames : ∀ name, e.mentions name = true → IsName name.toList)
    (hread : readExpr e.lineChars = .ok (e', [])) : readTypeset e.latex = some e' := by
  have hline : lineFrom [] e.latexChars = some e.lineChars := by
    have hwrites := (onLine_latexChars hnames).writes [] [] headFree_nil
    rw [List.append_nil] at hwrites
    rw [hwrites, lineFrom]
    simp
  simp [readTypeset, Expr.latex, hline, hread]

end EquationPractice
