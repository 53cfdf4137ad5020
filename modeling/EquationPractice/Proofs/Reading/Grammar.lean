import EquationPractice.Proofs.Reading.Layers

/-!
# The grammar of expressions

What may be written, without saying how it is found:

```text
sum      = term (gaps ('+' or '-') term)*           left to right
term     = product factor*                          factors multiplied on
product  = signed (gaps ('*' or '/') signed)*       left to right
signed   = (gaps sign)* power
power    = atom (gaps '^' (gaps sign)* atom)*       right to left
atom     = gaps (literal, name, or '(' sum gaps ')')
```

Literals and names are as long as they can be, so whether a text is an atom depends on what stands
behind it.  `Derives` therefore speaks of a text and of all that follows it.

## Main definitions

* `Maximal`: a token that cannot be made longer.
* `Signs`: a run of signs and what it makes of an expression.
* `Derives`: a text is derived from one of the productions, with a tree.
-/

namespace EquationPractice

open Text

/-! ## Tokens -/

/-- A possibly empty run of the characters that may stand between two tokens. -/
def Gaps (cs : List Char) : Prop :=
  ∀ c ∈ cs, isGap c = true

/-- A decimal literal and its value: digits with an optional point, at least one digit in all. -/
inductive IsLiteral : List Char → ℚ → Prop
  | whole {digits : List Char} (hne : digits ≠ []) (hdigits : ∀ c ∈ digits, c.isDigit = true) :
      IsLiteral digits (decimalValue digits [])
  | point {whole fraction : List Char} (hne : whole ≠ [] ∨ fraction ≠ [])
      (hwhole : ∀ c ∈ whole, c.isDigit = true) (hfraction : ∀ c ∈ fraction, c.isDigit = true) :
      IsLiteral (whole ++ '.' :: fraction) (decimalValue whole fraction)

/-- A token of some kind that is not the beginning of a longer one. -/
structure Maximal (token : List Char → Prop) (cs next : List Char) : Prop where
  isToken : token cs
  longest : ∀ more rest, next = more ++ rest → token (cs ++ more) → more = []

/-- A run of signs in front of the first expression makes it the second one. -/
inductive Signs : List Char → Expr → Expr → Prop
  | none {e : Expr} : Signs [] e e
  | plus {gaps run : List Char} {e f : Expr} (hgaps : Gaps gaps) (hrun : Signs run e f) :
      Signs (gaps ++ '+' :: run) e f
  | minus {gaps run : List Char} {e f : Expr} (hgaps : Gaps gaps) (hrun : Signs run e f) :
      Signs (gaps ++ '-' :: run) e (negate f)

/-- The trees behind which a factor may stand without an operator. -/
inductive EndsInNumber : Expr → Prop
  | number (q : ℚ) : EndsInNumber (.number q)
  | pow (base exponent : Expr) : EndsInNumber (.pow base exponent)
  | mul {left right : Expr} (hright : EndsInNumber right) : EndsInNumber (.mul left right)
  | div {left right : Expr} (hright : EndsInNumber right) : EndsInNumber (.div left right)

/-! ## Productions -/

/-- The left-hand sides of the productions. -/
inductive Layer where
  | sum
  | term
  | product
  | signed
  | power
  | atom

/-- `Derives layer cs next e`: with `next` right behind it, the text `cs` is derived from `layer`
with the tree `e`. -/
inductive Derives : Layer → List Char → List Char → Expr → Prop
  | literal {gaps cs next : List Char} {q : ℚ} (hgaps : Gaps gaps) (hvalue : IsLiteral cs q)
      (hmaximal : Maximal (fun token => ∃ value, IsLiteral token value) cs next) :
      Derives .atom (gaps ++ cs) next (.number q)
  | name {gaps cs next : List Char} (hgaps : Gaps gaps) (hmaximal : Maximal IsName cs next) :
      Derives .atom (gaps ++ cs) next (.var (String.ofList cs))
  | group {before body after next : List Char} {e : Expr} (hbefore : Gaps before)
      (hafter : Gaps after) (hbody : Derives .sum body (after ++ ')' :: next) e) :
      Derives .atom (before ++ '(' :: (body ++ (after ++ [')']))) next e
  | base {cs next : List Char} {e : Expr} (hatom : Derives .atom cs next e) :
      Derives .power cs next e
  | pow {cs gaps run ds next : List Char} {e f x : Expr} (hgaps : Gaps gaps)
      (hbase : Derives .atom cs (gaps ++ '^' :: (run ++ (ds ++ next))) e)
      (hrun : Signs run f x) (hexponent : Derives .power ds next f) :
      Derives .power (cs ++ (gaps ++ '^' :: (run ++ ds))) next (.pow e x)
  | signed {run cs next : List Char} {e f : Expr} (hrun : Signs run e f)
      (hpower : Derives .power cs next e) : Derives .signed (run ++ cs) next f
  | operand {cs next : List Char} {e : Expr} (hsigned : Derives .signed cs next e) :
      Derives .product cs next e
  | mul {cs gaps ds next : List Char} {e f : Expr} (hgaps : Gaps gaps)
      (hleft : Derives .product cs (gaps ++ '*' :: (ds ++ next)) e)
      (hright : Derives .signed ds next f) :
      Derives .product (cs ++ (gaps ++ '*' :: ds)) next (.mul e f)
  | div {cs gaps ds next : List Char} {e f : Expr} (hgaps : Gaps gaps)
      (hleft : Derives .product cs (gaps ++ '/' :: (ds ++ next)) e)
      (hright : Derives .signed ds next f) :
      Derives .product (cs ++ (gaps ++ '/' :: ds)) next (.div e f)
  | product {cs next : List Char} {e : Expr} (hproduct : Derives .product cs next e) :
      Derives .term cs next e
  | factor {cs ds next : List Char} {c : Char} {e f : Expr}
      (hleft : Derives .term cs (c :: (ds ++ next)) e) (hends : EndsInNumber e)
      (hstart : startsName c = true ∨ c = '(') (hfactor : Derives .power (c :: ds) next f) :
      Derives .term (cs ++ c :: ds) next (.mul e f)
  | summand {cs next : List Char} {e : Expr} (hterm : Derives .term cs next e) :
      Derives .sum cs next e
  | add {cs gaps ds next : List Char} {e f : Expr} (hgaps : Gaps gaps)
      (hleft : Derives .sum cs (gaps ++ '+' :: (ds ++ next)) e)
      (hright : Derives .term ds next f) :
      Derives .sum (cs ++ (gaps ++ '+' :: ds)) next (.add e f)
  | sub {cs gaps ds next : List Char} {e f : Expr} (hgaps : Gaps gaps)
      (hleft : Derives .sum cs (gaps ++ '-' :: (ds ++ next)) e)
      (hright : Derives .term ds next f) :
      Derives .sum (cs ++ (gaps ++ '-' :: ds)) next (.sub e f)

end EquationPractice
