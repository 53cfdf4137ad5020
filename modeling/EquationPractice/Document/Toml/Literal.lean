import EquationPractice.Document.Toml.Text
import EquationPractice.Document.Value

/-!
# Bare literals in TOML

Numbers, truth values, dates and times stand without quotes.  Digits may be separated by single
underscores.  A decimal integer has no leading zero, and an integer must fit into 64 bits with a sign.
Fractions, dates and times are checked but not kept apart.

## Main definitions

* `Toml.moment?`: reads a date, a time, or both.
* `Toml.bareValue?`: the value of a literal that is not a date.
-/

namespace EquationPractice.Toml

/-! ## Integers -/

/-- The digits of a text that is made of digits separated by single underscores. -/
def separatedDigits? (isDigit : Char → Bool) : List Char → Option (List Char)
  | [] => none
  | [c] => if isDigit c then some [c] else none
  | c :: '_' :: rest => if isDigit c then (separatedDigits? isDigit rest).map (c :: ·) else none
  | c :: rest => if isDigit c then (separatedDigits? isDigit rest).map (c :: ·) else none

/-- The decimal digits of a text, without a leading zero. -/
def plainDigits? (cs : List Char) : Option (List Char) :=
  match separatedDigits? Char.isDigit cs with
  | some ('0' :: _ :: _) => none
  | digits => digits

/-- Whether there is a minus sign at the front of a text, and what follows the sign. -/
def splitSign : List Char → Bool × List Char
  | '-' :: rest => (true, rest)
  | '+' :: rest => (false, rest)
  | cs => (false, cs)

/-- The number that digits of a base stand for. -/
def numberOf (base : Nat) (digits : List Char) : Nat :=
  digits.foldl (fun n c => base * n + (hexDigit? c).getD 0) 0

/-- Whether a character is a digit of a base. -/
def isDigitOf (base : Nat) (c : Char) : Bool :=
  match hexDigit? c with
  | some digit => digit < base
  | none => false

/-- The integer that a literal stands for, whatever its size. -/
def unboundedInteger? : List Char → Option Int
  | '0' :: 'x' :: rest => ofBase? 16 rest
  | '0' :: 'o' :: rest => ofBase? 8 rest
  | '0' :: 'b' :: rest => ofBase? 2 rest
  | cs =>
      let (minus, rest) := splitSign cs
      (plainDigits? rest).map fun digits =>
        if minus then -(numberOf 10 digits : Int) else numberOf 10 digits
where
  /-- The number that a text stands for in a base. -/
  ofBase? (base : Nat) (cs : List Char) : Option Int :=
    (separatedDigits? (isDigitOf base) cs).map fun digits => (numberOf base digits : Int)

/-- The integer that a literal stands for. -/
def integer? (cs : List Char) : Option Int :=
  match unboundedInteger? cs with
  | some n => if Int64.minValue.toInt ≤ n && n ≤ Int64.maxValue.toInt then some n else none
  | none => none

/-! ## Fractions -/

/-- The least number that rounds to infinity in double precision. -/
def overflow : Nat := Nat.pow 2 1024 - Nat.pow 2 970

/-- Whether `digits * 10 ^ exponent` rounds to infinity. -/
def overflows (digits : List Char) (exponent : Int) : Bool :=
  let significant := digits.dropWhile (· == '0')
  let places := significant.length + exponent
  let value := numberOf 10 significant
  if significant.isEmpty || places < 309 then false
  else if 309 < places then true
  else if 0 ≤ exponent then overflow ≤ value * Nat.pow 10 exponent.toNat
  else overflow * Nat.pow 10 exponent.natAbs ≤ value

/-- The exponent that a text states, after its letter. -/
def exponent? (cs : List Char) : Option Int :=
  let (minus, rest) := splitSign cs
  (separatedDigits? Char.isDigit rest).map fun digits =>
    if minus then -(numberOf 10 digits : Int) else numberOf 10 digits

/-- Whether a text is a fraction: digits with a part after the point, or an exponent, or both.  One
that rounds to positive infinity is refused. -/
def isFraction (cs : List Char) : Bool :=
  let (minus, unsigned) := splitSign cs
  let isMark (c : Char) : Bool := c == 'e' || c == 'E'
  let mantissa := unsigned.takeWhile fun c => !isMark c
  let afterMantissa := unsigned.dropWhile fun c => !isMark c
  let whole := mantissa.takeWhile (· != '.')
  let afterWhole := mantissa.dropWhile (· != '.')
  let read := do
    let wholeDigits ← plainDigits? whole
    let fractionDigits ← match afterWhole with
      | [] => some []
      | _ :: fraction => separatedDigits? Char.isDigit fraction
    let exponent ← match afterMantissa with
      | [] => some 0
      | _ :: exponent => exponent? exponent
    return (wholeDigits ++ fractionDigits, exponent - fractionDigits.length)
  match read with
  | some (digits, exponent) =>
      !(afterWhole.isEmpty && afterMantissa.isEmpty) && (minus || !overflows digits exponent)
  | none => false

/-- Whether a text is infinity or not a number, with or without a sign. -/
def isNonFinite (cs : List Char) : Bool :=
  let (_, unsigned) := splitSign cs
  unsigned == ['i', 'n', 'f'] || unsigned == ['n', 'a', 'n']

/-! ## Dates and times -/

/-- Scans a character. -/
def expect? (c : Char) : List Char → Option (List Char)
  | d :: rest => if d == c then some rest else none
  | [] => none

/-- Scans exactly so many digits, as a number within bounds. -/
def digitsWithin? (count lower upper : Nat) : Scan Nat := fun cs =>
  let digits := cs.take count
  let n := numberOf 10 digits
  if digits.length = count && digits.all Char.isDigit && lower ≤ n && n ≤ upper then
    some (n, cs.drop count)
  else none

/-- The number of days of a month. -/
def daysOfMonth (year month : Nat) : Nat :=
  if month = 2 then
    if year % 4 = 0 && (year % 100 ≠ 0 || year % 400 = 0) then 29 else 28
  else if month ∈ [4, 6, 9, 11] then 30
  else 31

/-- Scans a date. -/
def date? (cs : List Char) : Option (List Char) := do
  let (year, rest) ← digitsWithin? 4 0 9999 cs
  let (month, rest) ← digitsWithin? 2 1 12 (← expect? '-' rest)
  let (_, rest) ← digitsWithin? 2 1 (daysOfMonth year month) (← expect? '-' rest)
  return rest

/-- Scans a time of the day; the seconds may have a fraction. -/
def time? (cs : List Char) : Option (List Char) := do
  let (_, rest) ← digitsWithin? 2 0 23 cs
  let (_, rest) ← digitsWithin? 2 0 59 (← expect? ':' rest)
  let (_, rest) ← digitsWithin? 2 0 60 (← expect? ':' rest)
  match rest with
  | '.' :: c :: fraction => return if c.isDigit then fraction.dropWhile Char.isDigit else rest
  | _ => return rest

/-- The text after the distance from universal time at its front, if there is one. -/
def skipOffset : List Char → List Char
  | 'Z' :: rest => rest
  | 'z' :: rest => rest
  | cs =>
      match offset? cs with
      | some rest => rest
      | none => cs
where
  /-- Scans a sign, hours and minutes. -/
  offset? (cs : List Char) : Option (List Char) := do
    let rest ← expect? '+' cs <|> expect? '-' cs
    let (_, rest) ← digitsWithin? 2 0 23 rest
    let (_, rest) ← digitsWithin? 2 0 59 (← expect? ':' rest)
    return rest

/-- Scans a date, a time, or both; both may have a distance from universal time. -/
def moment? (cs : List Char) : Option (List Char) :=
  match date? cs with
  | some rest =>
      match rest with
      | c :: later =>
          if c == 'T' || c == 't' || c == ' ' then
            match time? later with
            | some last => some (skipOffset last)
            | none => some rest
          else some rest
      | [] => some rest
  | none => time? cs

/-! ## All of them -/

/-- A character of a bare literal. -/
def isLiteralChar (c : Char) : Bool :=
  c.isAlphanum || c == '+' || c == '-' || c == '_' || c == '.'

/-- The value of a bare literal that is no date. -/
def bareValue? (cs : List Char) : Option Value :=
  if cs == ['t', 'r', 'u', 'e'] then some (.flag true)
  else if cs == ['f', 'a', 'l', 's', 'e'] then some (.flag false)
  else if isFraction cs || isNonFinite cs then some .other
  else (integer? cs).map Value.integer

/-- Scans a bare literal. -/
def literal? : Scan Value := fun cs =>
  match moment? cs with
  | some rest => some (.other, rest)
  | none => (bareValue? (cs.takeWhile isLiteralChar)).map (·, cs.dropWhile isLiteralChar)

end EquationPractice.Toml
