import EquationPractice.Expr.Basic

/-!
# The exact value of a constant expression

A constant expression is evaluated in the field of rational numbers.  Powers are limited twice: the
exponent is an integer of magnitude at most `maxExponent`, and the binary size of the base times that
magnitude is at most `maxPowerBits`.  Without these limits a short text such as `9^9^9^9` would
denote a number too large to write down.

## Main definitions

* `Expr.exactPow?`: a power of two rational numbers, where it is defined and within the limits.
* `Expr.value?`: the value of an expression without variables.
-/

namespace EquationPractice

/-- The number of binary digits; zero has none. -/
def bitLength (n : Nat) : Nat :=
  if n = 0 then 0 else n.log2 + 1

/-- The binary size of a fraction in lowest terms: the bits of its numerator and denominator. -/
def bitSize (q : Rat) : Nat :=
  bitLength q.num.natAbs + bitLength q.den

namespace Expr

/-- The largest magnitude of an exponent that is evaluated. -/
def maxExponent : Nat := 64

/-- The largest binary size of a power that is evaluated. -/
def maxPowerBits : Nat := 4096

/-- The power of two numbers: the exponent must be an integer within the limits, and zero has no
negative powers. -/
def exactPow? (base exponent : Rat) : Option Rat :=
  if exponent.den ≠ 1 then none
  else if maxExponent < exponent.num.natAbs then none
  else if maxPowerBits < bitSize base * exponent.num.natAbs then none
  else if exponent.num < 0 then
    if base = 0 then none else some (base ^ exponent.num.natAbs)⁻¹
  else some (base ^ exponent.num.natAbs)

/-- The exact value of an expression: none when it mentions a variable, divides by zero, or holds a
power that `exactPow?` does not give. -/
def value? : Expr → Option Rat
  | number q => some q
  | var _ => none
  | add l r => do return (← l.value?) + (← r.value?)
  | sub l r => do return (← l.value?) - (← r.value?)
  | mul l r => do return (← l.value?) * (← r.value?)
  | div l r => do
      let denominator ← r.value?
      if denominator = 0 then none else return (← l.value?) / denominator
  | pow b x => do exactPow? (← b.value?) (← x.value?)
  | neg e => do return -(← e.value?)

end Expr

end EquationPractice
