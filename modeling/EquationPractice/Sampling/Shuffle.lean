import EquationPractice.Sampling.Source
import EquationPractice.Expr.Value

/-!
# Even draws and shuffles

A number below a bound is the upper half of the product of a word and the bound.  Words whose lower
half lies beyond the largest multiple of the bound by a power of two are rejected, so every number is
equally likely.  A list is shuffled from its end by exchanging every element with one that does not
stand behind it.
-/

namespace EquationPractice

namespace Draw

/-- The number below `bound` that a word of `bits` bits stands for, unless the word is rejected. -/
def below? (bits bound word : Nat) : Option Nat :=
  let product := word * bound
  let words := Nat.pow 2 bits
  if product % words ≤ bound * Nat.pow 2 (bits - bitLength bound) - 1 then some (product / words)
  else none

variable {σ ε α : Type} [WordSource σ]

/-- Draws a number below a bound from words of 32 bits. -/
def below32 (attempts bound : Nat) : Draw σ ε Nat :=
  redraw word32 (fun word => below? 32 bound word.toNat) attempts

/-- Draws a number below a bound from words of 64 bits. -/
def below64 (attempts bound : Nat) : Draw σ ε Nat :=
  redraw word64 (fun word => below? 64 bound word.toNat) attempts

/-- Shuffles the first so many elements. -/
def shuffleFirst (attempts : Nat) : Nat → Array α → Draw σ ε (Array α)
  | 0, items | 1, items => pure items
  | last + 2, items => do
      let other ← below32 attempts (last + 2)
      shuffleFirst attempts (last + 1) (items.swapIfInBounds (last + 1) other)

/-- Shuffles a list. -/
def shuffle (attempts : Nat) (items : List α) : Draw σ ε (List α) := do
  return (← shuffleFirst attempts items.length items.toArray).toList

end Draw

end EquationPractice
