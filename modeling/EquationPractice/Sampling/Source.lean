/-!
# Sources of random words

A source hands out words of 32 and of 64 bits.  What is drawn from it is a computation that may fail
with an error of the domain, and that may also end without a result: a draw that keeps rejecting
words gives up after as many attempts as it was allowed.

## Main definitions

* `WordSource`: what a source can do.
* `Draw`: a computation that draws from a source.
* `redraw`: draws words until one is accepted.
-/

namespace EquationPractice

/-- A source of random words. -/
class WordSource (σ : Type) where
  next32 : σ → UInt32 × σ
  next64 : σ → UInt64 × σ

/-- A computation that draws from a source.  No result at all means that some draw used up its
attempts; an error leaves the source as it was when the error arose. -/
abbrev Draw (σ ε : Type) := ExceptT ε (StateT σ Option)

namespace Draw

variable {σ ε α : Type}

/-- The outcome of a computation and the source after it. -/
def outcome (draw : Draw σ ε α) (source : σ) : Option (Except ε α × σ) :=
  (ExceptT.run draw).run source

/-- A computation from its outcomes. -/
def ofOutcome (f : σ → Option (Except ε α × σ)) : Draw σ ε α :=
  ExceptT.mk f

/-- The same computation with its errors renamed. -/
def mapError {δ : Type} (f : ε → δ) (draw : Draw σ ε α) : Draw σ δ α :=
  ofOutcome fun source =>
    (draw.outcome source).map fun (result, next) => (result.mapError f, next)

variable [WordSource σ]

/-- The next word of 32 bits. -/
def word32 : Draw σ ε UInt32 :=
  ofOutcome fun source => let (word, next) := WordSource.next32 source; some (.ok word, next)

/-- The next word of 64 bits. -/
def word64 : Draw σ ε UInt64 :=
  ofOutcome fun source => let (word, next) := WordSource.next64 source; some (.ok word, next)

/-- Draws words until one is accepted. -/
def redraw {word : Type} (draw : Draw σ ε word) (accept : word → Option α) : Nat → Draw σ ε α
  | 0 => ofOutcome fun _ => none
  | attempts + 1 => do
      match accept (← draw) with
      | some value => pure value
      | none => redraw draw accept attempts

/-- A coin: true for the lower half of the 64-bit words. -/
def coin : Draw σ ε Bool := do
  return (← word64).toNat < UInt64.size / 2

end Draw

end EquationPractice
