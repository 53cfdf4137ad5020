import EquationPractice.Sampling.Source

/-!
# A feed of listed words

A source that hands out listed 64-bit words first and then the words of the SplitMix64 generator.  It
counts the words it has handed out.  A word of 32 bits is the lower half of a word of 64 bits.
-/

namespace EquationPractice

/-- Advances the state of the SplitMix64 generator. -/
def SplitMix.advance (state : UInt64) : UInt64 :=
  state + 0x9E3779B97F4A7C15

/-- The word that the SplitMix64 generator makes of a state. -/
def SplitMix.mix (state : UInt64) : UInt64 :=
  let z := (state ^^^ (state >>> 30)) * 0xBF58476D1CE4E5B9
  let z := (z ^^^ (z >>> 27)) * 0x94D049BB133111EB
  z ^^^ (z >>> 31)

/-- Listed words, the generator after them, and the number of words handed out. -/
structure WordFeed where
  listed : List UInt64
  state : UInt64
  drawn : Nat

namespace WordFeed

/-- The feed that begins with these words and goes on from this seed. -/
def ofWords (words : List UInt64) (seed : UInt64) : WordFeed :=
  ⟨words, seed, 0⟩

/-- The next word. -/
def next (feed : WordFeed) : UInt64 × WordFeed :=
  match feed.listed with
  | word :: rest => (word, { feed with listed := rest, drawn := feed.drawn + 1 })
  | [] =>
      let state := SplitMix.advance feed.state
      (SplitMix.mix state, { feed with state, drawn := feed.drawn + 1 })

instance : WordSource WordFeed where
  next32 feed := let (word, rest) := feed.next; (word.toUInt32, rest)
  next64 := next

end WordFeed

end EquationPractice
