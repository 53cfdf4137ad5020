import EquationPractice.Sampling.Source

/-!
# The ChaCha generator

A source that hands out the words of the ChaCha keystream with twelve rounds.  The key is expanded
from a 64-bit seed by a PCG generator, the block counter has 64 bits and starts at zero, and the last
two words of the initial state are zero.  A word of 64 bits is made of two consecutive words, the
lower half first.
-/

namespace EquationPractice.ChaCha

/-- The sixteen words that a block is made of. -/
abbrev Block := Vector UInt32 16

/-- Rotates the bits of a word to the left. -/
def rotateLeft (word : UInt32) (count : UInt32) : UInt32 :=
  (word <<< count) ||| (word >>> (32 - count))

/-- Rotates the bits of a word to the right. -/
def rotateRight (word : UInt32) (count : UInt32) : UInt32 :=
  (word >>> count) ||| (word <<< ((32 - count) % 32))

/-- Mixes four words of a block. -/
def quarterRound (a b c d : Fin 16) (block : Block) : Block :=
  let block := block.set a (block[a] + block[b])
  let block := block.set d (rotateLeft (block[d] ^^^ block[a]) 16)
  let block := block.set c (block[c] + block[d])
  let block := block.set b (rotateLeft (block[b] ^^^ block[c]) 12)
  let block := block.set a (block[a] + block[b])
  let block := block.set d (rotateLeft (block[d] ^^^ block[a]) 8)
  let block := block.set c (block[c] + block[d])
  block.set b (rotateLeft (block[b] ^^^ block[c]) 7)

/-- A round over the columns of a block and a round over its diagonals. -/
def doubleRound (block : Block) : Block :=
  quarterRound 3 4 9 14 <| quarterRound 2 7 8 13 <|
    quarterRound 1 6 11 12 <| quarterRound 0 5 10 15 <|
      quarterRound 3 7 11 15 <| quarterRound 2 6 10 14 <|
        quarterRound 1 5 9 13 <| quarterRound 0 4 8 12 block

/-- Applies so many double rounds. -/
def doubleRounds : Nat → Block → Block
  | 0, block => block
  | count + 1, block => doubleRounds count (doubleRound block)

/-- The state from which a block is computed. -/
def initialBlock (key : Vector UInt32 8) (counter : UInt64) : Block :=
  (#v[0x61707865, 0x3320646e, 0x79622d32, 0x6b206574] : Vector UInt32 4) ++ key ++
    (#v[counter.toUInt32, (counter >>> 32).toUInt32, 0, 0] : Vector UInt32 4)

/-- The words of the keystream with a block counter. -/
def keystream (key : Vector UInt32 8) (counter : UInt64) : List UInt32 :=
  let start := initialBlock key counter
  (Vector.zipWith (· + ·) (doubleRounds 6 start) start).toList

/-! ## The key of a seed -/

/-- Advances the state from which the key is expanded. -/
def advanceSeed (state : UInt64) : UInt64 :=
  state * 6364136223846793005 + 11634580027462260723

/-- The key word of a state. -/
def keyWord (state : UInt64) : UInt32 :=
  rotateRight (((state >>> 18) ^^^ state) >>> 27).toUInt32 (state >>> 59).toUInt32

/-- The key of a seed. -/
def keyOfSeed (seed : UInt64) : Vector UInt32 8 :=
  Vector.ofFn fun i => keyWord (Nat.repeat advanceSeed (i.val + 1) seed)

end ChaCha

/-- A place in the keystream of a key: the words left of the current block and the counter of the
next one. -/
structure ChaCha where
  key : Vector UInt32 8
  counter : UInt64
  pending : List UInt32

namespace ChaCha

/-- The beginning of the keystream of a seed. -/
def ofSeed (seed : UInt64) : ChaCha :=
  ⟨keyOfSeed seed, 0, []⟩

/-- The next word of the keystream. -/
def next (source : ChaCha) : UInt32 × ChaCha :=
  match source.pending with
  | word :: rest => (word, { source with pending := rest })
  | [] =>
      match keystream source.key source.counter with
      | word :: rest => (word, { source with counter := source.counter + 1, pending := rest })
      | [] => (0, source)

instance : WordSource ChaCha where
  next32 := next
  next64 source :=
    let (low, middle) := source.next
    let (high, last) := middle.next
    (low.toUInt64 ||| (high.toUInt64 <<< 32), last)

end ChaCha

end EquationPractice
