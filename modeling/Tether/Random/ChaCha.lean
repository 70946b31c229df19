/-!
# A stream of random words

`RandomStream` gives the words of the ChaCha block function with eight rounds, in order of
blocks and within a block in order of words. The key comes from a 64-bit seed : eight words of
a linear congruential generator whose state is permuted before it is given out (`expandSeed`).
The block counter has 64 bits and starts at zero, and the nonce is zero.
-/

namespace Tether

/-! ## The key of a seed -/

/-- One step of the congruential generator. -/
def seedStep (state : UInt64) : UInt64 := state * 6364136223846793005 + 11634580027462260723

/-- Rotate a word right. -/
def rotateRight (x : UInt32) (n : UInt32) : UInt32 := (x >>> n) ||| (x <<< (32 - n))

/-- Rotate a word left. -/
def rotateLeft (x : UInt32) (n : UInt32) : UInt32 := (x <<< n) ||| (x >>> (32 - n))

/-- The word that a state gives : its high bits folded together and rotated by its top
bits. -/
def seedWord (state : UInt64) : UInt32 :=
  let folded := (((state >>> 18) ^^^ state) >>> 27).toUInt32
  let turn := (state >>> 59).toUInt32
  if turn = 0 then folded else rotateRight folded turn

/-- The next `n` words of a state. -/
def expandSeed : Nat → UInt64 → List UInt32
  | 0, _ => []
  | n + 1, state => let state := seedStep state; seedWord state :: expandSeed n state

/-! ## The block function -/

/-- The sixteen words that a block is computed from and ends in. -/
abbrev Block := Array UInt32

/-- The word at a place of a block. -/
def Block.word (b : Block) (i : Nat) : UInt32 := b[i]?.getD 0

/-- One quarter round on four places. -/
def quarterRound (b : Block) (i j k l : Nat) : Block :=
  let x₀ := b.word i
  let y₀ := b.word j
  let z₀ := b.word k
  let w₀ := b.word l
  let x₁ := x₀ + y₀
  let w₁ := rotateLeft (w₀ ^^^ x₁) 16
  let z₁ := z₀ + w₁
  let y₁ := rotateLeft (y₀ ^^^ z₁) 12
  let x₂ := x₁ + y₁
  let w₂ := rotateLeft (w₁ ^^^ x₂) 8
  let z₂ := z₁ + w₂
  let y₂ := rotateLeft (y₁ ^^^ z₂) 7
  (((b.setIfInBounds i x₂).setIfInBounds j y₂).setIfInBounds k z₂).setIfInBounds l w₂

/-- A round down the columns and a round along the diagonals. -/
def doubleRound (b : Block) : Block :=
  let b := quarterRound b 0 4 8 12
  let b := quarterRound b 1 5 9 13
  let b := quarterRound b 2 6 10 14
  let b := quarterRound b 3 7 11 15
  let b := quarterRound b 0 5 10 15
  let b := quarterRound b 1 6 11 12
  let b := quarterRound b 2 7 8 13
  quarterRound b 3 4 9 14

/-- The four words that every block begins with. -/
def constants : List UInt32 := [0x61707865, 0x3320646e, 0x79622d32, 0x6b206574]

/-- The block that a key and a counter begin with : four constants, the key, the counter and
a zero nonce. -/
def initialBlock (key : List UInt32) (counter : UInt64) : Block :=
  (constants ++ key ++ [counter.toUInt32, (counter >>> 32).toUInt32, 0, 0]).toArray

/-- The words of a block : eight rounds, added to what they began with. -/
def blockWords (key : List UInt32) (counter : UInt64) : List UInt32 :=
  let start := initialBlock key counter
  let rounds := doubleRound (doubleRound (doubleRound (doubleRound start)))
  List.zipWith (· + ·) start.toList rounds.toList

/-! ## The stream -/

/-- A stream of words. -/
structure RandomStream where
  key : List UInt32
  /-- The next block. -/
  counter : UInt64 := 0
  /-- Words of the last block that were not given out yet. -/
  ready : List UInt32 := []
  deriving Inhabited

namespace RandomStream

/-- The stream of a seed. -/
def ofSeed (seed : UInt64) : RandomStream := { key := expandSeed 8 seed }

/-- The next word. -/
def nextWord (s : RandomStream) : UInt32 × RandomStream :=
  match s.ready with
  | w :: rest => (w, { s with ready := rest })
  | [] =>
    let words := blockWords s.key s.counter
    (words.headD 0, { s with counter := s.counter + 1, ready := words.tail })

/-- The next two words as one, the low half first. -/
def next (s : RandomStream) : UInt64 × RandomStream :=
  let (low, s) := s.nextWord
  let (high, s) := s.nextWord
  (low.toUInt64 ||| (high.toUInt64 <<< 32), s)

end RandomStream

end Tether
