/-
# The word stream of a seed

A 64-bit seed is spread over a 256-bit key by eight steps of a permuted congruential generator.
The stream of the seed is the ChaCha keystream of that key: twelve rounds for each block of
sixteen 32-bit words, a 64-bit block counter from zero, and a nonce of zeros.  Two neighbouring
32-bit words make one 64-bit word, low half first.
-/

namespace KnapsackEvolution

/-! ## Spreading a seed -/

namespace KeySpread

/-- One step of the 64-bit linear congruential generator. -/
def advance (state : UInt64) : UInt64 :=
  state * 6364136223846793005 + 11634580027462260723

/-- Rotation of a 32-bit word to the right. -/
def rotateRight (x n : UInt32) : UInt32 := (x >>> n) ||| (x <<< ((32 - n) % 32))

/-- The 32-bit word read off a state: the top bits say how far the others are rotated. -/
def output (state : UInt64) : UInt32 :=
  rotateRight ((((state >>> 18) ^^^ state) >>> 27).toUInt32) (state >>> 59).toUInt32

/-- The first `n` words after a state. -/
def words : Nat → UInt64 → List UInt32
  | 0, _ => []
  | n + 1, state =>
    let state := advance state
    output state :: words n state

end KeySpread

/-! ## Blocks -/

namespace ChaCha

/-- The sixteen words that the rounds stir. -/
abbrev Block := Vector UInt32 16

/-- Rotation of a 32-bit word to the left, by fewer than 32 places. -/
def rotateLeft (x n : UInt32) : UInt32 := (x <<< n) ||| (x >>> (32 - n))

/-- The quarter round on four of the words. -/
def quarterRound (s : Block) (a b c d : Fin 16) : Block :=
  let s := s.set a (s[a] + s[b])
  let s := s.set d (rotateLeft (s[d] ^^^ s[a]) 16)
  let s := s.set c (s[c] + s[d])
  let s := s.set b (rotateLeft (s[b] ^^^ s[c]) 12)
  let s := s.set a (s[a] + s[b])
  let s := s.set d (rotateLeft (s[d] ^^^ s[a]) 8)
  let s := s.set c (s[c] + s[d])
  s.set b (rotateLeft (s[b] ^^^ s[c]) 7)

/-- A round on the columns and a round on the diagonals. -/
def doubleRound (s : Block) : Block :=
  let s := quarterRound s 0 4 8 12
  let s := quarterRound s 1 5 9 13
  let s := quarterRound s 2 6 10 14
  let s := quarterRound s 3 7 11 15
  let s := quarterRound s 0 5 10 15
  let s := quarterRound s 1 6 11 12
  let s := quarterRound s 2 7 8 13
  quarterRound s 3 4 9 14

/-- Six double rounds make the twelve rounds. -/
def rounds : Nat → Block → Block
  | 0, s => s
  | n + 1, s => rounds n (doubleRound s)

/-- The block before the rounds: four constants, the key, the counter, a nonce of zeros. -/
def start (key : Vector UInt32 8) (counter : UInt64) : Block :=
  #v[0x61707865, 0x3320646e, 0x79622d32, 0x6b206574,
    key[0], key[1], key[2], key[3], key[4], key[5], key[6], key[7],
    counter.toUInt32, (counter >>> 32).toUInt32, 0, 0]

/-- The keystream block with the given number. -/
def block (key : Vector UInt32 8) (counter : UInt64) : Block :=
  let s := start key counter
  (rounds 6 s).zipWith (· + ·) s

/-- Two neighbouring 32-bit words as one 64-bit word, low half first. -/
def join (low high : UInt32) : UInt64 := low.toUInt64 ||| (high.toUInt64 <<< 32)

/-- The keystream block with the given number as 64-bit words, the first one apart. -/
def wordsOf (key : Vector UInt32 8) (counter : UInt64) : UInt64 × List UInt64 :=
  let b := block key counter
  (join b[0] b[1], [join b[2] b[3], join b[4] b[5], join b[6] b[7], join b[8] b[9],
    join b[10] b[11], join b[12] b[13], join b[14] b[15]])

end ChaCha

end KnapsackEvolution
