/-
# Generators and draws

A generator is a place in the word stream of a seed.  Every draw reads whole 64-bit words off the
stream: a coin and a chance read one, an index reads words until one falls into the part of the
64-bit range that divides evenly.  So the state after a draw depends on how many words it read and
on nothing else, and a copied generator repeats its draws.
-/
import KnapsackEvolution.Error
import KnapsackEvolution.Random.ChaCha

namespace KnapsackEvolution

/-- A place in the word stream of a key. -/
structure Generator where
  /-- The key of the stream. -/
  key : Vector UInt32 8
  /-- The number of the first block that has not been started. -/
  counter : UInt64
  /-- The words of the block before it that have not been drawn. -/
  pending : List UInt64
deriving DecidableEq

/-- A draw that always gives a value. -/
abbrev Sample := StateM Generator

/-- A draw that may fail; the generator stays where the draw left it, whatever the outcome. -/
abbrev Draw := ExceptT Failure (StateM Generator)

/-- A computation that only returns errors is a draw that reads no words. -/
instance : MonadLift (Except Error) Draw where
  monadLift x := ExceptT.mk (pure (x.mapError .error))

/-- A computation that only runs into faults is a draw that reads no words. -/
instance : MonadLift (Except Fault) Draw where
  monadLift x := ExceptT.mk (pure (x.mapError .fault))

namespace Generator

/-- The start of the stream of a seed. -/
def ofSeed (seed : UInt64) : Generator :=
  ⟨Vector.ofFn fun i => (KeySpread.words 8 seed)[i.val]?.getD 0, 0, []⟩

/-- The next word of the stream. -/
def nextWord : Sample UInt64 := fun g =>
  match g.pending with
  | word :: rest => (word, { g with pending := rest })
  | [] =>
    let words := ChaCha.wordsOf g.key g.counter
    (words.1, { g with counter := g.counter + 1, pending := words.2 })

/-- A fair coin: the top bit of a word is clear. -/
def coin : Sample Bool := do
  let word ← nextWord
  return decide (word < 0x8000000000000000)

/-- True with probability `p`: the top 53 bits of a word, read as a fraction, lie below `p`. -/
def chance (p : Binary64) : Sample Bool := do
  let word ← nextWord
  return p.exceeds (word >>> 11).toNat

/-- The word is one of the lowest that cover `[0, n)` evenly when it is scaled down to `n`. -/
def accepts (n : Nat) (word : UInt64) : Bool :=
  decide (word.toNat * n % UInt64.size < n <<< (63 - n.log2))

/-- The word scaled down from `[0, 2 ^ 64)` to `[0, n)`. -/
def scaleDown (n : Nat) (n_pos : 0 < n) (word : UInt64) : Fin n :=
  ⟨word.toNat * n / UInt64.size, by
    have h : word.toNat < UInt64.size := word.toNat_lt
    refine Nat.div_lt_of_lt_mul ?_
    exact Nat.mul_lt_mul_of_pos_right h n_pos⟩

/-- The first accepted word among the next `tries` words, scaled down to `[0, n)`; zero if every
one of them is rejected.  The draw itself knows no number of tries, it goes on until a word is
accepted; the limit and the zero behind it only make the recursion end. -/
def indexWithin (n : Nat) (n_pos : 0 < n) : Nat → Sample (Fin n)
  | 0 => pure ⟨0, n_pos⟩
  | tries + 1 => do
    let word ← nextWord
    if accepts n word then return scaleDown n n_pos word else indexWithin n n_pos tries

/-- A uniform index below `n`.  At most half of all words are rejected, so that 256 tries, the limit
set here, are never used up in practice. -/
def below (n : Nat) (n_pos : 0 < n) : Sample (Fin n) := indexWithin n n_pos 256

/-- A uniform index below `n`; there is none to draw if `n` is zero. -/
def index (n : Nat) : Draw Nat :=
  if h : 0 < n then do
    let i ← below n h
    return i.val
  else throw (.fault .emptyRange)

/-- The outcomes of `n` coins. -/
def coins : Nat → Sample (List Bool)
  | 0 => pure []
  | n + 1 => do
    let first ← coin
    let rest ← coins n
    return first :: rest

/-- The next `count` indices below `n`. -/
def indices (n : Nat) : Nat → Draw (List Nat)
  | 0 => pure []
  | count + 1 => do
    let first ← index n
    let rest ← indices n count
    return first :: rest

/-- The next `count` chances at probability `p`. -/
def chances (p : Binary64) : Nat → Sample (List Bool)
  | 0 => pure []
  | count + 1 => do
    let first ← chance p
    let rest ← chances p count
    return first :: rest

end Generator

end KnapsackEvolution
