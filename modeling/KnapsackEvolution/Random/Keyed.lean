/-
# Generators by key

Work that is cut into chunks must not share one generator, or its result would hang on the order
in which the chunks run.  Each chunk of each phase of each generation has a key instead, and a
factory makes the generator of a key.  A seeded factory stirs the parts of the key into its base
one after the other by a permutation of the 64-bit words, so keys that differ in one part start
at different seeds.
-/
import KnapsackEvolution.Random.Generator

namespace KnapsackEvolution

/-- What a generator is used for. -/
inductive Phase where
  | init
  | evaluate
  | crossover
  | mutate
deriving DecidableEq

/-- The number of a phase; no two phases share one. -/
def Phase.tag : Phase → UInt64
  | init => 0x11
  | evaluate => 0x23
  | crossover => 0x37
  | mutate => 0x4b

theorem Phase.tag_inj {p q : Phase} (h : p.tag = q.tag) : p = q := by
  cases p <;> cases q <;> first | rfl | exact absurd h (by decide)

/-- One piece of work that needs a generator of its own. -/
structure Key where
  phase : Phase
  generation : UInt64
  /-- The first slot of the chunk. -/
  chunkStart : UInt64
deriving DecidableEq

/-- Makes the generator of a key. -/
abbrev Factory := Key → Generator

/-- Nanoseconds on a clock, read when the generator of a key is made. -/
abbrev Clock := Key → UInt64

/-- A permutation of the 64-bit words that spreads small differences over all bits. -/
def stir (word : UInt64) : UInt64 :=
  let z := word + 0x9E3779B97F4A7C15
  let z := (z ^^^ (z >>> 30)) * 0xBF58476D1CE4E5B9
  let z := (z ^^^ (z >>> 27)) * 0x94D049BB133111EB
  z ^^^ (z >>> 31)

/-- The seed that belongs to a key under a base seed. -/
def Key.seed (base : UInt64) (key : Key) : UInt64 :=
  stir (stir (stir (base ^^^ key.phase.tag) ^^^ key.generation) ^^^ key.chunkStart)

/-- The seed that a clock gives to a key: chunks made in the same tick are a millisecond apart. -/
def Key.clockSeed (clock : Clock) (key : Key) : UInt64 :=
  clock key + key.chunkStart * 1000000

namespace Factory

/-- Derives every generator from a base seed, so that equal keys give equal streams. -/
def seeded (base : UInt64) : Factory := fun key => .ofSeed (key.seed base)

/-- Seeds every generator from a clock. -/
def clocked (clock : Clock) : Factory := fun key => .ofSeed (key.clockSeed clock)

/-- Gives the stream of one seed to every key. -/
def fixed (seed : UInt64) : Factory := fun _ => .ofSeed seed

end Factory

end KnapsackEvolution
