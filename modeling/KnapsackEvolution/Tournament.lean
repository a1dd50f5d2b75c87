/-
# Tournaments

A tournament draws contestants from a pool, with repetition, and the fittest of them wins; of
several equally fit contestants the one drawn first.  A contestant that has not been measured ends
the tournament at once.
-/
import KnapsackEvolution.Individual

namespace KnapsackEvolution

/-- A way of choosing parents: tournaments of a fixed number of contestants. -/
structure Tournament where
  size : UInt64
deriving DecidableEq

namespace Tournament

/-- Tournaments of three. -/
def default : Tournament := ⟨3⟩

/-- Tournaments of at least one contestant. -/
def ofSize (size : UInt64) : Except Error Tournament :=
  if size = 0 then .error (.configuration .emptyTournament) else .ok ⟨size⟩

/-- Draws a slot of the pool and reads the fitness in it. -/
def contestant (pool : Array Individual) (pool_pos : 0 < pool.size) :
    Draw (Fin pool.size × Fitness) := do
  let slot ← Generator.below pool.size pool_pos
  let f ← pool[slot].fitness
  return (slot, f)

/-- Draws `rounds` further contestants against the best one so far; only a strictly fitter one
takes its place. -/
def contest (pool : Array Individual) (pool_pos : 0 < pool.size) :
    Nat → Fin pool.size × Fitness → Draw (Fin pool.size)
  | 0, best => return best.1
  | rounds + 1, best => do
    let other ← contestant pool pool_pos
    if best.2 < other.2 then contest pool pool_pos rounds other
    else contest pool pool_pos rounds best

/-- The slot of the winner of one tournament. -/
def winner (t : Tournament) (pool : Array Individual) : Draw (Fin pool.size) :=
  if pool_pos : 0 < pool.size then
    match t.size.toNat with
    | 0 => throw (.error (.configuration .emptyTournament))
    | rounds + 1 => do
      let first ← contestant pool pool_pos
      contest pool pool_pos rounds first
  else throw (.error .emptyPopulation)

/-- The winner of one tournament. -/
def select (t : Tournament) (pool : Array Individual) : Draw Individual := do
  let slot ← t.winner pool
  return pool[slot]

end Tournament

end KnapsackEvolution
