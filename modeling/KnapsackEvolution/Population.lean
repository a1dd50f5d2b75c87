/-
# Populations

A population is a row of individuals in numbered slots.  Chunked work on it goes one of two ways:
the population is shared and fitness values are written back chunk by chunk (`recordFitness`), or
the individuals of the chunks are moved out (`takeChunks`) and later appended again in the order of
their slots (`restoreChunks`).  Writing back and moving out change a population in place; they are
also here as operations on a state (`recordInPlace`, `moveOut`).

What reads, writes or splits a population at a slot is checked before (`recordFitnessM`, `bestM`,
`takeChunksM`); the operations without that ending are the same without checks.
-/
import KnapsackEvolution.Chunk
import KnapsackEvolution.Individual

namespace KnapsackEvolution

/-- Individuals in slots numbered from zero. -/
structure Population where
  individuals : List Individual
deriving DecidableEq

namespace Population

/-- How many individuals there are. -/
def size (p : Population) : Nat := p.individuals.length

/-- The individual in a slot. -/
def get? (p : Population) (slot : Nat) : Option Individual := p.individuals[slot]?

/-- The individual in a slot; there is none past the last slot. -/
def get (p : Population) (slot : Nat) : Except Fault Individual :=
  match p.get? slot with
  | some i => .ok i
  | none => .error (.indexOutOfBounds p.size slot)

/-! ## Accesses -/

section Accesses

variable {m : Type → Type} [Monad m] [Checks m]

/-- The individual in a slot, which must be there. -/
def readM (p : Population) (slot : Nat) : m (Option Individual) := do
  check (slot < p.size) (.indexOutOfBounds p.size slot)
  return p.get? slot

/-- Writes fitness values into the slots of a chunk from its first slot on, as far as both go. -/
def overwriteM (p : Population) (c : Chunk) (values : List Fitness) : m Population := do
  check (c.stop ≤ p.size) (.headOutOfRange c.stop p.size)
  let slots := (p.individuals.drop c.start).take c.size
  return ⟨p.individuals.take c.start ++ List.zipWith Individual.record slots values
    ++ slots.drop values.length ++ p.individuals.drop c.stop⟩

/-- The individuals before a position and those from there on. -/
def splitAtM (p : Population) (position : Nat) : m (List Individual × List Individual) := do
  check (position ≤ p.size) (.splitOutOfRange position p.size)
  return (p.individuals.take position, p.individuals.drop position)

end Accesses

/-! ## Drawing -/

/-- The next `n` drawn individuals. -/
def drawIndividuals (genes : Nat) : Nat → Sample (List Individual)
  | 0 => pure []
  | n + 1 => do
    let first ← Individual.random genes
    let rest ← drawIndividuals genes n
    return first :: rest

/-- A population of `size` drawn individuals with `genes` genes each. -/
def random (size genes : Nat) : Sample Population := do
  let individuals ← drawIndividuals genes size
  return ⟨individuals⟩

/-! ## Fitness -/

/-- The population with every individual measured. -/
def measureAll (p : Population) (problem : Problem) : Except Fault Population := do
  let individuals ← p.individuals.mapM fun i => i.measure problem
  return ⟨individuals⟩

/-- Writes the values of a chunk into its slots; the chunk must lie in the population and have as
many slots as there are values. -/
def recordFitnessM {m : Type → Type} [Monad m] [Checks m] (p : Population) (c : Chunk)
    (values : List Fitness) : m (Except Error Population) :=
  if c.stop ≤ p.size ∧ c.size = values.length then do
    let q ← p.overwriteM c values
    return .ok q
  else return .error (.evolution (.misfitFitness c.start c.stop values.length p.size))

/-- `recordFitnessM` without checks. -/
def recordFitness (p : Population) (c : Chunk) (values : List Fitness) :
    Except Error Population :=
  Id.run (p.recordFitnessM c values)

/-- Writes values into the slots from `slot` on, one after the other. -/
def writeFrom (p : Population) (slot : Nat) : List Fitness → Population
  | [] => p
  | f :: rest => writeFrom ⟨p.individuals.modify slot (·.record f)⟩ (slot + 1) rest

/-- Recording the values of a chunk as an operation that changes a population in place.  The chunk
is checked before the first value is written. -/
def recordInPlace (c : Chunk) (values : List Fitness) : ExceptT Error (StateM Population) Unit := do
  let p ← getThe Population
  if c.stop ≤ p.size ∧ c.size = values.length then
    set (p.writeFrom c.start values)
  else throw (.evolution (.misfitFitness c.start c.stop values.length p.size))

/-- Goes on looking for the fittest individual from `slot` on, given the best slot before it. -/
def bestFrom (slot : Nat) (best : Option (Nat × Fitness)) :
    List Individual → Except Error (Option (Nat × Fitness))
  | [] => .ok best
  | i :: rest => do
    let f ← i.fitness
    match best with
    | none => bestFrom (slot + 1) (some (slot, f)) rest
    | some (bestSlot, bestFitness) =>
      if bestFitness < f then bestFrom (slot + 1) (some (slot, f)) rest
      else bestFrom (slot + 1) (some (bestSlot, bestFitness)) rest

/-- The first slot with the greatest fitness; every individual must have been measured. -/
def bestIndex (p : Population) : Except Error Nat := do
  match ← bestFrom 0 none p.individuals with
  | some (slot, _) => return slot
  | none => throw .emptyPopulation

/-- The first individual with the greatest fitness. -/
def bestM {m : Type → Type} [Monad m] [Checks m] (p : Population) :
    m (Except Error Individual) :=
  match p.bestIndex with
  | .error e => return .error e
  | .ok slot => do
    match ← p.readM slot with
    | some i => return .ok i
    | none => return .error .emptyPopulation

/-- `bestM` without checks. -/
def best (p : Population) : Except Error Individual := Id.run p.bestM

/-! ## Moving chunks -/

/-- The slot after the last of the chunks, which must continue one another from `expected` on. -/
def contiguousEnd (expected : Nat) : List Chunk → Except Error Nat
  | [] => .ok expected
  | c :: rest =>
    if c.start = expected then contiguousEnd c.stop rest
    else .error (.evolution (.gap c.start c.stop expected))

/-- Deals individuals out to the chunks in order. -/
def deal : List Chunk → List Individual → List (Chunk × List Individual)
  | [], _ => []
  | c :: rest, individuals => (c, individuals.take c.size) :: deal rest (individuals.drop c.size)

/-- Moves the individuals of the chunks out of the population.  The chunks must continue one
another and end where the population ends; whoever sits before the first chunk stays. -/
def takeChunksM {m : Type → Type} [Monad m] [Checks m] (p : Population) (chunks : List Chunk) :
    m (Except Error (List (Chunk × List Individual) × Population)) :=
  match chunks with
  | [] => return .ok ([], p)
  | first :: _ =>
    match contiguousEnd first.start chunks with
    | .error e => return .error e
    | .ok stop =>
      if stop = p.size then do
        let (before, behind) ← p.splitAtM first.start
        return .ok (deal chunks behind, ⟨before⟩)
      else return .error (.evolution (.wrongEnd stop p.size))

/-- `takeChunksM` without checks. -/
def takeChunks (p : Population) (chunks : List Chunk) :
    Except Error (List (Chunk × List Individual) × Population) :=
  Id.run (p.takeChunksM chunks)

/-- Moving chunks out as an operation that changes a population in place.  The chunks are checked
before anyone is moved. -/
def moveOut (chunks : List Chunk) :
    ExceptT Error (StateM Population) (List (Chunk × List Individual)) :=
  match chunks with
  | [] => return []
  | first :: _ => do
    let stop ← ExceptT.mk (pure (contiguousEnd first.start chunks))
    let p ← getThe Population
    if stop = p.size then
      set (Population.mk (p.individuals.take first.start))
      return deal chunks (p.individuals.drop first.start)
    else throw (.evolution (.wrongEnd stop p.size))

/-- Appends the individuals of chunks, each of which must start at the end reached so far and have
as many slots as individuals.  The chunks before a refused one stay appended. -/
def restoreChunks (p : Population) :
    List (Chunk × List Individual) → Except Error Unit × Population
  | [] => (.ok (), p)
  | (c, individuals) :: rest =>
    if c.start = p.size ∧ c.size = individuals.length then
      restoreChunks ⟨p.individuals ++ individuals⟩ rest
    else
      (.error (.evolution (.misfitIndividuals c.start c.stop individuals.length p.size)), p)

end Population

end KnapsackEvolution
