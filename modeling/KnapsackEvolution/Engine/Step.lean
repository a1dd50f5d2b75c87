/-
# Generations

One generation measures the population, keeps its fittest individual as the elite, breeds a child
for every other slot from two tournaments each, and mutates the children.  Measuring, breeding and
mutating are cut into chunks and given to the executor; a lost chunk ends the generation with its
error.

Until the last step nothing but the measured fitness changes the engine: the new population takes
the place of the old one only when it is complete.

The phases that read, write or split a population are given once for any checks on these accesses,
under names that end in `M`.  `step` and `run` are what comes of them without checks; `stepOrFault`
and `runOrFault` are the same phases with every access checked.
-/
import KnapsackEvolution.Engine.Basic

namespace KnapsackEvolution

/-- Writes the fitness values of chunks into a population one after the other; the chunks before a
refused one stay written. -/
def Population.recordChunksM {m : Type → Type} [Monad m] [Checks m] (p : Population) :
    List (Chunk × List Fitness) → m (Except Error Unit × Population)
  | [] => return (.ok (), p)
  | (c, values) :: rest => do
    match ← p.recordFitnessM c values with
    | .ok p => recordChunksM p rest
    | .error e => return (.error e, p)

/-- `recordChunksM` without checks. -/
def Population.recordChunks (p : Population) (items : List (Chunk × List Fitness)) :
    Except Error Unit × Population :=
  Id.run (p.recordChunksM items)

/-! ## Chunk functions -/

/-- The scores of the individuals in a chunk. -/
def scoreChunk (problem : Problem) (population : Population) :
    ChunkFunction Unit (List Fitness) := fun c _ =>
  ((population.individuals.drop c.start).take c.size).mapM
    (fun i => (problem.score i.genes).mapError Failure.fault)

/-- The children for the next `n` slots, each one from two winners of tournaments. -/
def breed (t : Tournament) (pool : Array Individual) : Nat → Draw (List Individual)
  | 0 => pure []
  | n + 1 => do
    let first ← t.select pool
    let second ← t.select pool
    let child ← first.cross second
    let rest ← breed t pool n
    return child :: rest

/-- The children for the slots of a chunk. -/
def breedChunk (generators : Factory) (generation : Nat) (t : Tournament)
    (pool : Array Individual) : ChunkFunction Unit (List Individual) := fun c _ =>
  ((breed t pool c.size).run (generators ⟨.crossover, generation.toUInt64, c.start.toUInt64⟩)).1

/-- Mutates each individual with probability `p`. -/
def mutateEach (p : Binary64) : List Individual → Draw (List Individual)
  | [] => pure []
  | i :: rest => do
    let first ← if ← Generator.chance p then i.mutate else pure i
    let rest ← mutateEach p rest
    return first :: rest

/-- The individuals of a chunk after mutation. -/
def mutateChunk (generators : Factory) (generation : Nat) (p : Binary64) :
    ChunkFunction (List Individual) (List Individual) := fun c individuals =>
  ((mutateEach p individuals).run
    (generators ⟨.mutate, generation.toUInt64, c.start.toUInt64⟩)).1

/-- What a completed generation has to show. -/
structure Report where
  /-- How many generations have been completed, this one counted. -/
  generation : Nat
  bestFitness : Fitness
  /-- The fittest individual of the old population, now in slot zero. -/
  elite : Individual
deriving DecidableEq

namespace Engine

variable {ε : Type} [Executor ε]

/-- The report of a phase, at the level that reports phases. -/
def phaseEvents (e : Engine ε) (stage : Stage) (chunks : Nat) : List Event :=
  if e.options.logLevel = .verbose then [.phaseComplete e.generation stage chunks] else []

/-- The report of a generation, at the levels that report generations. -/
def generationEvents (e : Engine ε) (bestFitness : Fitness) : List Event :=
  if e.options.logLevel = .none then [] else [.generationComplete e.generation bestFitness]

/-- The slots of a population from `start` on in chunks of the configured size. -/
def chunksFrom (e : Engine ε) (start : Nat) (p : Population) : Except Error (List Chunk) :=
  partition p.size start e.options.chunkSize.toNat

/-- Gives jobs to the executor and collects the values. -/
def dispatch {P T : Type} (e : Engine ε) (jobs : List (Chunk × P)) (process : ChunkFunction P T) :
    Turn ε (List (Chunk × T)) :=
  let (outcomes, executor) := Executor.execute e.executor jobs process
  ⟨Outcome.collect outcomes, { e with executor := executor }, []⟩

/-! ## Phases -/

/-- Measuring, once the values of so many chunks have been recorded as far as they fit. -/
def recorded (e : Engine ε) (chunks : Nat) : Except Error Unit × Population → Turn ε Unit
  | (.error error, population) => .failed { e with population := population } error
  | (.ok (), population) =>
    .done { e with population := population } () (e.phaseEvents .evaluate chunks)

/-- Choosing the fittest individual, once it has been looked for. -/
def elected (e : Engine ε) (best : Except Error Individual) : Turn ε (Individual × Fitness) :=
  match (do
    let elite ← best
    let fitness ← elite.fitness
    return (elite, fitness)) with
  | .error error => .failed e error
  | .ok elite => .done e elite (e.phaseEvents .select 1)

/-- Breeds the children for all slots but the first. -/
def crossover (e : Engine ε) : Turn ε (List (Chunk × List Individual)) :=
  match e.chunksFrom 1 e.population with
  | .error error => .failed e error
  | .ok chunks =>
    (e.dispatch (chunks.map fun c => (c, ()))
      (breedChunk e.generators e.generation ⟨e.options.tournamentSize⟩
        e.population.individuals.toArray)).andThen
      fun e children => .done e children (e.phaseEvents .crossover chunks.length)

/-- Mutating, once the individuals have been moved out in chunks: they are mutated and appended
again to those who stayed. -/
def mutated (e : Engine ε) :
    Except Error (List Chunk × List (Chunk × List Individual) × Population) → Turn ε Population
  | .error error => .failed e error
  | .ok (chunks, jobs, rest) =>
    (e.dispatch jobs
      (mutateChunk e.generators e.generation e.options.mutationProbability)).andThen
      fun e mutants =>
        match rest.restoreChunks mutants with
        | (.error error, _) => .failed e error
        | (.ok (), next) => .done e next (e.phaseEvents .mutate chunks.length)

/-- Puts a complete new population in the place of the old one. -/
def succeed (e : Engine ε) (next : Population) (elite : Individual) (bestFitness : Fitness) :
    Turn ε Report :=
  if next.size = e.options.populationSize.toNat then
    let e := { e with population := next, generation := e.generation + 1 }
    .done e ⟨e.generation, bestFitness, elite⟩ (e.generationEvents bestFitness)
  else
    .failed e (.evolution (.wrongSize e.generation next.size e.options.populationSize.toNat))

section Checked

variable {m : Type → Type} [Monad m] [Checks m]

/-- Measures every individual.  A lost chunk leaves the population as it was. -/
def evaluateM (e : Engine ε) : m (Turn ε Unit) :=
  match e.chunksFrom 0 e.population with
  | .error error => return .failed e error
  | .ok chunks =>
    (e.dispatch (chunks.map fun c => (c, ())) (scoreChunk e.problem e.population)).andThenM
      fun e values => return e.recorded chunks.length (← e.population.recordChunksM values)

/-- Finds the fittest individual and its fitness. -/
def selectEliteM (e : Engine ε) : m (Turn ε (Individual × Fitness)) :=
  return e.elected (← e.population.bestM)

/-- The chunks of all slots but the first with the individuals moved out, and who stays. -/
def mutateJobsM (e : Engine ε) (next : Population) :
    m (Except Error (List Chunk × List (Chunk × List Individual) × Population)) :=
  match e.chunksFrom 1 next with
  | .error error => return .error error
  | .ok chunks => return (← next.takeChunksM chunks).map fun taken => (chunks, taken)

/-- Mutates all slots of a population but the first. -/
def mutateM (e : Engine ε) (next : Population) : m (Turn ε Population) :=
  return e.mutated (← e.mutateJobsM next)

/-! ## Runs -/

/-- Runs one generation. -/
def stepM (e : Engine ε) : m (Turn ε Report) := do
  (← e.evaluateM).andThenM fun e _ => do
  (← e.selectEliteM).andThenM fun e (elite, bestFitness) =>
  e.crossover.andThenM fun e children =>
  match (Population.mk [elite]).restoreChunks children with
  | (.error error, _) => return .failed e error
  | (.ok (), next) => do
    (← e.mutateM next).andThenM fun e next => return e.succeed next elite bestFitness

/-- Runs `more + 1` generations and gives the elite of the last one. -/
def stepsM (e : Engine ε) : Nat → m (Turn ε Individual)
  | 0 => do
    (← e.stepM).andThenM fun e report => return .done e report.elite []
  | more + 1 => do
    (← e.stepM).andThenM fun e _ => e.stepsM more

/-- Runs `n` generations and gives the elite of the last one; without generations the population
is measured and its fittest individual given.  The generations before a failing one are kept. -/
def runM (e : Engine ε) : Nat → m (Turn ε Individual)
  | 0 => do
    (← e.evaluateM).andThenM fun e _ => return ⟨← e.population.bestM, e, []⟩
  | n + 1 => e.stepsM n

end Checked

/-! ## Without checks -/

/-- `evaluateM` without checks. -/
def evaluate (e : Engine ε) : Turn ε Unit := Id.run e.evaluateM

/-- `selectEliteM` without checks. -/
def selectElite (e : Engine ε) : Turn ε (Individual × Fitness) := Id.run e.selectEliteM

/-- `mutateJobsM` without checks. -/
def mutateJobs (e : Engine ε) (next : Population) :
    Except Error (List Chunk × List (Chunk × List Individual) × Population) :=
  Id.run (e.mutateJobsM next)

/-- `mutateM` without checks. -/
def mutate (e : Engine ε) (next : Population) : Turn ε Population := Id.run (e.mutateM next)

/-- `stepM` without checks. -/
def step (e : Engine ε) : Turn ε Report := Id.run e.stepM

/-- `stepsM` without checks. -/
def steps (e : Engine ε) (more : Nat) : Turn ε Individual := Id.run (e.stepsM more)

/-- `runM` without checks. -/
def run (e : Engine ε) (n : Nat) : Turn ε Individual := Id.run (e.runM n)

theorem evaluate_eq (e : Engine ε) :
    e.evaluate =
      match e.chunksFrom 0 e.population with
      | .error error => .failed e error
      | .ok chunks =>
        (e.dispatch (chunks.map fun c => (c, ())) (scoreChunk e.problem e.population)).andThen
          fun e values => e.recorded chunks.length (e.population.recordChunks values) := rfl

omit [Executor ε] in
theorem selectElite_eq (e : Engine ε) : e.selectElite = e.elected e.population.best := rfl

omit [Executor ε] in
theorem mutateJobs_eq (e : Engine ε) (next : Population) :
    e.mutateJobs next =
      match e.chunksFrom 1 next with
      | .error error => .error error
      | .ok chunks => (next.takeChunks chunks).map fun taken => (chunks, taken) := rfl

theorem mutate_eq (e : Engine ε) (next : Population) :
    e.mutate next = e.mutated (e.mutateJobs next) := rfl

/-- A generation goes through its phases one after the other. -/
theorem step_eq (e : Engine ε) :
    e.step =
      e.evaluate.andThen fun e _ =>
      e.selectElite.andThen fun e (elite, bestFitness) =>
      e.crossover.andThen fun e children =>
      match (Population.mk [elite]).restoreChunks children with
      | (.error error, _) => .failed e error
      | (.ok (), next) =>
        (e.mutate next).andThen fun e next => e.succeed next elite bestFitness := rfl

theorem steps_zero (e : Engine ε) :
    e.steps 0 = e.step.andThen fun e report => .done e report.elite [] := rfl

theorem steps_succ (e : Engine ε) (more : Nat) :
    e.steps (more + 1) = e.step.andThen fun e _ => e.steps more := rfl

theorem run_zero (e : Engine ε) :
    e.run 0 = e.evaluate.andThen fun e _ => ⟨e.population.best, e, []⟩ := rfl

theorem run_succ (e : Engine ε) (n : Nat) : e.run (n + 1) = e.steps n := rfl

/-- Runs the configured number of generations. -/
def runAll (e : Engine ε) : Turn ε Individual := e.run e.options.generations.toNat

/-! ## With checks -/

/-- One generation, or the fault that it ends in outside of a chunk function. -/
def stepOrFault (e : Engine ε) : Except Fault (Turn ε Report) := e.stepM

/-- A run, or the fault that it ends in outside of a chunk function. -/
def runOrFault (e : Engine ε) (n : Nat) : Except Fault (Turn ε Individual) := e.runM n

end Engine

end KnapsackEvolution
