/-
# Engines

An engine holds a problem, a population and an executor.  Everything it does is a `Turn`: a result
or an error, the engine afterwards, and the events reported on the way.  An engine survives the
errors of its turns.
-/
import KnapsackEvolution.Engine.Event
import KnapsackEvolution.Options
import KnapsackEvolution.Population
import KnapsackEvolution.Random.Keyed
import KnapsackEvolution.Tournament

namespace KnapsackEvolution

/-- A genetic algorithm on its way. -/
structure Engine (ε : Type) where
  executor : ε
  options : Options
  problem : Problem
  /-- Makes the generators of the chunks. -/
  generators : Factory
  /-- The current population; after a generation its elite is in slot zero. -/
  population : Population
  /-- How many generations have been completed. -/
  generation : Nat

/-- What the surroundings decide for an engine: the time of day and the order of replies. -/
structure Surroundings where
  /-- Read where a seed is missing. -/
  clock : Clock
  /-- How the replies to a dispatch come in. -/
  arrival : Arrival

/-- What an engine has done: what came of it, the engine afterwards, and what was reported. -/
structure Turn (ε α : Type) where
  /-- The result, or why there is none. -/
  result : Except Error α
  engine : Engine ε
  /-- What was reported, oldest first. -/
  events : List Event

namespace Turn

variable {ε α β : Type}

/-- A turn with a result. -/
def done (engine : Engine ε) (a : α) (events : List Event) : Turn ε α := ⟨.ok a, engine, events⟩

/-- A turn that ends in an error. -/
def failed (engine : Engine ε) (e : Error) : Turn ε α := ⟨.error e, engine, []⟩

/-- Goes on with another turn unless there was an error. -/
def andThenM {m : Type → Type} [Monad m] (t : Turn ε α) (next : Engine ε → α → m (Turn ε β)) :
    m (Turn ε β) :=
  match t.result with
  | .ok a => do
    let t' ← next t.engine a
    return ⟨t'.result, t'.engine, t.events ++ t'.events⟩
  | .error e => return ⟨.error e, t.engine, t.events⟩

/-- `andThenM` where the next turn cannot fault. -/
def andThen (t : Turn ε α) (next : Engine ε → α → Turn ε β) : Turn ε β :=
  Id.run (t.andThenM next)

end Turn

namespace Engine

variable {ε : Type} [Executor ε]

/-- The factory that a configuration asks for: seeded, or from the clock without a seed. -/
def factoryOf (surroundings : Surroundings) (options : Options) : Factory :=
  match options.seed? with
  | some seed => .seeded seed
  | none => .clocked surroundings.clock

/-- Puts an engine around an executor.  The configuration must make sense and have as many genes
as the problem has items; its worker count is not looked at beyond that. -/
def onExecutor (surroundings : Surroundings) (executor : ε) (options : Options)
    (problem : Problem) : Except Error (Engine ε × List Event) := do
  options.validate
  if options.geneCount.toNat ≠ problem.size then
    throw (.configuration (.geneCount options.geneCount.toNat problem.size))
  let generators := factoryOf surroundings options
  let population :=
    ((Population.random options.populationSize.toNat options.geneCount.toNat).run
      (generators ⟨.init, 0, 0⟩)).1
  return (⟨executor, options, problem, generators, population, 0⟩,
    [.engineInitialized (Executor.kind executor) (Executor.workers executor) population.size
      problem.size])

/-- Starts the backend that the configuration asks for and an engine on it. -/
def start (surroundings : Surroundings) (options : Options) (problem : Problem) :
    Except Error (Engine Backend × List Event) := do
  options.validate
  let backend ← Backend.start surroundings.arrival options.backend options.workers.toNat
  let (engine, events) ← onExecutor surroundings backend options problem
  return (engine, backend.startEvents ++ events)

/-- The engine with another source of generators. -/
def withGenerators (e : Engine ε) (generators : Factory) : Engine ε :=
  { e with generators := generators }

/-- The description of an engine. -/
def text (e : Engine ε) : String :=
  "Engine \x7b executor: " ++ Executor.text e.executor ++ ", generation: "
    ++ toString e.generation ++ ", population_size: " ++ toString e.population.size
    ++ ", gene_size: " ++ toString e.problem.size ++ " \x7d"

end Engine

end KnapsackEvolution
