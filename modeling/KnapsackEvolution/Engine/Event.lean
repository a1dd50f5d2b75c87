/-
# Events of a run

What a run reports while it goes on: the start of its workers and of the engine, the phases of a
generation, a completed generation, the end of the workers.  An event is kept as data; its level,
its message and its fields follow from it.
-/
import KnapsackEvolution.Dispatch.Backend
import KnapsackEvolution.Individual

namespace KnapsackEvolution

/-- The phases of a generation that are reported. -/
inductive Stage where
  | evaluate
  | select
  | crossover
  | mutate
deriving DecidableEq

/-- The name of a phase. -/
def Stage.text : Stage → String
  | evaluate => "evaluate"
  | select => "select"
  | crossover => "crossover"
  | mutate => "mutate"

/-- Something that a run reports. -/
inductive Event where
  | forkJoinStarted (workers : Nat)
  | workerPoolStarted (workers : Nat)
  | workerPoolStopped (workers : Nat)
  | actorsStarted (workers : Nat)
  | engineInitialized (backend : Kind) (workers populationSize geneCount : Nat)
  /-- A phase of a generation is over; the count is of completed generations. -/
  | phaseComplete (generation : Nat) (stage : Stage) (chunks : Nat)
  /-- A generation is over, this one counted. -/
  | generationComplete (generation : Nat) (bestFitness : Fitness)
deriving DecidableEq

/-- How important an event is. -/
inductive Severity where
  /-- For whoever watches a run. -/
  | info
  /-- For whoever looks into a run. -/
  | debug
deriving DecidableEq

/-- The name of a severity. -/
def Severity.text : Severity → String
  | info => "INFO"
  | debug => "DEBUG"

/-- The value of a field of an event. -/
inductive FieldValue where
  | number (n : Int)
  | word (text : String)
deriving DecidableEq

namespace Event

/-- How important the event is. -/
def severity : Event → Severity
  | generationComplete _ _ => .info
  | _ => .debug

/-- The event in words. -/
def message : Event → String
  | forkJoinStarted _ => "fork-join pool started"
  | workerPoolStarted _ => "worker pool started"
  | workerPoolStopped _ => "worker pool stopped"
  | actorsStarted _ => "actors started"
  | engineInitialized _ _ _ _ => "engine initialized"
  | phaseComplete _ _ _ => "phase complete"
  | generationComplete _ _ => "generation complete"

/-- The particulars of the event by name. -/
def fields : Event → List (String × FieldValue)
  | forkJoinStarted workers => [("workers", .number workers)]
  | workerPoolStarted workers => [("workers", .number workers)]
  | workerPoolStopped workers => [("workers", .number workers)]
  | actorsStarted workers => [("workers", .number workers)]
  | engineInitialized backend workers populationSize geneCount =>
    [("dispatcher", .word backend.name), ("workers", .number workers),
      ("population_size", .number populationSize), ("gene_size", .number geneCount)]
  | phaseComplete generation stage chunks =>
    [("generation", .number generation), ("phase", .word stage.text), ("chunks", .number chunks)]
  | generationComplete generation bestFitness =>
    [("generation", .number generation), ("best_fitness", .number bestFitness.toInt)]

end Event

namespace Backend

/-- What is reported when a backend starts. -/
def startEvents : Backend → List Event
  | sequential => []
  | forkJoin crew => [.forkJoinStarted crew.workers]
  | workerPool crew => [.workerPoolStarted crew.workers]
  | actor actors => [.actorsStarted actors.workers]

/-- What is reported when a backend stops. -/
def stopEvents : Backend → List Event
  | workerPool crew => [.workerPoolStopped crew.workers]
  | _ => []

end Backend

end KnapsackEvolution
