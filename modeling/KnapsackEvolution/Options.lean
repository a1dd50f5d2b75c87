/-
# Options of a run

What a run is configured with, the defaults, and the check that a configuration makes sense.  All
counts are 64-bit words.
-/
import KnapsackEvolution.Dispatch.Kind

namespace KnapsackEvolution

/-- How much a run reports while it goes on. -/
inductive LogLevel where
  /-- Every phase of every generation. -/
  | verbose
  /-- Every generation. -/
  | minimal
  /-- Nothing. -/
  | none
deriving DecidableEq

namespace LogLevel

/-- All levels. -/
def all : List LogLevel := [verbose, minimal, none]

/-- The name of the level in stored data. -/
def tag : LogLevel → String
  | verbose => "Verbose"
  | minimal => "Minimal"
  | none => "None"

/-- The level with the given name. -/
def ofTag? (tag : String) : Option LogLevel := all.find? fun level => level.tag == tag

theorem ofTag?_tag (level : LogLevel) : ofTag? level.tag = some level := by
  cases level <;> rfl

end LogLevel

/-- What a run is configured with. -/
structure Options where
  backend : Kind
  workers : UInt64
  chunkSize : UInt64
  populationSize : UInt64
  geneCount : UInt64
  generations : UInt64
  mutationProbability : Binary64
  tournamentSize : UInt64
  logLevel : LogLevel
  /-- What all random streams are derived from; without it they come from a clock. -/
  seed? : Option UInt64
deriving DecidableEq

namespace Options

/-- The configuration of a full-size run. -/
def default : Options where
  backend := .workerPool
  workers := 16
  chunkSize := 500
  populationSize := 100000
  geneCount := 1000
  generations := 500
  mutationProbability := .half
  tournamentSize := 3
  logLevel := .none
  seed? := none

/-- The default configuration on a given backend and chunk size. -/
def onBackend (backend : Kind) (workers chunkSize : UInt64) : Options :=
  { default with backend := backend, workers := workers, chunkSize := chunkSize }

/-- Field by field equality, with probabilities compared as numbers: one that is not a number
differs from itself, and the two zeros are equal. -/
def agrees (o p : Options) : Bool :=
  o.mutationProbability.sameNumber p.mutationProbability
    && decide ({ o with mutationProbability := p.mutationProbability } = p)

/-- The first thing that is wrong with a configuration. -/
def misconfiguration? (o : Options) : Option Misconfiguration :=
  if o.workers = 0 then some .noWorkers
  else if o.chunkSize = 0 then some .emptyChunks
  else if o.populationSize = 0 then some .emptyPopulation
  else if o.geneCount = 0 then some .noGenes
  else if !o.mutationProbability.isProbability then
    some (.mutationProbability o.mutationProbability)
  else if o.tournamentSize = 0 then some .emptyTournament
  else none

/-- Refuses a configuration that makes no sense. -/
def validate (o : Options) : Except Error Unit :=
  match o.misconfiguration? with
  | some cause => .error (.configuration cause)
  | none => .ok ()

theorem validate_eq_ok_iff {o : Options} : o.validate = .ok () ↔ o.misconfiguration? = none := by
  unfold validate
  split <;> simp_all

end Options

end KnapsackEvolution
