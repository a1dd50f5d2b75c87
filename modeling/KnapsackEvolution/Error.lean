/-
# What can go wrong

Two things end an operation early.  An `Error` is an answer: the request cannot be met, and the
caller is told why.  A `Fault` is a use of an operation outside its domain: an index outside a
table, a sum that does not fit in 64 bits, a draw from an empty range.  An executor turns the
faults and errors of a chunk into errors that name the chunk.

Both are kept as causes; their wording is in `Error.message` and `Fault.message` alone.
-/
import KnapsackEvolution.Binary64.Text

namespace KnapsackEvolution

/-! ## Errors -/

/-- Why a configuration is refused. -/
inductive Misconfiguration where
  | noWorkers
  | emptyChunks
  | emptyPopulation
  | noGenes
  | mutationProbability (p : Binary64)
  | emptyTournament
  | noItems
  | tableLengths (values weights : Nat)
  | geneCount (genes items : Nat)
  | unknownBackend (name : String)
  | other (text : String)
deriving DecidableEq

/-- The wording of a refusal. -/
def Misconfiguration.message : Misconfiguration → String
  | noWorkers => "Worker count must be positive"
  | emptyChunks => "Chunk size must be positive"
  | emptyPopulation => "Population size cannot be zero"
  | noGenes => "Gene size cannot be zero"
  | mutationProbability p => "Mutation probability must lie in [0, 1], got " ++ p.text
  | emptyTournament => "Tournament size must be at least 1"
  | noItems => "Problem instance must contain at least one item"
  | tableLengths values weights =>
    "Value table length (" ++ toString values ++ ") doesn\x27t match weight table length ("
      ++ toString weights ++ ")"
  | geneCount genes items =>
    "Gene size " ++ toString genes ++ " does not match the " ++ toString items
      ++ " items of the problem"
  | unknownBackend name => "Unknown dispatcher \x27" ++ name ++ "\x27"
  | other text => text

/-- Why a fitness is not to be had. -/
inductive FitnessGap where
  /-- The genes have not been measured since they last changed. -/
  | unmeasured
  | other (text : String)
deriving DecidableEq

/-- The wording of a missing fitness. -/
def FitnessGap.message : FitnessGap → String
  | unmeasured => "Fitness read before it was measured"
  | other text => text

/-- An operation used outside its domain. -/
inductive Fault where
  /-- A sum of 64-bit numbers that needs more than 64 bits. -/
  | addOverflow
  /-- The negation of the least 64-bit integer. -/
  | negOverflow
  /-- An index at or past the end of a table. -/
  | indexOutOfBounds (length index : Nat)
  /-- A tail that starts past the end of a list. -/
  | tailOutOfRange (start length : Nat)
  /-- A range that stops past the end of a list. -/
  | headOutOfRange (stop length : Nat)
  /-- A list that is split past its end. -/
  | splitOutOfRange (position length : Nat)
  | emptyRange
  /-- A fault raised by a chunk function itself, with or without words. -/
  | raised (text : Option String)
deriving DecidableEq

/-- The wording of a fault. -/
def Fault.message : Fault → String
  | addOverflow => "attempt to add with overflow"
  | negOverflow => "attempt to negate with overflow"
  | indexOutOfBounds length index =>
    "index out of bounds: the len is " ++ toString length ++ " but the index is "
      ++ toString index
  | tailOutOfRange start length =>
    "range start index " ++ toString start ++ " out of range for slice of length "
      ++ toString length
  | headOutOfRange stop length =>
    "range end index " ++ toString stop ++ " out of range for slice of length "
      ++ toString length
  | splitOutOfRange position length =>
    "`at` split index (is " ++ toString position ++ ") should be <= len (is "
      ++ toString length ++ ")"
  | emptyRange => "cannot sample empty range"
  | raised text => text.getD "unknown panic"

/-- Why the work on a chunk was lost. -/
inductive Loss where
  /-- The chunk function ran into a fault. -/
  | faulted (fault : Fault)
  /-- No worker ever reported on the chunk. -/
  | unreported
  /-- The actor that had the chunk never replied. -/
  | unanswered
  /-- A reason given in words, such as the message of the error that the chunk function returned. -/
  | other (text : String)
deriving DecidableEq

/-- The wording of a loss. -/
def Loss.message : Loss → String
  | faulted fault => "chunk function panicked: " ++ fault.message
  | unreported => "worker exited before reporting"
  | unanswered => "actor stopped before replying"
  | other text => text

/-- The range of slots `[start, stop)` as it is written in messages. -/
def rangeText (start stop : Nat) : String :=
  "[" ++ toString start ++ ", " ++ toString stop ++ ")"

/-- How a generation went wrong; a chunk is given by its first slot and the slot after its last. -/
inductive Misstep where
  /-- Fitness values that do not fit the population or their chunk. -/
  | misfitFitness (start stop values population : Nat)
  /-- A chunk that does not start where the one before it stopped. -/
  | gap (start stop expected : Nat)
  /-- Chunks that stop before or after the end of the population. -/
  | wrongEnd (stop population : Nat)
  /-- Individuals that do not continue the population or do not fit their chunk. -/
  | misfitIndividuals (start stop individuals population : Nat)
  /-- A new population of the wrong size. -/
  | wrongSize (generation individuals expected : Nat)
  | other (text : String)
deriving DecidableEq

/-- The wording of a misstep. -/
def Misstep.message : Misstep → String
  | misfitFitness start stop values population =>
    "Chunk " ++ rangeText start stop ++ " returned " ++ toString values
      ++ " fitness values for a population of " ++ toString population
  | gap start stop expected =>
    "Chunk " ++ rangeText start stop ++ " does not continue at index " ++ toString expected
  | wrongEnd stop population =>
    "Chunks end at " ++ toString stop ++ " but the population holds " ++ toString population
      ++ " individuals"
  | misfitIndividuals start stop individuals population =>
    "Chunk " ++ rangeText start stop ++ " returned " ++ toString individuals
      ++ " individuals at population length " ++ toString population
  | wrongSize generation individuals expected =>
    "Generation " ++ toString generation ++ " produced " ++ toString individuals
      ++ " individuals instead of " ++ toString expected
  | other text => text

/-- Why an operation could not be carried out. -/
inductive Error where
  | configuration (cause : Misconfiguration)
  | emptyPopulation
  | fitness (cause : FitnessGap)
  /-- The work on the chunk `[start, stop)` was lost. -/
  | dispatch (start stop : Nat) (cause : Loss)
  | evolution (cause : Misstep)
deriving DecidableEq

/-- The wording of an error. -/
def Error.message : Error → String
  | configuration cause => "Configuration error: " ++ cause.message
  | emptyPopulation => "Empty population error: Cannot operate on an empty population"
  | fitness cause => "Fitness calculation error: " ++ cause.message
  | dispatch start stop cause =>
    "Dispatch error in chunk " ++ rangeText start stop ++ ": " ++ cause.message
  | evolution cause => "Evolution error: " ++ cause.message

/-! ## Checks -/

/-- What comes of a check that an access lies in its domain.  Outside of chunk functions nothing
catches a fault, so what is run there is written once for any `m`: without checks it gives its
results, and with them it shows whether there was a fault. -/
class Checks (m : Type → Type) where
  /-- Goes on if the access is allowed. -/
  check (allowed : Bool) (fault : Fault) : m Unit

export Checks (check)

/-- Nothing is checked. -/
instance : Checks Id where
  check _ _ := pure ()

/-- An access that is not allowed is a fault. -/
instance : Checks (Except Fault) where
  check allowed fault := if allowed then .ok () else .error fault

/-! ## Failures -/

/-- How a computation that may do both ends early. -/
inductive Failure where
  | error (e : Error)
  | fault (f : Fault)
deriving DecidableEq

end KnapsackEvolution
