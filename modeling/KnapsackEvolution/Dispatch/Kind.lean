/-
# Kinds of backends

The four ways in which chunks can be run, with the names they go by.
-/
import KnapsackEvolution.Error

namespace KnapsackEvolution

/-- How chunks are run. -/
inductive Kind where
  /-- One after the other, by the caller. -/
  | sequential
  /-- One task a chunk, joined at the end. -/
  | forkJoin
  /-- Through a bounded queue that long-lived workers drain. -/
  | workerPool
  /-- As requests that are sent to actors in turn. -/
  | actor
deriving DecidableEq

namespace Kind

/-- All kinds. -/
def all : List Kind := [sequential, forkJoin, workerPool, actor]

/-- The name by which a user picks the kind. -/
def name : Kind → String
  | sequential => "sequential"
  | forkJoin => "fork-join"
  | workerPool => "worker-pool"
  | actor => "actor"

/-- The name of the kind in stored data and descriptions. -/
def tag : Kind → String
  | sequential => "Sequential"
  | forkJoin => "ForkJoin"
  | workerPool => "WorkerPool"
  | actor => "Actor"

/-- The kind with the given name. -/
def ofName (name : String) : Except Error Kind :=
  match all.find? fun kind => kind.name == name with
  | some kind => .ok kind
  | none => .error (.configuration (.unknownBackend name))

/-- The kind with the given tag. -/
def ofTag? (tag : String) : Option Kind := all.find? fun kind => kind.tag == tag

theorem ofName_name (k : Kind) : ofName k.name = .ok k := by
  cases k <;> rfl

theorem ofTag?_tag (k : Kind) : ofTag? k.tag = some k := by
  cases k <;> rfl

end Kind

end KnapsackEvolution
