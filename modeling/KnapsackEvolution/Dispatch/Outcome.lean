/-
# Outcomes

What came of the work on a chunk: its value, or an error that names a chunk.  A chunk function may
return a value, return an error or run into a fault; the last two become a lost chunk, except that
an error which already names a lost chunk is passed on as it is.
-/
import KnapsackEvolution.Chunk

namespace KnapsackEvolution

/-- What came of the work on a chunk. -/
structure Outcome (T : Type) where
  chunk : Chunk
  /-- The value of the work, or why there is none. -/
  result : Except Error T

/-- Works on a chunk with what was handed in for it. -/
abbrev ChunkFunction (P T : Type) := Chunk → P → Except Failure T

variable {P T : Type}

/-- The error that the failure of the work on a chunk is reported as. -/
def Chunk.report (c : Chunk) : Failure → Error
  | .error (.dispatch start stop cause) => .dispatch start stop cause
  | .error e => c.lost (.other e.message)
  | .fault f => c.lost (.faulted f)

/-- A fault is reported with the chunk it happened on. -/
theorem Chunk.report_fault (c : Chunk) (f : Fault) : c.report (.fault f) = c.lost (.faulted f) :=
  rfl

namespace Outcome

/-- The outcome of running a chunk function on one chunk. -/
def ofRun (process : ChunkFunction P T) (job : Chunk × P) : Outcome T :=
  ⟨job.1, (process job.1 job.2).mapError job.1.report⟩

/-- All values with their chunks in order, or the first error. -/
def collect : List (Outcome T) → Except Error (List (Chunk × T))
  | [] => .ok []
  | o :: rest => do
    let value ← o.result
    let values ← collect rest
    return (o.chunk, value) :: values

@[simp] theorem chunk_ofRun (process : ChunkFunction P T) (job : Chunk × P) :
    (ofRun process job).chunk = job.1 := rfl

@[simp] theorem collect_nil : collect ([] : List (Outcome T)) = .ok [] := rfl

end Outcome

end KnapsackEvolution
