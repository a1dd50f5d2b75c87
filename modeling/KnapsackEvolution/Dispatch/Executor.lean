/-
# Executors

An executor runs a chunk function on a list of jobs, a chunk and what is handed in for it each,
and answers with their outcomes.  It may keep counts from one dispatch to the next, so running
jobs gives back the executor too.
-/
import KnapsackEvolution.Dispatch.Kind
import KnapsackEvolution.Dispatch.Outcome

namespace KnapsackEvolution

/-- Something that chunked work can be given to. -/
class Executor (ε : Type) where
  /-- How it runs chunks. -/
  kind : ε → Kind
  /-- How many chunks it runs at the same time at most. -/
  workers : ε → Nat
  /-- Its description. -/
  text : ε → String
  /-- Runs a chunk function on every job. -/
  execute : {P T : Type} → ε → List (Chunk × P) → ChunkFunction P T → List (Outcome T) × ε

end KnapsackEvolution
