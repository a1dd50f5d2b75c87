/-
# Disturbed executors

An executor around another one that spoils its outcomes, to see how a caller copes.  For each call
there is a list of edits, which may lose, move, relabel or fail outcomes; an edit at a position
past the end of the outcomes does nothing.
-/
import KnapsackEvolution.Dispatch.Executor

namespace KnapsackEvolution

/-- A change to a list of outcomes. -/
inductive Edit where
  | clear
  | reverse
  /-- Loses the outcome at a position. -/
  | drop (position : Nat)
  /-- Moves the outcome at a position to the front. -/
  | toFront (position : Nat)
  /-- Makes the outcome at a position an error. -/
  | fail (position : Nat) (e : Error)
  /-- Puts another chunk on the outcome at a position. -/
  | relabel (position : Nat) (c : Chunk)

/-- The outcomes after an edit. -/
def Edit.apply {T : Type} (outcomes : List (Outcome T)) : Edit → List (Outcome T)
  | clear => []
  | reverse => outcomes.reverse
  | drop position => outcomes.eraseIdx position
  | toFront position => outcomes[position]?.toList ++ outcomes.eraseIdx position
  | fail position e => outcomes.modify position fun o => { o with result := .error e }
  | relabel position c => outcomes.modify position fun o => { o with chunk := c }

/-- An executor whose outcomes are edited. -/
structure Disturbed (ε : Type) where
  /-- The executor that does the work. -/
  inner : ε
  /-- How many calls there have been. -/
  calls : Nat
  /-- The edits to the outcomes of each call, by its number. -/
  edits : Nat → List Edit

namespace Disturbed

variable {ε P T : Type} [Executor ε]

/-- The executor before its first call. -/
def ofEdits (inner : ε) (edits : Nat → List Edit) : Disturbed ε := ⟨inner, 0, edits⟩

/-- Runs the jobs on the inner executor and edits the outcomes in order. -/
def execute (d : Disturbed ε) (jobs : List (Chunk × P)) (process : ChunkFunction P T) :
    List (Outcome T) × Disturbed ε :=
  let (outcomes, inner) := Executor.execute d.inner jobs process
  ((d.edits d.calls).foldl Edit.apply outcomes, ⟨inner, d.calls + 1, d.edits⟩)

instance : Executor (Disturbed ε) where
  kind d := Executor.kind d.inner
  workers d := Executor.workers d.inner
  text d := Executor.text d.inner
  execute := execute

end Disturbed

end KnapsackEvolution
