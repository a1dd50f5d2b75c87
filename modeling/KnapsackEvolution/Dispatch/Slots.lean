/-
# Slots for results

Replies come in any order, and each of them says which job it belongs to.  The slots keep one
place per job in the order of the jobs: a reply goes into the place of its job and replaces what
was there, a reply to no job is dropped, and a place that stays empty counts as a lost chunk.
-/
import KnapsackEvolution.Dispatch.Outcome

namespace KnapsackEvolution

/-- One place per job for its result. -/
structure Slots (T : Type) where
  /-- For each job its chunk and the result that came in, if any. -/
  cells : List (Chunk × Option (Except Error T))

namespace Slots

variable {T : Type}

/-- Empty places for jobs on the given chunks. -/
def ofChunks (chunks : List Chunk) : Slots T := ⟨chunks.map fun c => (c, none)⟩

/-- Puts a result into the place of a job. -/
def fill (s : Slots T) (index : Nat) (result : Except Error T) : Slots T :=
  ⟨s.cells.modify index fun cell => (cell.1, some result)⟩

/-- The outcomes in the order of the jobs, with `cause` for the jobs that had no reply. -/
def finish (s : Slots T) (cause : Loss) : List (Outcome T) :=
  s.cells.map fun cell => ⟨cell.1, cell.2.getD (.error (cell.1.lost cause))⟩

@[simp] theorem length_ofChunks (chunks : List Chunk) :
    (ofChunks chunks : Slots T).cells.length = chunks.length := by
  simp [ofChunks]

@[simp] theorem length_fill (s : Slots T) (index : Nat) (result : Except Error T) :
    (s.fill index result).cells.length = s.cells.length := by
  simp [fill]

/-- A reply to no job changes nothing. -/
theorem fill_of_length_le {s : Slots T} {index : Nat} (h : s.cells.length ≤ index)
    (result : Except Error T) : s.fill index result = s := by
  cases s with
  | mk cells => simp [fill, List.modify_eq_self h]

/-- A reply is seen in the place of its job only. -/
theorem getElem?_fill (s : Slots T) (index place : Nat) (result : Except Error T) :
    (s.fill index result).cells[place]? =
      if index = place then s.cells[place]?.map fun cell => (cell.1, some result)
      else s.cells[place]? := by
  simp only [fill, List.getElem?_modify]
  split <;> simp

end Slots

end KnapsackEvolution
