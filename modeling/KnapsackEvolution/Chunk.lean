/-
# Chunks

A chunk is a non-empty run of neighbouring slots; `partition` cuts the slots from `start` up to
`total` into chunks of one size, the last one possibly shorter.
-/
import KnapsackEvolution.Error

namespace KnapsackEvolution

/-- A non-empty half-open range of slots `[start, stop)`. -/
structure Chunk where
  /-- The first slot of the chunk. -/
  start : Nat
  /-- The first slot after the chunk. -/
  stop : Nat
  /-- A chunk holds at least one slot. -/
  start_lt_stop : start < stop
deriving DecidableEq

namespace Chunk

/-- How many slots the chunk holds. -/
def size (c : Chunk) : Nat := c.stop - c.start

/-- No chunk is empty. -/
def isEmpty (c : Chunk) : Bool := c.size == 0

/-- The slots of the chunk in order. -/
def slots (c : Chunk) : List Nat := List.range' c.start c.size

instance : Membership Nat Chunk where
  mem c slot := c.start ≤ slot ∧ slot < c.stop

instance (slot : Nat) (c : Chunk) : Decidable (slot ∈ c) :=
  inferInstanceAs (Decidable (c.start ≤ slot ∧ slot < c.stop))

/-- The chunk as it is written in messages. -/
def text (c : Chunk) : String := rangeText c.start c.stop

/-- The work on this chunk was lost. -/
def lost (c : Chunk) (cause : Loss) : Error := .dispatch c.start c.stop cause

theorem size_pos (c : Chunk) : 0 < c.size := Nat.sub_pos_of_lt c.start_lt_stop

theorem mem_iff {slot : Nat} {c : Chunk} : slot ∈ c ↔ c.start ≤ slot ∧ slot < c.stop := Iff.rfl

@[simp] theorem isEmpty_eq_false (c : Chunk) : c.isEmpty = false := by
  simp [isEmpty, Nat.ne_of_gt c.size_pos]

@[simp] theorem length_slots (c : Chunk) : c.slots.length = c.size := by
  simp [slots]

theorem mem_slots {slot : Nat} {c : Chunk} : slot ∈ c.slots ↔ slot ∈ c := by
  have := c.start_lt_stop
  simp [slots, size, mem_iff, List.mem_range'_1]
  omega

end Chunk

/-- The slots from `start` up to `total`, cut into chunks of `size` slots; the last chunk is cut
off at `total`. -/
def cut (size total : Nat) (size_pos : 0 < size) (start : Nat) : List Chunk :=
  if h : start < total then
    ⟨start, min (start + size) total, by omega⟩ :: cut size total size_pos (start + size)
  else []
termination_by total - start

/-- The slots from `start` up to `total` in chunks of `size` slots, none if `start` is not below
`total`. -/
def partition (total start size : Nat) : Except Error (List Chunk) :=
  if h : 0 < size then .ok (cut size total h start)
  else .error (.configuration .emptyChunks)

end KnapsackEvolution
