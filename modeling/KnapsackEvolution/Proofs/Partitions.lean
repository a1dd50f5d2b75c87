/-
# Partitions

The chunk with number `k` of a range that is cut starts `k` chunk sizes behind the start of the
range, and every chunk but the last has the full size.  From this place of each chunk follow the
number of the chunks and the one chunk that a slot lies in.

The bounds of the chunks can be computed in 64-bit words as well.  One chunk size behind the last
start there may be no word; a sum that is cut off at the greatest word gives the same bounds.
-/
import KnapsackEvolution.Proofs.Tiles
import Mathlib.Algebra.Order.Floor.Div

namespace KnapsackEvolution

section Cut

variable {size total : Nat} (size_pos : 0 < size) {start slot k : Nat}

/-! ## The place of a chunk -/

/-- The chunk with number `k` starts `k` chunk sizes behind the start, if that is before the end of
the range. -/
lemma getElem?_cut_eq_some_iff {c : Chunk} :
    (cut size total size_pos start)[k]? = some c ↔
      c.start = start + k * size ∧ c.stop = min (start + k * size + size) total := by
  induction k generalizing start with
  | zero =>
    rw [Nat.zero_mul, Nat.add_zero]
    rcases Nat.lt_or_ge start total with hlt | hge
    · rw [cut, dif_pos hlt, List.getElem?_cons_zero, Option.some_inj]
      cases c
      simp [eq_comm]
    · have hc := c.start_lt_stop
      rw [cut_of_le size_pos hge, List.getElem?_nil]
      simp only [reduceCtorEq, false_iff]
      omega
  | succ k ih =>
    have hplace : start + size + k * size = start + (k + 1) * size := by
      rw [Nat.succ_mul]
      omega
    rcases Nat.lt_or_ge start total with hlt | hge
    · rw [cut, dif_pos hlt, List.getElem?_cons_succ, ih, hplace]
    · have hc := c.start_lt_stop
      rw [cut_of_le size_pos hge, List.getElem?_nil]
      simp only [reduceCtorEq, false_iff]
      omega

lemma exists_getElem?_cut (h : start + k * size < total) :
    ∃ c : Chunk, (cut size total size_pos start)[k]? = some c ∧
      c.start = start + k * size ∧ c.stop = min (start + k * size + size) total :=
  ⟨⟨start + k * size, min (start + k * size + size) total, by omega⟩,
    (getElem?_cut_eq_some_iff size_pos).2 ⟨rfl, rfl⟩, rfl, rfl⟩

lemma lt_length_cut_iff :
    k < (cut size total size_pos start).length ↔ start + k * size < total := by
  constructor
  · intro h
    obtain ⟨hstart, hstop⟩ := (getElem?_cut_eq_some_iff size_pos).1 (List.getElem?_eq_getElem h)
    have hc := ((cut size total size_pos start)[k]).start_lt_stop
    omega
  · intro h
    obtain ⟨c, hc, -, -⟩ := exists_getElem?_cut size_pos h
    exact (List.getElem?_eq_some_iff.1 hc).1

/-- A range is cut into as many chunks as it takes to hold its slots. -/
theorem length_cut : (cut size total size_pos start).length = (total - start) ⌈/⌉ size := by
  refine eq_of_forall_ge_iff fun k => ?_
  have hlt : k < (cut size total size_pos start).length ↔ start + k * size < total :=
    lt_length_cut_iff size_pos
  rw [ceilDiv_le_iff_le_smul size_pos, smul_eq_mul, Nat.mul_comm]
  omega

lemma size_eq_of_mem_dropLast {c : Chunk} (h : c ∈ (cut size total size_pos start).dropLast) :
    c.size = size := by
  obtain ⟨k, hk⟩ := List.mem_iff_getElem?.1 h
  rw [List.getElem?_dropLast] at hk
  split at hk
  · next hlast =>
    obtain ⟨hstart, hstop⟩ := (getElem?_cut_eq_some_iff size_pos).1 hk
    -- another chunk starts where this one has its full size
    have hnext := (lt_length_cut_iff size_pos).1 (Nat.add_lt_of_lt_sub hlast)
    rw [Nat.succ_mul] at hnext
    rw [Chunk.size]
    omega
  · cases hk

lemma size_le_of_mem {c : Chunk} (h : c ∈ cut size total size_pos start) : c.size ≤ size := by
  obtain ⟨k, hk⟩ := List.mem_iff_getElem?.1 h
  obtain ⟨hstart, hstop⟩ := (getElem?_cut_eq_some_iff size_pos).1 hk
  rw [Chunk.size]
  omega

lemma cut_eq_nil_iff : cut size total size_pos start = [] ↔ total ≤ start := by
  have hlength : 0 < (cut size total size_pos start).length ↔ start + 0 * size < total :=
    lt_length_cut_iff size_pos
  rw [← List.length_eq_zero_iff]
  omega

/-- The first chunk starts where the range starts, and the others continue it to the end. -/
lemma tiles_of_cut_eq_cons {c : Chunk} {rest : List Chunk}
    (h : cut size total size_pos start = c :: rest) :
    c.start = start ∧ Tiles c.start (c :: rest) total := by
  have hne : ¬ total ≤ start := mt (cut_eq_nil_iff size_pos).2 (by simp [h])
  have htiles := tiles_cut size_pos (Nat.le_of_lt (Nat.not_le.1 hne))
  rw [h] at htiles
  have hc := (Tiles.cons_iff.1 htiles).1
  exact ⟨hc, hc ▸ htiles⟩

/-- A slot of the range lies in one chunk, the one with as many chunks before it as fit in front of
the slot. -/
lemma mem_cut_iff (hstart : start ≤ slot) (htotal : slot < total) :
    (∃ c, (cut size total size_pos start)[k]? = some c ∧ slot ∈ c) ↔ k = (slot - start) / size := by
  rw [eq_comm (a := k), Nat.div_eq_iff size_pos]
  constructor
  · rintro ⟨c, hc, hslot⟩
    obtain ⟨hcstart, hcstop⟩ := (getElem?_cut_eq_some_iff size_pos).1 hc
    rw [Chunk.mem_iff] at hslot
    omega
  · rintro ⟨hle, hlt⟩
    have hbefore : start + k * size < total := by omega
    obtain ⟨c, hc, hcstart, hcstop⟩ := exists_getElem?_cut size_pos hbefore
    refine ⟨c, hc, Chunk.mem_iff.2 ?_⟩
    omega

end Cut

/-! ## Bounds in words -/

/-- The sum of two words, and the greatest word if the sum is not a word. -/
def addCapped (a b : UInt64) : UInt64 :=
  if a.toNat + b.toNat < UInt64.size then a + b else 0xFFFFFFFFFFFFFFFF

/-- The bounds of the chunks of a range, computed in words.  A chunk is the last one if no word is
as far behind its start as the next start would be. -/
def cutWords (size total : UInt64) (size_pos : 0 < size) (start : UInt64) :
    List (UInt64 × UInt64) :=
  if start < total then
    (start, min (addCapped start size) total) ::
      if start.toNat + size.toNat < UInt64.size then cutWords size total size_pos (start + size)
      else []
  else []
termination_by total.toNat - start.toNat
decreasing_by
  have hstart : start.toNat < total.toNat := UInt64.lt_iff_toNat_lt.1 (by assumption)
  have hsize : 0 < size.toNat := UInt64.lt_iff_toNat_lt.1 size_pos
  rw [UInt64.toNat_add, Nat.mod_eq_of_lt (by assumption)]
  omega

lemma toNat_addCapped (a b : UInt64) :
    (addCapped a b).toNat = min (a.toNat + b.toNat) (UInt64.size - 1) := by
  unfold addCapped
  split
  · next h =>
    rw [UInt64.toNat_add, Nat.mod_eq_of_lt h]
    omega
  · next h =>
    rw [Nat.min_eq_right (by omega)]
    rfl

/-- In words the bounds are those of the chunks. -/
theorem cutWords_eq_cut {size total : UInt64} (size_pos : 0 < size) (start : UInt64) :
    (cutWords size total size_pos start).map (fun bounds => (bounds.1.toNat, bounds.2.toNat)) =
      (cut size.toNat total.toNat (UInt64.lt_iff_toNat_lt.1 size_pos) start.toNat).map
        fun c => (c.start, c.stop) := by
  fun_induction cutWords size total size_pos start with
  | case1 start hlt ih =>
    have hstop : (min (addCapped start size) total).toNat =
        min (start.toNat + size.toNat) total.toNat := by
      have htotal : total.toNat < UInt64.size := total.toNat_lt
      rw [UInt64.toNat_min, toNat_addCapped]
      omega
    rw [cut, dif_pos (UInt64.lt_iff_toNat_lt.1 hlt), List.map_cons, List.map_cons, hstop]
    refine congrArg (_ :: ·) ?_
    split
    · next hword => rw [ih hword, UInt64.toNat_add, Nat.mod_eq_of_lt hword]
    · next hword =>
      -- the next start would be past the end of every range of words
      have htotal : total.toNat < UInt64.size := total.toNat_lt
      rw [cut_of_le _ (by omega)]
      rfl
  | case2 start hge =>
    rw [cut_of_le _ (Nat.not_lt.1 (mt UInt64.lt_iff_toNat_lt.2 hge))]
    rfl

/-! ## Covering a range -/

/-- The chunks cover the slots from `start` up to `total`, `size` slots at a time. -/
structure Covers (start total size : Nat) (chunks : List Chunk) : Prop where
  first : ∀ c, chunks.head? = some c → c.start = start
  contiguous : Contiguous chunks
  last : ∀ c, chunks.getLast? = some c → c.stop = total
  size_bounds : ∀ c ∈ chunks, 1 ≤ c.size ∧ c.size ≤ size
  full : ∀ c ∈ chunks.dropLast, c.size = size
  length_eq : chunks.length = (total - start) ⌈/⌉ size
  eq_nil_iff : chunks = [] ↔ total ≤ start
  /-- Each slot of the range lies in one chunk and in no other. -/
  owner : ∀ slot, start ≤ slot → slot < total →
    ∀ k, (∃ c, chunks[k]? = some c ∧ slot ∈ c) ↔ k = (slot - start) / size
  inside : ∀ c ∈ chunks, ∀ slot ∈ c, start ≤ slot ∧ slot < total

theorem covers_cut {size total : Nat} (size_pos : 0 < size) (start : Nat) :
    Covers start total size (cut size total size_pos start) := by
  refine ⟨?_, ?_, ?_, ?_, ?_, length_cut size_pos, cut_eq_nil_iff size_pos, ?_, ?_⟩
  · intro c hc
    obtain ⟨rest, hcut⟩ := List.head?_eq_some_iff.1 hc
    exact (tiles_of_cut_eq_cons size_pos hcut).1
  · cases hcut : cut size total size_pos start with
    | nil => exact .nil
    | cons c rest => exact (Tiles.iff_contiguous.1 (tiles_of_cut_eq_cons size_pos hcut).2).1
  · intro c hc
    cases hcut : cut size total size_pos start with
    | nil => simp [hcut] at hc
    | cons d rest =>
      obtain ⟨-, last, hlast, hstop⟩ :=
        Tiles.iff_contiguous.1 (tiles_of_cut_eq_cons size_pos hcut).2
      rw [hcut, hlast] at hc
      exact Option.some.inj hc ▸ hstop
  · intro c hc
    exact ⟨c.size_pos, size_le_of_mem size_pos hc⟩
  · intro c hc
    exact size_eq_of_mem_dropLast size_pos hc
  · intro slot hstart htotal k
    exact mem_cut_iff size_pos hstart htotal
  · intro c hc slot hslot
    obtain ⟨k, hk⟩ := List.mem_iff_getElem?.1 hc
    obtain ⟨hstart, hstop⟩ := (getElem?_cut_eq_some_iff size_pos).1 hk
    rw [Chunk.mem_iff] at hslot
    omega

/-- The chunks of a range of words cover it: they continue one another from the start of the range
to its end, only the last one may fall short of the full size, and every slot of the range lies in
exactly one of them.  There are none just when the range is empty.  Their bounds are the ones that
are computed in words, also where the sum of a start and the size is not a word. -/
theorem partition_covers (total start size : UInt64) (size_pos : 0 < size) :
    ∃ chunks, partition total.toNat start.toNat size.toNat = .ok chunks ∧
      Covers start.toNat total.toNat size.toNat chunks ∧
      chunks.map (fun c => (c.start, c.stop)) =
        (cutWords size total size_pos start).map
          fun bounds => (bounds.1.toNat, bounds.2.toNat) := by
  have hsize : 0 < size.toNat := UInt64.lt_iff_toNat_lt.1 size_pos
  exact ⟨_, dif_pos hsize, covers_cut hsize start.toNat, (cutWords_eq_cut size_pos start).symm⟩

/-- Two chunks of half the words each: one half behind the start of the second one there is no word,
and it stops with the range. -/
theorem partition_covers_top :
    (0 : UInt64) < 0x8000000000000000 ∧
    ∃ chunks, partition 0xFFFFFFFFFFFFFFFF 5 0x8000000000000000 = .ok chunks ∧
      chunks.length = 2 ∧
      (∃ c, chunks[1]? = some c ∧ 0xFFFFFFFFFFFFFFFE ∈ c) ∧
      chunks.map (fun c => (c.start, c.stop)) =
        [(5, 0x8000000000000005), (0x8000000000000005, 0xFFFFFFFFFFFFFFFF)] := by
  obtain ⟨chunks, hchunks, hcovers, hwords⟩ :=
    partition_covers 0xFFFFFFFFFFFFFFFF 5 0x8000000000000000 (by decide)
  refine ⟨by decide, chunks, hchunks, hcovers.length_eq.trans (by decide), ?_, ?_⟩
  · exact (hcovers.owner 0xFFFFFFFFFFFFFFFE (by decide) (by decide) 1).2 (by decide)
  · rw [hwords, cutWords, if_pos (by decide), if_pos (by decide), cutWords, if_pos (by decide),
      if_neg (by decide)]
    decide

end KnapsackEvolution
