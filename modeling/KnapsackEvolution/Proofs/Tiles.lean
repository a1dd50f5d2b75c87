/-
# Tilings by chunks

A list of chunks tiles a range of slots when the first chunk starts where the range starts, each
chunk starts where the one before it stops, and the last one stops where the range stops.  Cutting
a range gives a tiling of it, and being a tiling is what a population asks of the chunks that are
moved out of it.  Work that goes chunk by chunk is followed by induction on the tiling.
-/
import KnapsackEvolution.Population
import Mathlib.Data.List.Basic
import Mathlib.Tactic.Lemma

namespace KnapsackEvolution

/-- Each chunk starts where the one before it stops. -/
def Contiguous (chunks : List Chunk) : Prop := chunks.IsChain fun c d => d.start = c.stop

/-- The chunks continue one another from `start` on and stop at `stop`. -/
inductive Tiles : Nat → List Chunk → Nat → Prop
  /-- No chunks tile the empty range. -/
  | nil (slot : Nat) : Tiles slot [] slot
  /-- A chunk in front of a tiling of what comes after it. -/
  | cons (c : Chunk) {rest : List Chunk} {stop : Nat} :
    Tiles c.stop rest stop → Tiles c.start (c :: rest) stop

namespace Tiles

lemma nil_iff {start stop : Nat} : Tiles start [] stop ↔ start = stop := by
  constructor
  · intro h
    cases h
    rfl
  · rintro rfl
    exact .nil start

lemma cons_iff {start stop : Nat} {c : Chunk} {rest : List Chunk} :
    Tiles start (c :: rest) stop ↔ c.start = start ∧ Tiles c.stop rest stop := by
  constructor
  · intro h
    cases h with
    | cons _ hrest => exact ⟨rfl, hrest⟩
  · rintro ⟨rfl, hrest⟩
    exact .cons c hrest

lemma le {start stop : Nat} {chunks : List Chunk} (h : Tiles start chunks stop) :
    start ≤ stop := by
  induction h with
  | nil slot => exact Nat.le_refl slot
  | cons c _ ih => exact Nat.le_trans (Nat.le_of_lt c.start_lt_stop) ih

lemma stop_le {start stop : Nat} {chunks : List Chunk} (h : Tiles start chunks stop) :
    ∀ c ∈ chunks, start ≤ c.start ∧ c.stop ≤ stop := by
  induction h with
  | nil slot => simp
  | cons c hrest ih =>
    rintro d (_ | ⟨_, hd⟩)
    · exact ⟨Nat.le_refl _, hrest.le⟩
    · exact ⟨Nat.le_trans (Nat.le_of_lt c.start_lt_stop) (ih d hd).1, (ih d hd).2⟩

lemma eq_of_start_eq {start stop : Nat} {chunks : List Chunk} (h : Tiles start chunks stop)
    {c d : Chunk} (hc : c ∈ chunks) (hd : d ∈ chunks) (hstart : c.start = d.start) : c = d := by
  induction h with
  | nil slot => simp at hc
  | cons first hrest ih =>
    have hfirst := first.start_lt_stop
    rcases List.mem_cons.1 hc with hcfirst | hcrest
    · rcases List.mem_cons.1 hd with hdfirst | hdrest
      · exact hcfirst.trans hdfirst.symm
      · have hbehind := (hrest.stop_le d hdrest).1
        rw [hcfirst] at hstart
        omega
    · rcases List.mem_cons.1 hd with hdfirst | hdrest
      · have hbehind := (hrest.stop_le c hcrest).1
        rw [hdfirst] at hstart
        omega
      · exact ih hcrest hdrest

/-- A tiling is known from where its first chunk starts and its last one stops. -/
lemma iff_contiguous {stop : Nat} {c : Chunk} {rest : List Chunk} :
    Tiles c.start (c :: rest) stop ↔
      Contiguous (c :: rest) ∧ ∃ last, (c :: rest).getLast? = some last ∧ last.stop = stop := by
  induction rest generalizing c with
  | nil =>
    rw [cons_iff, nil_iff]
    constructor
    · rintro ⟨-, hstop⟩
      exact ⟨.singleton c, c, rfl, hstop⟩
    · rintro ⟨-, last, hlast, hstop⟩
      obtain rfl := Option.some.inj hlast
      exact ⟨rfl, hstop⟩
  | cons d rest ih =>
    rw [cons_iff, Contiguous, List.isChain_cons_cons, List.getLast?_cons_cons]
    constructor
    · rintro ⟨-, h⟩
      obtain ⟨hd, -⟩ := cons_iff.1 h
      obtain ⟨hchain, hlast⟩ := ih.1 (hd ▸ h)
      exact ⟨⟨hd, hchain⟩, hlast⟩
    · rintro ⟨⟨hd, hchain⟩, hlast⟩
      exact ⟨rfl, hd ▸ ih.2 ⟨hchain, hlast⟩⟩

lemma exists_mem {start stop : Nat} {chunks : List Chunk} (h : Tiles start chunks stop) {slot : Nat}
    (hle : start ≤ slot) (hlt : slot < stop) : ∃ c ∈ chunks, slot ∈ c := by
  induction h with
  | nil slot => omega
  | cons c _ ih =>
    rcases Nat.lt_or_ge slot c.stop with hc | hc
    · exact ⟨c, by simp, hle, hc⟩
    · obtain ⟨d, hd, hslot⟩ := ih hc hlt
      exact ⟨d, by simp [hd], hslot⟩

/-- What is put together chunk by chunk has in each slot what its chunk has there. -/
theorem getElem?_flatMap {α : Type} {items : List (Chunk × List α)} {start stop : Nat}
    (h : Tiles start (items.map (·.1)) stop) (hsize : ∀ item ∈ items, item.1.size = item.2.length)
    {item : Chunk × List α} (hitem : item ∈ items) {slot : Nat} (hslot : slot ∈ item.1) :
    (items.flatMap (·.2))[slot - start]? = item.2[slot - item.1.start]? := by
  induction items generalizing start with
  | nil => simp at hitem
  | cons first rest ih =>
    obtain ⟨c, values⟩ := first
    have hvalues : c.size = values.length := hsize (c, values) (by simp)
    cases h with
    | cons _ hrest =>
    rw [Chunk.size] at hvalues
    rw [List.flatMap_cons]
    rcases List.mem_cons.1 hitem with rfl | hitem
    · have hstart : c.start ≤ slot := hslot.1
      have hstop : slot < c.stop := hslot.2
      have hlt : slot - c.start < values.length := by omega
      exact List.getElem?_append_left hlt
    · -- the slot comes after the first chunk
      have hc := c.start_lt_stop
      have hle : c.stop ≤ item.1.start := (hrest.stop_le item.1 (List.mem_map_of_mem hitem)).1
      have hstart : item.1.start ≤ slot := hslot.1
      have hge : values.length ≤ slot - c.start := by omega
      have hindex : slot - c.start - values.length = slot - c.stop := by omega
      rw [← ih hrest (fun item hitem => hsize item (by simp [hitem])) hitem, ← hindex]
      exact List.getElem?_append_right hge

lemma length_flatMap {α : Type} {items : List (Chunk × List α)} {start stop : Nat}
    (h : Tiles start (items.map (·.1)) stop)
    (hsize : ∀ item ∈ items, item.1.size = item.2.length) :
    start + (items.flatMap (·.2)).length = stop := by
  induction items generalizing start with
  | nil =>
    cases h
    simp
  | cons item rest ih =>
    obtain ⟨c, values⟩ := item
    obtain ⟨hstart, hrest⟩ := cons_iff.1 h
    have hvalues : c.size = values.length := hsize (c, values) (by simp)
    have hc := c.start_lt_stop
    have hlength := ih hrest fun item hitem => hsize item (by simp [hitem])
    rw [Chunk.size] at hvalues
    rw [List.flatMap_cons, List.length_append]
    dsimp only at *
    omega

end Tiles

/-! ## Cutting a range -/

section Cut

variable {size total : Nat} (size_pos : 0 < size)

lemma cut_of_le {start : Nat} (h : total ≤ start) : cut size total size_pos start = [] := by
  rw [cut, dif_neg (Nat.not_lt.2 h)]

/-- After its first chunk a range is cut from where that chunk stops. -/
lemma cut_of_lt {start : Nat} (h : start < total) :
    ∃ c : Chunk, c.start = start ∧ c.stop = min (start + size) total ∧
      cut size total size_pos start = c :: cut size total size_pos c.stop := by
  refine ⟨⟨start, min (start + size) total, by omega⟩, rfl, rfl, ?_⟩
  rw [cut, dif_pos h]
  refine congrArg (_ :: ·) ?_
  show cut size total size_pos (start + size) =
    cut size total size_pos (min (start + size) total)
  rcases Nat.le_total (start + size) total with hle | hle
  · rw [Nat.min_eq_left hle]
  · rw [Nat.min_eq_right hle, cut_of_le size_pos hle, cut_of_le size_pos (Nat.le_refl total)]

/-- A range that is not empty is tiled by the chunks it is cut into. -/
theorem tiles_cut {start : Nat} (h : start ≤ total) :
    Tiles start (cut size total size_pos start) total := by
  induction hd : total - start using Nat.strongRecOn generalizing start with
  | ind d ih =>
    rcases Nat.eq_or_lt_of_le h with heq | hlt
    · rw [cut_of_le size_pos (Nat.le_of_eq heq.symm), heq]
      exact .nil total
    · obtain ⟨c, hstart, hstop, hcut⟩ := cut_of_lt size_pos hlt
      rw [hcut, ← hstart]
      exact .cons c (ih (total - c.stop) (by omega) (by omega) rfl)

end Cut

lemma partition_of_pos {size : Nat} (size_pos : 0 < size) (total start : Nat) :
    ∃ chunks, partition total start size = .ok chunks := ⟨_, dif_pos size_pos⟩

/-- A partition that succeeds tiles its range; past the end of the range there are no chunks. -/
theorem partition_eq_ok {total start size : Nat} {chunks : List Chunk}
    (h : partition total start size = .ok chunks) :
    (start ≤ total → Tiles start chunks total) ∧ (total ≤ start → chunks = []) := by
  unfold partition at h
  split at h
  · next size_pos =>
    obtain rfl := Except.ok.inj h
    exact ⟨tiles_cut size_pos, cut_of_le size_pos⟩
  · cases h

namespace Population

/-! ## Chunks that are moved out -/

/-- The chunks that continue one another are the tilings. -/
theorem contiguousEnd_eq_ok_iff {start stop : Nat} {chunks : List Chunk} :
    contiguousEnd start chunks = .ok stop ↔ Tiles start chunks stop := by
  induction chunks generalizing start with
  | nil =>
    constructor
    · intro h
      obtain rfl : start = stop := Except.ok.inj h
      exact .nil start
    · intro h
      cases h
      rfl
  | cons c rest ih =>
    constructor
    · intro h
      unfold contiguousEnd at h
      split at h
      · next hstart =>
        rw [← hstart]
        exact .cons c (ih.1 h)
      · cases h
    · intro h
      cases h with
      | cons _ hrest =>
        rw [contiguousEnd, if_pos rfl]
        exact ih.2 hrest

end Population

end KnapsackEvolution
