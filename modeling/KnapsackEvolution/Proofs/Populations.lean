/-
# What the operations on a population change

Writing fitness values back changes no gene.  Appending chunks changes nothing that was there
before.  Moving chunks out leaves the individuals before the first chunk.  The scan for the fittest
individual finds the first slot with the greatest fitness, provided everyone has been measured.
-/
import KnapsackEvolution.Engine.Step
import KnapsackEvolution.Proofs.Tiles

namespace KnapsackEvolution

/-- The part of a row of slots that a chunk covers. -/
def Chunk.slice {α : Type} (c : Chunk) (row : List α) : List α := (row.drop c.start).take c.size

lemma Chunk.start_add_size (c : Chunk) : c.start + c.size = c.stop := by
  have := c.start_lt_stop
  unfold size
  omega

lemma Chunk.slice_append_drop {α : Type} (c : Chunk) (row : List α) :
    c.slice row ++ row.drop c.stop = row.drop c.start := by
  have h := List.take_append_drop c.size (row.drop c.start)
  rwa [List.drop_drop, c.start_add_size] at h

lemma Chunk.length_slice {α : Type} {c : Chunk} {row : List α} (h : c.stop ≤ row.length) :
    (c.slice row).length = c.size := by
  have := c.start_add_size
  simp only [slice, List.length_take, List.length_drop]
  omega

lemma Chunk.getElem?_slice {α : Type} {c : Chunk} {row : List α} {place : Nat}
    (h : place < c.size) : (c.slice row)[place]? = row[c.start + place]? := by
  rw [slice, List.getElem?_take_of_lt h, List.getElem?_drop]

lemma Chunk.slice_take {α : Type} (c : Chunk) {stop : Nat} (row : List α) (h : c.stop ≤ stop) :
    c.slice (row.take stop) = c.slice row := by
  have hc := c.start_add_size
  rw [slice, slice, List.drop_take, List.take_take, Nat.min_eq_left (by omega)]

namespace Population

/-- The genes of every slot. -/
def genes (p : Population) : List (List Bool) := p.individuals.map (·.genes)

lemma length_genes (p : Population) : p.genes.length = p.size := by
  simp [genes, size]

lemma size_eq_of_genes_eq {p q : Population} (h : p.genes = q.genes) : p.size = q.size := by
  rw [← length_genes, h, length_genes]

lemma mem_genes {p : Population} {i : Individual} (h : i ∈ p.individuals) : i.genes ∈ p.genes :=
  List.mem_map_of_mem h

/-! ## Writing fitness values back -/

lemma map_genes_zipWith_record {is : List Individual} {values : List Fitness}
    (h : is.length = values.length) :
    (List.zipWith Individual.record is values).map (·.genes) = is.map (·.genes) := by
  induction is generalizing values with
  | nil => rfl
  | cons i is ih =>
    cases values with
    | nil => simp at h
    | cons f values => simp [ih (by simpa using h)]

/-- With one value for each slot no slot of the chunk is left over. -/
lemma recordFitness_eq (p : Population) (c : Chunk) (values : List Fitness) :
    p.recordFitness c values =
      if c.stop ≤ p.size ∧ c.size = values.length then
        .ok ⟨p.individuals.take c.start
          ++ List.zipWith Individual.record (c.slice p.individuals) values
          ++ p.individuals.drop c.stop⟩
      else .error (.evolution (.misfitFitness c.start c.stop values.length p.size)) := by
  unfold recordFitness recordFitnessM
  by_cases h : c.stop ≤ p.size ∧ c.size = values.length
  · have hslots : (c.slice p.individuals).length ≤ values.length :=
      Nat.le_of_eq ((c.length_slice h.1).trans h.2)
    have hwrite : Id.run (p.overwriteM c values) = ⟨p.individuals.take c.start
        ++ List.zipWith Individual.record (c.slice p.individuals) values
        ++ (c.slice p.individuals).drop values.length ++ p.individuals.drop c.stop⟩ := rfl
    rw [List.drop_eq_nil_of_le hslots, List.append_nil] at hwrite
    rw [if_pos h, if_pos h, ← hwrite]
    rfl
  · rw [if_neg h, if_neg h]
    rfl

lemma recordFitness_eq_ok {p : Population} {c : Chunk} {values : List Fitness}
    (hstop : c.stop ≤ p.size) (hsize : c.size = values.length) :
    p.recordFitness c values = .ok ⟨p.individuals.take c.start
      ++ List.zipWith Individual.record (c.slice p.individuals) values
      ++ p.individuals.drop c.stop⟩ := by
  rw [recordFitness_eq, if_pos ⟨hstop, hsize⟩]

lemma genes_recordFitness {p q : Population} {c : Chunk} {values : List Fitness}
    (h : p.recordFitness c values = .ok q) : q.genes = p.genes := by
  rw [recordFitness_eq] at h
  split at h
  · next hfit =>
    obtain rfl := Except.ok.inj h
    have hslice : (c.slice p.individuals).length = values.length := by
      rw [c.length_slice hfit.1, hfit.2]
    have hrow := c.slice_append_drop p.individuals
    calc genes _ = (p.individuals.take c.start).map (·.genes)
          ++ (List.zipWith Individual.record (c.slice p.individuals) values).map (·.genes)
          ++ (p.individuals.drop c.stop).map (·.genes) := by
            rw [genes, List.map_append, List.map_append]
      _ = (p.individuals.take c.start ++ p.individuals.drop c.start).map (·.genes) := by
            rw [map_genes_zipWith_record hslice, ← hrow]
            simp
      _ = p.genes := by rw [List.take_append_drop, genes]
  · cases h

lemma recordChunks_cons (p : Population) (c : Chunk) (values : List Fitness)
    (rest : List (Chunk × List Fitness)) :
    p.recordChunks ((c, values) :: rest) =
      match p.recordFitness c values with
      | .ok q => q.recordChunks rest
      | .error e => (.error e, p) := rfl

/-- Writing values changes no gene, even if it stops at a chunk that does not fit. -/
theorem genes_recordChunks (p : Population) (items : List (Chunk × List Fitness)) :
    (p.recordChunks items).2.genes = p.genes := by
  induction items generalizing p with
  | nil => rfl
  | cons item rest ih =>
    obtain ⟨c, values⟩ := item
    rw [recordChunks_cons]
    cases h : p.recordFitness c values with
    | error e => rfl
    | ok q => exact (ih q).trans (genes_recordFitness h)

/-- Values for the chunks of a tiling fill the range of the tiling, slot by slot. -/
theorem recordChunks_of_tiles {start stop : Nat} {p : Population}
    {items : List (Chunk × List Fitness)} (h : Tiles start (items.map (·.1)) stop)
    (hstop : stop = p.size) (hsize : ∀ item ∈ items, item.1.size = item.2.length) :
    p.recordChunks items = (.ok (), ⟨p.individuals.take start
      ++ List.zipWith Individual.record (p.individuals.drop start) (items.flatMap (·.2))⟩) := by
  induction items generalizing start p with
  | nil =>
    cases h
    have hnil : p.recordChunks [] = (.ok (), p) := rfl
    simp [hnil, hstop, size]
  | cons item rest ih =>
    obtain ⟨c, values⟩ := item
    cases h with
    | cons _ hrest =>
    have hc : c.stop ≤ p.size := hstop ▸ hrest.le
    have hvalues : c.size = values.length := hsize (c, values) (by simp)
    have hslice : (c.slice p.individuals).length = values.length := by
      rw [c.length_slice hc, hvalues]
    set front := p.individuals.take c.start
      ++ List.zipWith Individual.record (c.slice p.individuals) values with hfront
    have hlength : front.length = c.stop := by
      have := c.start_add_size
      have : c.start ≤ p.individuals.length := Nat.le_trans (by omega) hc
      simp only [hfront, List.length_append, List.length_take, List.length_zipWith]
      omega
    rw [recordChunks_cons, recordFitness_eq_ok hc hvalues]
    -- the rest is written behind the slots of this chunk
    have hq : stop = size ⟨front ++ p.individuals.drop c.stop⟩ := by
      rw [size, List.length_append, hlength, List.length_drop, hstop]
      exact (Nat.add_sub_cancel' hc).symm
    refine (ih hrest hq fun item hitem => hsize item (by simp [hitem])).trans ?_
    refine congrArg (fun row => (Except.ok (), Population.mk row)) ?_
    rw [List.take_left' hlength, List.drop_left' hlength, List.flatMap_cons, hfront,
      List.append_assoc, ← c.slice_append_drop p.individuals, List.zipWith_append hslice]

/-! ## Appending chunks -/

/-- Chunks that are appended leave everyone where they are and bring in no one else. -/
theorem restoreChunks_snd (p : Population) (items : List (Chunk × List Individual)) :
    ∃ back, (p.restoreChunks items).2.individuals = p.individuals ++ back ∧
      ∀ i ∈ back, ∃ item ∈ items, i ∈ item.2 := by
  induction items generalizing p with
  | nil => exact ⟨[], by simp [restoreChunks], by simp⟩
  | cons item rest ih =>
    obtain ⟨c, individuals⟩ := item
    unfold restoreChunks
    split
    · obtain ⟨back, hback, hmem⟩ := ih ⟨p.individuals ++ individuals⟩
      refine ⟨individuals ++ back, by rw [hback, List.append_assoc], ?_⟩
      intro i hi
      rcases List.mem_append.1 hi with hi | hi
      · exact ⟨(c, individuals), by simp, hi⟩
      · obtain ⟨item, hitem, h⟩ := hmem i hi
        exact ⟨item, by simp [hitem], h⟩
    · exact ⟨[], by simp, by simp⟩

/-- Chunks that tile the slots behind a population are appended in order. -/
theorem restoreChunks_of_tiles {p : Population} {items : List (Chunk × List Individual)}
    {stop : Nat} (h : Tiles p.size (items.map (·.1)) stop)
    (hsize : ∀ item ∈ items, item.1.size = item.2.length) :
    p.restoreChunks items = (.ok (), ⟨p.individuals ++ items.flatMap (·.2)⟩) := by
  induction items generalizing p with
  | nil => simp [restoreChunks]
  | cons item rest ih =>
    obtain ⟨c, individuals⟩ := item
    have hc : c.size = individuals.length := hsize (c, individuals) (by simp)
    obtain ⟨hstart, hrest⟩ := Tiles.cons_iff.1 h
    have hlength : size ⟨p.individuals ++ individuals⟩ = c.stop := by
      rw [size, List.length_append, ← c.start_add_size, hc, hstart, size]
    rw [restoreChunks, if_pos ⟨hstart, hc⟩,
      ih (hlength ▸ hrest) fun item hitem => hsize item (by simp [hitem])]
    simp

/-! ## Moving chunks out -/

lemma takeChunks_cons (p : Population) (first : Chunk) (rest : List Chunk) :
    p.takeChunks (first :: rest) =
      match contiguousEnd first.start (first :: rest) with
      | .error e => .error e
      | .ok stop =>
        if stop = p.size then
          .ok (deal (first :: rest) (p.individuals.drop first.start),
            ⟨p.individuals.take first.start⟩)
        else .error (.evolution (.wrongEnd stop p.size)) := rfl

lemma takeChunks_of_tiles {p : Population} {chunks : List Chunk} {start : Nat}
    (h : Tiles start chunks p.size) :
    p.takeChunks chunks =
      .ok (deal chunks (p.individuals.drop start), ⟨p.individuals.take start⟩) := by
  cases h with
  | nil _ =>
    rw [size, List.take_length]
    rfl
  | cons c hrest =>
    have hend := contiguousEnd_eq_ok_iff.2 (Tiles.cons c hrest)
    simp only [takeChunks_cons, hend, if_true]

lemma deal_flatMap {items : List (Chunk × List Individual)}
    (hsize : ∀ item ∈ items, item.1.size = item.2.length) :
    deal (items.map (·.1)) (items.flatMap (·.2)) = items := by
  induction items with
  | nil => rfl
  | cons item rest ih =>
    obtain ⟨c, individuals⟩ := item
    have hc : c.size = individuals.length := hsize (c, individuals) (by simp)
    rw [List.map_cons, List.flatMap_cons, deal, hc, List.take_left, List.drop_left,
      ih fun item hitem => hsize item (by simp [hitem])]

lemma map_fst_deal (chunks : List Chunk) (row : List Individual) :
    (deal chunks row).map (·.1) = chunks := by
  induction chunks generalizing row with
  | nil => rfl
  | cons c rest ih => exact congrArg (c :: ·) (ih _)

section Tiled

variable {start stop : Nat} {chunks : List Chunk} {row : List Individual}
  (h : Tiles start chunks stop) (hlength : start + row.length = stop)

include h hlength

/-- A row as long as the range of a tiling is dealt out to the chunks without a gap. -/
lemma length_of_mem_deal : ∀ item ∈ deal chunks row, item.1.size = item.2.length := by
  induction h generalizing row with
  | nil slot => simp [deal]
  | cons c hrest ih =>
    have hle := hrest.le
    have hc := c.start_add_size
    rintro item (_ | ⟨_, hitem⟩)
    · simp only [List.length_take]
      omega
    · refine ih ?_ item hitem
      rw [List.length_drop]
      omega

lemma flatMap_deal : (deal chunks row).flatMap (·.2) = row := by
  induction h generalizing row with
  | nil slot =>
    have hrow : row = [] := List.eq_nil_of_length_eq_zero (by omega)
    rw [hrow]
    rfl
  | cons c hrest ih =>
    have hle := hrest.le
    have hc := c.start_add_size
    rw [deal, List.flatMap_cons, ih (by rw [List.length_drop]; omega), List.take_append_drop]

end Tiled

lemma mem_of_mem_deal {chunks : List Chunk} {individuals : List Individual}
    {item : Chunk × List Individual} (h : item ∈ deal chunks individuals) :
    ∀ i ∈ item.2, i ∈ individuals := by
  induction chunks generalizing individuals with
  | nil => simp [deal] at h
  | cons c rest ih =>
    rcases List.mem_cons.1 h with rfl | h
    · intro i hi
      exact List.mem_of_mem_take hi
    · intro i hi
      exact List.mem_of_mem_drop (ih h i hi)

/-- When chunks are moved out there are none, or they tile the end of the population and the
individuals before them stay. -/
theorem takeChunks_eq_ok {p rest : Population} {chunks : List Chunk}
    {items : List (Chunk × List Individual)} (h : p.takeChunks chunks = .ok (items, rest)) :
    (chunks = [] ∧ items = [] ∧ rest = p) ∨
      ∃ c tail, chunks = c :: tail ∧ Tiles c.start chunks p.size ∧
        items = deal chunks (p.individuals.drop c.start) ∧
        rest = ⟨p.individuals.take c.start⟩ := by
  cases chunks with
  | nil =>
    obtain ⟨rfl, rfl⟩ := Prod.mk.inj (Except.ok.inj h)
    exact .inl ⟨rfl, rfl, rfl⟩
  | cons c tail =>
    right
    rw [takeChunks_cons] at h
    cases hend : contiguousEnd c.start (c :: tail) with
    | error e => rw [hend] at h; cases h
    | ok stop =>
      simp only [hend] at h
      split at h
      · next hstop =>
        obtain ⟨rfl, rfl⟩ := Prod.mk.inj (Except.ok.inj h)
        have htiles := contiguousEnd_eq_ok_iff.1 hend
        rw [hstop] at htiles
        exact ⟨c, tail, rfl, htiles, rfl, rfl⟩
      · cases h

lemma mem_of_takeChunks {p rest : Population} {chunks : List Chunk}
    {items : List (Chunk × List Individual)} (h : p.takeChunks chunks = .ok (items, rest)) :
    (∀ i ∈ rest.individuals, i ∈ p.individuals) ∧
      ∀ item ∈ items, ∀ i ∈ item.2, i ∈ p.individuals := by
  rcases takeChunks_eq_ok h with ⟨-, rfl, rfl⟩ | ⟨c, tail, -, -, rfl, rfl⟩
  · exact ⟨fun i hi => hi, by simp⟩
  · constructor
    · intro i hi
      exact List.mem_of_mem_take hi
    · intro item hitem i hi
      exact List.mem_of_mem_drop (mem_of_mem_deal hitem i hi)

lemma get?_zero_of_takeChunks {p rest : Population} {chunks : List Chunk}
    {items : List (Chunk × List Individual)} (h : p.takeChunks chunks = .ok (items, rest))
    (hstart : ∀ c ∈ chunks, 1 ≤ c.start) : rest.get? 0 = p.get? 0 := by
  rcases takeChunks_eq_ok h with ⟨-, -, rfl⟩ | ⟨c, tail, hchunks, -, -, rfl⟩
  · rfl
  · have hc : 0 < c.start := hstart c (by simp [hchunks])
    simp [get?, List.getElem?_take_of_lt hc]

lemma get?_zero_of_restoreChunks {p q : Population} {items : List (Chunk × List Individual)}
    {result : Except Error Unit} (h : p.restoreChunks items = (result, q)) {i : Individual}
    (hi : p.get? 0 = some i) : q.get? 0 = some i := by
  obtain ⟨back, hback, -⟩ := p.restoreChunks_snd items
  rw [h] at hback
  have hpos : 0 < p.individuals.length := (List.getElem?_eq_some_iff.1 hi).1
  rw [get?, hback, List.getElem?_append_left hpos]
  exact hi

/-! ## The fittest individual -/

/-- In slot `slot` of a row is the first one of those with the greatest score `f`; everyone in the
row has a score. -/
structure FirstMax {α : Type} (score : α → Option Fitness) (row : List α) (slot : Nat)
    (f : Fitness) : Prop where
  attained : ∃ a, row[slot]? = some a ∧ score a = some f
  le : ∀ (t : Nat) (a : α), row[t]? = some a → ∃ g, score a = some g ∧ g ≤ f
  lt : ∀ (t : Nat) (a : α), row[t]? = some a → t < slot → ∃ g, score a = some g ∧ g < f

/-- The best slot before a place: none if the place is the first one. -/
def BestSoFar (row : List Individual) : Option (Nat × Fitness) → Prop
  | none => row = []
  | some (slot, f) => FirstMax (·.fitness?) row slot f

lemma FirstMax.lt_length {α : Type} {score : α → Option Fitness} {row : List α} {slot : Nat}
    {f : Fitness} (h : FirstMax score row slot f) : slot < row.length := by
  obtain ⟨a, ha, -⟩ := h.attained
  exact (List.getElem?_eq_some_iff.1 ha).1

lemma FirstMax.unique {α : Type} {score : α → Option Fitness} {row : List α} {slot slot' : Nat}
    {f f' : Fitness} (h : FirstMax score row slot f) (h' : FirstMax score row slot' f') :
    slot = slot' ∧ f = f' := by
  obtain ⟨a, ha, hf⟩ := h.attained
  obtain ⟨a', ha', hf'⟩ := h'.attained
  have hle : f ≤ f' ∧ f' ≤ f := by
    obtain ⟨g, hg, hle⟩ := h'.le slot a ha
    obtain ⟨g', hg', hle'⟩ := h.le slot' a' ha'
    rw [hf] at hg
    rw [hf'] at hg'
    exact ⟨Option.some.inj hg ▸ hle, Option.some.inj hg' ▸ hle'⟩
  obtain rfl : f = f' := Int64.le_antisymm hle.1 hle.2
  refine ⟨?_, rfl⟩
  -- whichever came later would have to be better than the earlier one
  rcases Nat.lt_trichotomy slot slot' with hlt | heq | hlt
  · obtain ⟨g, hg, hbetter⟩ := h'.lt slot a ha hlt
    obtain rfl : f = g := Option.some.inj (hf.symm.trans hg)
    exact absurd hbetter Int64.lt_irrefl
  · exact heq
  · obtain ⟨g, hg, hbetter⟩ := h.lt slot' a' ha' hlt
    obtain rfl : f = g := Option.some.inj (hf'.symm.trans hg)
    exact absurd hbetter Int64.lt_irrefl

lemma getElem?_snoc {α : Type} {row : List α} {a b : α} {t : Nat}
    (h : (row ++ [a])[t]? = some b) : (t < row.length ∧ row[t]? = some b) ∨ a = b := by
  rcases Nat.lt_or_ge t row.length with ht | ht
  · rw [List.getElem?_append_left ht] at h
    exact .inl ⟨ht, h⟩
  · rw [List.getElem?_append_right ht] at h
    exact .inr (List.mem_singleton.1 (List.mem_of_getElem? h)).symm

/-- One that scores more than all before it is the first of the best. -/
lemma FirstMax.snoc_new {α : Type} {score : α → Option Fitness} {row : List α} {a : α} {f : Fitness}
    (ha : score a = some f)
    (hrow : ∀ (t : Nat) (b : α), row[t]? = some b → ∃ g, score b = some g ∧ g < f) :
    FirstMax score (row ++ [a]) row.length f := by
  refine ⟨⟨a, by simp, ha⟩, ?_, ?_⟩
  · intro t b hb
    rcases getElem?_snoc hb with ⟨-, hb⟩ | rfl
    · obtain ⟨g, hg, hlt⟩ := hrow t b hb
      exact ⟨g, hg, Int64.le_of_lt hlt⟩
    · exact ⟨f, ha, Int64.le_rfl⟩
  · intro t b hb ht
    rw [List.getElem?_append_left ht] at hb
    exact hrow t b hb

/-- One that scores no more leaves the first of the best where it is. -/
lemma FirstMax.snoc_old {α : Type} {score : α → Option Fitness} {row : List α} {a : α} {slot : Nat}
    {f g : Fitness} (h : FirstMax score row slot f) (ha : score a = some g) (hle : g ≤ f) :
    FirstMax score (row ++ [a]) slot f := by
  have hslot := h.lt_length
  refine ⟨?_, ?_, ?_⟩
  · obtain ⟨b, hb, hf⟩ := h.attained
    exact ⟨b, by rw [List.getElem?_append_left hslot, hb], hf⟩
  · intro t b hb
    rcases getElem?_snoc hb with ⟨-, hb⟩ | rfl
    · exact h.le t b hb
    · exact ⟨g, ha, hle⟩
  · intro t b hb ht
    rw [List.getElem?_append_left (Nat.lt_trans ht hslot)] at hb
    exact h.lt t b hb ht

/-- One that scores more than the best so far is the first of the best. -/
lemma FirstMax.snoc_gt {α : Type} {score : α → Option Fitness} {row : List α} {a : α} {slot : Nat}
    {f g : Fitness} (h : FirstMax score row slot f) (ha : score a = some g) (hlt : f < g) :
    FirstMax score (row ++ [a]) row.length g := by
  refine snoc_new ha ?_
  intro t b hb
  obtain ⟨f', hf', hle⟩ := h.le t b hb
  exact ⟨f', hf', Int64.lt_of_le_of_lt hle hlt⟩

/-- The scan keeps the first of the fittest among those it has seen. -/
lemma bestFrom_eq_ok {row rest : List Individual} {best found : Option (Nat × Fitness)}
    (hbest : BestSoFar row best) (h : bestFrom row.length best rest = .ok found) :
    BestSoFar (row ++ rest) found := by
  -- what has been seen grows at its end, and `best` is right about it
  induction rest generalizing row best with
  | nil =>
    obtain rfl : best = found := Except.ok.inj h
    rwa [List.append_nil]
  | cons i rest ih =>
    unfold bestFrom at h
    cases hf : i.fitness with
    | error e => rw [hf] at h; cases h
    | ok f =>
      have hi : i.fitness? = some f := Individual.fitness_eq_ok_iff.1 hf
      have hlength : row.length + 1 = (row ++ [i]).length := by simp
      rw [hf] at h
      rw [← List.singleton_append, ← List.append_assoc]
      match best, hbest with
      | none, hrow =>
        obtain rfl : row = [] := hrow
        have hnew : BestSoFar ([] ++ [i]) (some (0, f)) := FirstMax.snoc_new hi (by simp)
        exact ih hnew h
      | some (slot, f₀), hmax =>
        change (if f₀ < f then _ else _) = _ at h
        split at h
        · next hlt =>
          have hnew : BestSoFar (row ++ [i]) (some (row.length, f)) :=
            FirstMax.snoc_gt hmax hi hlt
          rw [hlength] at h
          exact ih hnew h
        · next hlt =>
          -- not strictly fitter, so an earlier slot keeps its place on ties
          have hold : BestSoFar (row ++ [i]) (some (slot, f₀)) :=
            FirstMax.snoc_old hmax hi (Int64.not_lt.1 hlt)
          rw [hlength] at h
          exact ih hold h

/-- The best slot is the first one with the greatest fitness. -/
theorem bestIndex_eq_ok {p : Population} {slot : Nat} (h : p.bestIndex = .ok slot) :
    ∃ f, FirstMax (·.fitness?) p.individuals slot f := by
  unfold bestIndex at h
  cases hfound : bestFrom 0 none p.individuals with
  | error e => rw [hfound] at h; cases h
  | ok found =>
    have hnone : BestSoFar [] none := rfl
    have hbest : BestSoFar p.individuals found := bestFrom_eq_ok hnone hfound
    rw [hfound] at h
    match found, hbest with
    | none, _ => cases h
    | some (slot', f), hmax =>
      obtain rfl : slot' = slot := Except.ok.inj h
      exact ⟨f, hmax⟩

lemma bestFrom_of_measured {rest : List Individual} (h : ∀ i ∈ rest, ∃ f, i.fitness? = some f)
    (slot : Nat) (best : Option (Nat × Fitness)) :
    ∃ found, bestFrom slot best rest = .ok found ∧ (best.isSome ∨ rest ≠ [] → found.isSome) := by
  induction rest generalizing slot best with
  | nil => exact ⟨best, rfl, by simp⟩
  | cons i rest ih =>
    obtain ⟨f, hf⟩ := h i (by simp)
    have ih := ih fun j hj => h j (by simp [hj])
    have hstep : ∃ next, next.isSome ∧
        bestFrom slot best (i :: rest) = bestFrom (slot + 1) next rest := by
      simp only [bestFrom, Individual.fitness_eq_ok_iff.2 hf, bind, Except.bind]
      match best with
      | none => exact ⟨_, rfl, rfl⟩
      | some (bestSlot, bestFitness) =>
        dsimp only
        split
        · exact ⟨_, rfl, rfl⟩
        · exact ⟨_, rfl, rfl⟩
    obtain ⟨next, hnext, hstep⟩ := hstep
    obtain ⟨found, hfound, hsome⟩ := ih (slot + 1) next
    exact ⟨found, hstep.trans hfound, fun _ => hsome (.inl hnext)⟩

lemma bestIndex_of_measured {p : Population} (h : ∀ i ∈ p.individuals, ∃ f, i.fitness? = some f)
    (size_pos : 0 < p.size) : ∃ slot, p.bestIndex = .ok slot := by
  obtain ⟨found, hfound, hsome⟩ := bestFrom_of_measured h 0 none
  have hne : p.individuals ≠ [] := List.ne_nil_of_length_pos size_pos
  obtain ⟨⟨slot, f⟩, rfl⟩ := Option.isSome_iff_exists.1 (hsome (.inr hne))
  refine ⟨slot, ?_⟩
  rw [bestIndex, hfound]
  rfl

lemma best_of_bestIndex {p : Population} {slot : Nat} {i : Individual}
    (hslot : p.bestIndex = .ok slot) (hi : p.get? slot = some i) : p.best = .ok i := by
  unfold best bestM
  rw [hslot]
  dsimp only
  rw [readM, hi]
  rfl

lemma best_of_bestIndex_error {p : Population} {e : Error} (h : p.bestIndex = .error e) :
    p.best = .error e := by
  unfold best bestM
  rw [h]
  rfl

/-- In a population where everyone has a fitness there is a fittest individual. -/
theorem best_of_measured {p : Population} (h : ∀ i ∈ p.individuals, ∃ f, i.fitness? = some f)
    (size_pos : 0 < p.size) : ∃ i f, p.best = .ok i ∧ i.fitness? = some f := by
  obtain ⟨slot, hslot⟩ := bestIndex_of_measured h size_pos
  obtain ⟨f, hmax⟩ := bestIndex_eq_ok hslot
  obtain ⟨i, hi, hf⟩ := hmax.attained
  exact ⟨i, f, best_of_bestIndex hslot hi, hf⟩

/-- The best individual is the one in the best slot. -/
theorem best_eq_ok {p : Population} {i : Individual} (h : p.best = .ok i) :
    ∃ slot f, FirstMax (·.fitness?) p.individuals slot f ∧ p.individuals[slot]? = some i := by
  cases hslot : p.bestIndex with
  | error e =>
    rw [best_of_bestIndex_error hslot] at h
    cases h
  | ok slot =>
    obtain ⟨f, hmax⟩ := bestIndex_eq_ok hslot
    obtain ⟨j, hj, -⟩ := hmax.attained
    obtain rfl : j = i := Except.ok.inj ((best_of_bestIndex hslot hj).symm.trans h)
    exact ⟨slot, f, hmax, hj⟩

end Population

end KnapsackEvolution
