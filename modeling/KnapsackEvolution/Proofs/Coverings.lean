/-
# Covering a population with scores

Chunks that together have all slots of a population, and no more slots than it, have no slot in
common (`Chunk.pairwise_apart_of_covers`).  So when a sparing executor has measured a population in
which nobody had a fitness, it may have shuffled and relabelled the chunks, but each score has been
recorded once and none is missing.  The report of the first generation then has the greatest score
in the population (`Engine.greatest_of_step`).
-/
import KnapsackEvolution.Proofs.Recordings
import KnapsackEvolution.Proofs.Sparing
import Mathlib.Data.List.Nodup

namespace KnapsackEvolution

/-! ## Chunks that cover a range -/

/-- Chunks that cover the first `n` slots and have no more slots than that have each slot once. -/
theorem Chunk.pairwise_apart_of_covers {chunks : List Chunk} {n : Nat}
    (hcover : ∀ slot < n, ∃ c ∈ chunks, slot ∈ c) (hsum : (chunks.map Chunk.size).sum ≤ n) :
    chunks.Pairwise Apart ∧ (chunks.map Chunk.size).sum = n := by
  have hlength : (chunks.flatMap slots).length = (chunks.map Chunk.size).sum := by
    rw [List.length_flatMap]
    simp only [length_slots]
  have hsubset : List.range n ⊆ chunks.flatMap slots := by
    intro slot hslot
    obtain ⟨c, hc, hmem⟩ := hcover slot (List.mem_range.1 hslot)
    exact List.mem_flatMap.2 ⟨c, hc, mem_slots.2 hmem⟩
  have hperm : (List.range n).Perm (chunks.flatMap slots) := by
    refine (List.subperm_of_subset List.nodup_range hsubset).perm_of_length_le ?_
    rw [hlength, List.length_range]
    exact hsum
  refine ⟨?_, ?_⟩
  · have hnodup := hperm.nodup_iff.1 List.nodup_range
    refine (List.nodup_flatMap.1 hnodup).2.imp ?_
    intro c d hdisjoint slot hc hd
    exact hdisjoint (mem_slots.2 hc) (mem_slots.2 hd)
  · rw [← hlength, ← hperm.length_eq, List.length_range]

namespace Population

variable {p q : Population} {items : List (Chunk × List Fitness)}

/-- If nobody had a fitness before and everybody has one after, the chunks that were recorded have
every slot. -/
lemma covers_of_recordChunks (hnew : ∀ i ∈ p.individuals, i.fitness? = none)
    (h : p.recordChunks items = (.ok (), q))
    (hall : ∀ i ∈ q.individuals, ∃ f, i.fitness? = some f) :
    ∀ slot < p.size, ∃ item ∈ items, slot ∈ item.1 := by
  intro slot hslot
  by_contra hnone
  have hsame := get?_recordChunks_of_not_mem h fun item hitem hmem => hnone ⟨item, hitem, hmem⟩
  have hi : p.get? slot = some p.individuals[slot] := List.getElem?_eq_getElem hslot
  obtain ⟨f, hf⟩ := hall _ (List.mem_of_getElem? (hsame.trans hi))
  rw [hnew _ (List.getElem_mem hslot)] at hf
  cases hf

/-- The scores that everyone in the population has. -/
def scores (problem : Problem) (p : Population) : List Fitness :=
  p.individuals.filterMap fun i => problem.score? i.genes

lemma filterMap_of_scores {problem : Problem} {row : List Individual} {values : List Fitness}
    (h : Scores problem row values) : row.filterMap (fun i => problem.score? i.genes) = values := by
  induction h with
  | nil => rfl
  | cons hf _ ih => simp only [List.filterMap_cons, Problem.score?_eq_some_iff.2 hf, ih]

/-- What scoring the chunks of a tiling gives are scores from the population, in order. -/
lemma scores_sublist {problem : Problem} {start stop : Nat} {chunks : List Chunk}
    (h : Tiles start chunks stop) :
    ((chunks.map fun c => (c, ())).filterMap fun job =>
        (scoreChunk problem p job.1 job.2).toOption).flatten.Sublist
      ((p.individuals.drop start).filterMap fun i => problem.score? i.genes) := by
  induction h with
  | nil slot => exact List.nil_sublist _
  | cons c _ ih =>
    rw [← c.slice_append_drop, List.filterMap_append, List.map_cons, List.filterMap_cons]
    cases hscore : scoreChunk problem p c () with
    | error failure => exact ih.trans (List.sublist_append_right _ _)
    | ok values =>
      rw [filterMap_of_scores (scoreChunk_eq_ok_iff.1 hscore)]
      exact ih.append_left values

/-- Each score of the population has been recorded once, in the slots of chunks without a common
slot. -/
structure RecordedOnce (problem : Problem) (p : Population) (items : List (Chunk × List Fitness))
    (q : Population) : Prop where
  recorded : p.recordChunks items = (.ok (), q)
  apart : (items.map (·.1)).Pairwise Chunk.Apart
  covers : ∀ slot < p.size, ∃ item ∈ items, slot ∈ item.1
  scored : ∀ i ∈ p.individuals, ∃ f, problem.score i.genes = .ok f
  perm : (items.flatMap (·.2)).Perm (p.scores problem)

/-- Everyone in the row has a score, and `f` is the greatest of them. -/
structure Greatest (problem : Problem) (row : List (List Bool)) (f : Fitness) : Prop where
  attained : ∃ genes ∈ row, problem.score genes = .ok f
  le : ∀ genes ∈ row, ∃ g, problem.score genes = .ok g ∧ g ≤ f

lemma Greatest.le_of_subset {problem : Problem} {row row' : List (List Bool)} {f f' : Fitness}
    (h : Greatest problem row f) (h' : Greatest problem row' f') (hsubset : row ⊆ row') :
    f ≤ f' := by
  obtain ⟨genes, hgenes, hf⟩ := h.attained
  obtain ⟨g, hg, hle⟩ := h'.le genes (hsubset hgenes)
  obtain rfl : f = g := Except.ok.inj (hf.symm.trans hg)
  exact hle

/-- If each score has been recorded once, the best fitness is the greatest score. -/
theorem RecordedOnce.greatest {problem : Problem} (h : RecordedOnce problem p items q) {slot : Nat}
    {f : Fitness} (hmax : FirstMax (·.fitness?) q.individuals slot f) :
    Greatest problem p.genes f := by
  have hfits := recordChunks_fst_eq_ok_iff.1 (congrArg Prod.fst h.recorded)
  have hsize : q.size = p.size := by
    have hgenes := genes_recordChunks p items
    rw [h.recorded] at hgenes
    exact size_eq_of_genes_eq hgenes
  constructor
  · -- the best fitness is one of the values, and those are scores
    obtain ⟨i, hi, hf⟩ := hmax.attained
    obtain ⟨item, hitem, hmem⟩ := h.covers slot (hsize ▸ hmax.lt_length)
    obtain ⟨k, g, rfl, hk⟩ := exists_value_of_mem (hfits item hitem).2 hmem
    have hvalue := get?_recordChunks_of_value h.apart h.recorded hitem hk
    rw [get?, hi, eq_comm, Option.map_eq_some_iff] at hvalue
    obtain ⟨j, -, rfl⟩ := hvalue
    obtain rfl : g = f := Option.some.inj hf
    have hscore := h.perm.mem_iff.1 (List.mem_flatMap.2 ⟨item, hitem, List.mem_of_getElem? hk⟩)
    obtain ⟨i, hi, hf⟩ := List.mem_filterMap.1 hscore
    exact ⟨i.genes, mem_genes hi, Problem.score?_eq_some_iff.1 hf⟩
  · -- every score is one of the values, and the best fitness is no less than those
    intro genes hgenes
    obtain ⟨i, hi, rfl⟩ := List.mem_map.1 hgenes
    obtain ⟨g, hg⟩ := h.scored i hi
    have hscore : g ∈ p.scores problem :=
      List.mem_filterMap.2 ⟨i, hi, Problem.score?_eq_some_iff.2 hg⟩
    obtain ⟨item, hitem, hvalue⟩ := List.mem_flatMap.1 (h.perm.mem_iff.2 hscore)
    obtain ⟨k, hk⟩ := List.mem_iff_getElem?.1 hvalue
    obtain ⟨hstop, hcount⟩ := hfits item hitem
    obtain ⟨j, hj⟩ := exists_get?_of_mem hstop (mem_of_value hcount hk)
    have hrecord := get?_recordChunks_of_value h.apart h.recorded hitem hk
    rw [hj, Option.map_some] at hrecord
    obtain ⟨g', hg', hle⟩ := hmax.le _ _ hrecord
    obtain rfl : g = g' := Option.some.inj hg'
    exact ⟨g, hg, hle⟩

end Population

namespace Engine

variable {ε : Type} [Executor ε] [SparingExecutor ε] {e : Engine ε}

/-- If a sparing executor has given everyone a fitness who had none, it has given each score
once. -/
theorem exists_recordedOnce (hnew : ∀ i ∈ e.population.individuals, i.fitness? = none)
    (h : e.evaluate.result = .ok ())
    (hall : ∀ i ∈ e.evaluate.engine.population.individuals, ∃ f, i.fitness? = some f) :
    ∃ items, e.population.RecordedOnce e.problem items e.evaluate.engine.population := by
  obtain ⟨chunks, items, hchunks, hcollect, hrecord⟩ := recordChunks_of_evaluate h
  have htiles := (partition_eq_ok hchunks).1 (Nat.zero_le _)
  have hsizes := Population.recordChunks_fst_eq_ok_iff.1 (congrArg Prod.fst hrecord)
  have hcover := Population.covers_of_recordChunks hnew hrecord hall
  have hsub : (items.flatMap (·.2)).Subperm (e.population.scores e.problem) := by
    obtain ⟨row, hperm, hsub⟩ := SparingExecutor.sparing e.executor
      (chunks.map fun c => (c, ())) (scoreChunk e.problem e.population)
    rw [Outcome.values_of_collect hcollect] at hperm
    rw [Outcome.values_map_ofRun] at hsub
    exact ⟨row.flatten, hperm.flatten, hsub.flatten.trans (Population.scores_sublist htiles)⟩
  have hmost : (e.population.scores e.problem).length ≤ e.population.size :=
    List.length_filterMap_le _ _
  -- as many values as the chunks have slots
  have hcount : ((items.map (·.1)).map Chunk.size).sum = (items.flatMap (·.2)).length := by
    rw [List.length_flatMap, List.map_map]
    exact congrArg List.sum (List.map_congr_left fun item hitem => (hsizes item hitem).2)
  have hcoverChunks : ∀ slot < e.population.size, ∃ c ∈ items.map (·.1), slot ∈ c := by
    intro slot hslot
    obtain ⟨item, hitem, hmem⟩ := hcover slot hslot
    exact ⟨item.1, List.mem_map_of_mem hitem, hmem⟩
  obtain ⟨hapart, hfull⟩ := Chunk.pairwise_apart_of_covers hcoverChunks
    (Nat.le_trans (Nat.le_of_eq hcount) (Nat.le_trans hsub.length_le hmost))
  have hperm := hsub.perm_of_length_le (Nat.le_trans hmost (Nat.le_of_eq (hfull.symm.trans hcount)))
  refine ⟨items, hrecord, hapart, hcover, ?_, hperm⟩
  -- as many scores as individuals, so nobody is without one
  have hlength : (e.population.scores e.problem).length = e.population.individuals.length :=
    hperm.length_eq.symm.trans (hcount.symm.trans hfull)
  intro i hi
  obtain ⟨f, hf⟩ := Option.isSome_iff_exists.1 (List.filterMap_length_eq_length.1 hlength i hi)
  exact ⟨f, Problem.score?_eq_some_iff.1 hf⟩

/-- A generation on a sparing executor that begins with a population in which nobody has a fitness
reports the greatest score in that population. -/
theorem greatest_of_step (hnew : ∀ i ∈ e.population.individuals, i.fitness? = none) {r : Report}
    (h : e.step.result = .ok r) :
    Population.Greatest e.problem e.population.genes r.bestFitness := by
  obtain ⟨children, next, mutants, hcompletes⟩ := completes_of_ok h
  obtain ⟨slot, hmax, -, -⟩ := selectElite_eq_ok hcompletes.select
  have hall : ∀ i ∈ e.evaluate.engine.population.individuals, ∃ f, i.fitness? = some f := by
    intro i hi
    obtain ⟨t, ht⟩ := List.mem_iff_getElem?.1 hi
    obtain ⟨g, hg, -⟩ := hmax.le t i ht
    exact ⟨g, hg⟩
  obtain ⟨items, honce⟩ := exists_recordedOnce hnew hcompletes.evaluate hall
  exact honce.greatest hmax

end Engine

end KnapsackEvolution
