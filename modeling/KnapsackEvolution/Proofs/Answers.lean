/-
# Executors that invent nothing

An executor may lose, move, relabel and fail outcomes and still be sound: every value in its answer
is one that the chunk function gave for some job (`SoundExecutor`).  The backends are sound, and so
is whatever disturbs a sound executor.  On a sound executor the children of a generation have the
gene count of their parents, whatever else is wrong with the answer.
-/
import KnapsackEvolution.Dispatch.Disturbed
import KnapsackEvolution.Proofs.Exits
import KnapsackEvolution.Proofs.Shapes

namespace KnapsackEvolution

/-- Every value in an answer of the executor is one that the chunk function gave for a job. -/
class SoundExecutor (ε : Type) [Executor ε] : Prop where
  sound {P T : Type} (x : ε) (jobs : List (Chunk × P)) (process : ChunkFunction P T)
    {o : Outcome T} {value : T} : o ∈ (Executor.execute x jobs process).1 →
    o.result = .ok value → ∃ job ∈ jobs, process job.1 job.2 = .ok value

instance : SoundExecutor Backend where
  sound := by
    intro P T x jobs process o value ho hvalue
    have ho : o ∈ (x.execute jobs process).1 := ho
    rw [Backend.execute_eq_map] at ho
    obtain ⟨job, hjob, rfl⟩ := List.mem_map.1 ho
    exact ⟨job, hjob, Outcome.result_ofRun_eq_ok_iff.1 hvalue⟩

/-! ## Disturbances -/

section Edits

variable {T : Type}

lemma mem_modify {α : Type} {row : List α} {position : Nat} {f : α → α} {b : α}
    (h : b ∈ row.modify position f) : ∃ a ∈ row, b = a ∨ b = f a := by
  obtain ⟨i, hi⟩ := List.mem_iff_getElem?.1 h
  rw [List.getElem?_modify, Option.map_eq_map, Option.map_eq_some_iff] at hi
  obtain ⟨a, ha, hb⟩ := hi
  refine ⟨a, List.mem_of_getElem? ha, ?_⟩
  by_cases hposition : position = i
  · rw [if_pos hposition] at hb
    exact .inr hb.symm
  · rw [if_neg hposition] at hb
    exact .inl hb.symm

lemma Edit.mem_of_mem_apply (edit : Edit) {outcomes : List (Outcome T)} {o : Outcome T} {value : T}
    (ho : o ∈ edit.apply outcomes) (hvalue : o.result = .ok value) :
    ∃ o' ∈ outcomes, o'.result = .ok value := by
  cases edit with
  | clear => cases ho
  | reverse => exact ⟨o, List.mem_reverse.1 ho, hvalue⟩
  | drop position => exact ⟨o, List.mem_of_mem_eraseIdx ho, hvalue⟩
  | toFront position =>
    rcases List.mem_append.1 ho with ho | ho
    · exact ⟨o, List.mem_of_getElem? (Option.mem_toList.1 ho), hvalue⟩
    · exact ⟨o, List.mem_of_mem_eraseIdx ho, hvalue⟩
  | fail position e =>
    obtain ⟨o', ho', rfl | rfl⟩ := mem_modify ho
    · exact ⟨o, ho', hvalue⟩
    · cases hvalue
  | relabel position c =>
    obtain ⟨o', ho', rfl | rfl⟩ := mem_modify ho
    · exact ⟨o, ho', hvalue⟩
    · exact ⟨o', ho', hvalue⟩

lemma Edit.mem_of_mem_foldl_apply (edits : List Edit) {outcomes : List (Outcome T)} {o : Outcome T}
    {value : T} (ho : o ∈ edits.foldl Edit.apply outcomes) (hvalue : o.result = .ok value) :
    ∃ o' ∈ outcomes, o'.result = .ok value := by
  induction edits generalizing outcomes with
  | nil => exact ⟨o, ho, hvalue⟩
  | cons edit edits ih =>
    obtain ⟨o', ho', hvalue'⟩ := ih ho
    exact edit.mem_of_mem_apply ho' hvalue'

end Edits

variable {ε : Type} [Executor ε]

/-- Disturbing the outcomes of a sound executor brings in no values. -/
instance [SoundExecutor ε] : SoundExecutor (Disturbed ε) where
  sound := by
    intro P T x jobs process o value ho hvalue
    obtain ⟨o', ho', hvalue'⟩ := Edit.mem_of_mem_foldl_apply (x.edits x.calls) ho hvalue
    exact SoundExecutor.sound x.inner jobs process ho' hvalue'

/-! ## Children -/

namespace Engine

variable [SoundExecutor ε] {e : Engine ε} {genes : Nat}

lemma exists_job_of_collect {P T : Type} {x : ε} {jobs : List (Chunk × P)}
    {process : ChunkFunction P T} {values : List (Chunk × T)}
    (h : Outcome.collect (Executor.execute x jobs process).1 = .ok values) :
    ∀ v ∈ values, ∃ job ∈ jobs, process job.1 job.2 = .ok v.2 := by
  intro v hv
  -- what was collected are the outcomes themselves
  have houtcomes := Outcome.collect_eq_ok_iff.1 h
  have hmem : Outcome.ofValue v ∈ (Executor.execute x jobs process).1 :=
    houtcomes ▸ List.mem_map_of_mem hv
  exact SoundExecutor.sound x jobs process hmem rfl

/-- Children have the gene count of their parents. -/
theorem size_of_crossover (hpool : ∀ i ∈ e.population.individuals, i.size = genes)
    {children : List (Chunk × List Individual)} (h : e.crossover.result = .ok children) :
    ∀ v ∈ children, ∀ i ∈ v.2, i.size = genes := by
  have hcollect := collect_of_crossover h
  unfold crossoverOutcomes at hcollect
  cases hchunks : e.chunksFrom 1 e.population with
  | error error =>
    rw [hchunks] at hcollect
    obtain rfl : [] = children := Except.ok.inj hcollect
    simp
  | ok chunks =>
    rw [hchunks] at hcollect
    intro v hv
    obtain ⟨job, -, hjob⟩ := exists_job_of_collect hcollect v hv
    exact ensures_breed (by simpa using hpool) _ _ v.2 hjob

/-- Mutated children have the gene count that all had before. -/
theorem size_of_mutate {next mutants : Population}
    (hnext : ∀ i ∈ next.individuals, i.size = genes)
    (h : (e.mutate next).result = .ok mutants) : ∀ i ∈ mutants.individuals, i.size = genes := by
  obtain ⟨chunks, jobs, rest, values, hjobs, hcollect, hrestore⟩ := mutate_eq_ok h
  obtain ⟨-, htaken⟩ := mutateJobs_eq_ok_iff.1 hjobs
  obtain ⟨hrest, htaken⟩ := Population.mem_of_takeChunks htaken
  unfold mutateOutcomes at hcollect
  rw [hjobs] at hcollect
  obtain ⟨back, hback, hmem⟩ := rest.restoreChunks_snd values
  rw [hrestore] at hback
  intro i hi
  rw [hback] at hi
  -- an individual of the new population stayed, or comes back from a job
  rcases List.mem_append.1 hi with hi | hi
  · exact hnext i (hrest i hi)
  · obtain ⟨v, hv, hi⟩ := hmem i hi
    obtain ⟨job, hjob, hprocess⟩ := exists_job_of_collect hcollect v hv
    exact ensures_mutateEach (fun j hj => hnext j (htaken job hjob j hj)) _ v.2 hprocess i hi

end Engine

end KnapsackEvolution
