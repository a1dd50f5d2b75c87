/-
# Executors that answer no job twice

An executor may lose, move, relabel and fail outcomes and still be sparing: the values in its answer
are among those that the jobs give one after the other, and none is there more often
(`SparingExecutor`).  The backends are sparing, and so is whatever disturbs a sparing executor.

On a sparing executor no phase brings in anyone beyond the slots it was asked for.  So a generation
whose new population is complete has bred a child for every slot but the first
(`Engine.size_of_bred`).
-/
import KnapsackEvolution.Proofs.Answers
import KnapsackEvolution.Proofs.Moves
import Mathlib.Algebra.GroupWithZero.Nat
import Mathlib.Data.List.Flatten
import Mathlib.Data.List.Perm.Subperm

namespace KnapsackEvolution

namespace Outcome

variable {P T : Type}

/-- The values of the outcomes that have one. -/
def values (outcomes : List (Outcome T)) : List T := outcomes.filterMap (·.result.toOption)

lemma values_map_ofRun (jobs : List (Chunk × P)) (process : ChunkFunction P T) :
    values (jobs.map (ofRun process)) =
      jobs.filterMap fun job => (process job.1 job.2).toOption := by
  rw [values, List.filterMap_map]
  congr 1
  funext job
  rw [Function.comp_apply, ofRun]
  cases process job.1 job.2 with
  | error failure => rfl
  | ok value => rfl

lemma values_of_collect {outcomes : List (Outcome T)} {collected : List (Chunk × T)}
    (h : collect outcomes = .ok collected) : values outcomes = collected.map (·.2) := by
  rw [collect_eq_ok_iff.1 h, values, List.filterMap_map]
  exact congrFun List.filterMap_eq_map collected

end Outcome

/-- The values in an answer of the executor are some of those that the chunk function gives for the
jobs, each for a job of its own. -/
class SparingExecutor (ε : Type) [Executor ε] : Prop where
  sparing {P T : Type} (x : ε) (jobs : List (Chunk × P)) (process : ChunkFunction P T) :
    (Outcome.values (Executor.execute x jobs process).1).Subperm
      (Outcome.values (jobs.map (Outcome.ofRun process)))

instance : SparingExecutor Backend where
  sparing := by
    intro P T x jobs process
    have hexecute : (Executor.execute x jobs process).1 = jobs.map (Outcome.ofRun process) :=
      x.execute_eq_map jobs process
    rw [hexecute]

/-! ## Disturbances -/

section Edits

variable {T : Type}

/-- Changing an element so that it counts for nothing or for the same leaves no more than before. -/
lemma filterMap_modify_sublist {α β : Type} {f : α → Option β} {change : α → α}
    (h : ∀ a, f (change a) = none ∨ f (change a) = f a) (row : List α) (position : Nat) :
    ((row.modify position change).filterMap f).Sublist (row.filterMap f) := by
  induction row generalizing position with
  | nil => simp
  | cons a row ih =>
    cases position with
    | zero =>
      rw [List.modify_zero_cons]
      rcases h a with hnone | hsame
      · rw [List.filterMap_cons_none hnone]
        exact (List.sublist_cons_self a row).filterMap f
      · rw [List.filterMap_cons, List.filterMap_cons, hsame]
    | succ position =>
      rw [List.modify_succ_cons]
      cases ha : f a with
      | none =>
        rw [List.filterMap_cons_none ha, List.filterMap_cons_none ha]
        exact ih position
      | some b =>
        rw [List.filterMap_cons_some ha, List.filterMap_cons_some ha]
        exact (ih position).cons_cons b

/-- An edit brings in no value and repeats none. -/
lemma Edit.values_apply_subperm (edit : Edit) (outcomes : List (Outcome T)) :
    (Outcome.values (edit.apply outcomes)).Subperm (Outcome.values outcomes) := by
  cases edit with
  | clear => exact List.nil_subperm
  | reverse => exact ((List.reverse_perm outcomes).filterMap _).subperm
  | drop position => exact ((outcomes.eraseIdx_sublist position).filterMap _).subperm
  | toFront position =>
    have hperm : (outcomes[position]?.toList ++ outcomes.eraseIdx position).Perm outcomes := by
      rcases Nat.lt_or_ge position outcomes.length with hlt | hge
      · rw [List.getElem?_eq_getElem hlt]
        exact List.getElem_cons_eraseIdx_perm hlt
      · rw [List.getElem?_eq_none hge, List.eraseIdx_of_length_le hge]
        exact .refl outcomes
    exact (hperm.filterMap _).subperm
  | fail position e =>
    refine List.Sublist.subperm (filterMap_modify_sublist ?_ outcomes position)
    exact fun o => .inl rfl
  | relabel position c =>
    refine List.Sublist.subperm (filterMap_modify_sublist ?_ outcomes position)
    exact fun o => .inr rfl

lemma Edit.values_foldl_apply_subperm (edits : List Edit) (outcomes : List (Outcome T)) :
    (Outcome.values (edits.foldl Edit.apply outcomes)).Subperm (Outcome.values outcomes) := by
  induction edits generalizing outcomes with
  | nil => exact List.Subperm.refl _
  | cons edit edits ih =>
    exact (ih (edit.apply outcomes)).trans (edit.values_apply_subperm outcomes)

end Edits

variable {ε : Type} [Executor ε]

instance [SparingExecutor ε] : SparingExecutor (Disturbed ε) where
  sparing := by
    intro P T x jobs process
    exact (Edit.values_foldl_apply_subperm (x.edits x.calls) _).trans
      (SparingExecutor.sparing x.inner jobs process)

/-- Who answers no job twice invents nothing. -/
instance [SparingExecutor ε] : SoundExecutor ε where
  sound := by
    intro P T x jobs process o value ho hvalue
    have hmem : value ∈ Outcome.values (Executor.execute x jobs process).1 :=
      List.mem_filterMap.2 ⟨o, ho, by rw [hvalue]; rfl⟩
    have hjob := (SparingExecutor.sparing x jobs process).subset hmem
    rw [Outcome.values_map_ofRun] at hjob
    obtain ⟨job, hjob, hprocess⟩ := List.mem_filterMap.1 hjob
    refine ⟨job, hjob, ?_⟩
    cases hresult : process job.1 job.2 with
    | error failure => rw [hresult] at hprocess; cases hprocess
    | ok value' =>
      rw [hresult] at hprocess
      rw [Option.some.inj hprocess]

/-! ## How many come back -/

/-- Jobs that each give at most so many individuals come back with no more than that together. -/
lemma length_collect_le [SparingExecutor ε] {P α : Type} {x : ε} {jobs : List (Chunk × P)}
    {process : ChunkFunction P (List α)} {values : List (Chunk × List α)}
    (h : Outcome.collect (Executor.execute x jobs process).1 = .ok values)
    {most : Chunk × P → Nat}
    (hmost : ∀ job ∈ jobs, ∀ value, process job.1 job.2 = .ok value → value.length ≤ most job) :
    (values.flatMap (·.2)).length ≤ (jobs.map most).sum := by
  have hjobs : (jobs.filterMap fun job => (process job.1 job.2).toOption).flatten.length ≤
      (jobs.map most).sum := by
    clear h
    induction jobs with
    | nil => exact Nat.le_refl 0
    | cons job jobs ih =>
      have hrest := ih fun job hjob => hmost job (by simp [hjob])
      rw [List.map_cons, List.sum_cons, List.filterMap_cons]
      cases hprocess : process job.1 job.2 with
      | error failure => exact Nat.le_trans hrest (Nat.le_add_left _ _)
      | ok value =>
        have hfirst := hmost job (by simp) value hprocess
        simp only [Except.toOption, List.flatten_cons, List.length_append]
        exact Nat.add_le_add hfirst hrest
  obtain ⟨row, hperm, hsub⟩ := SparingExecutor.sparing x jobs process
  rw [Outcome.values_of_collect h] at hperm
  rw [Outcome.values_map_ofRun] at hsub
  rw [List.flatMap_def, ← hperm.flatten.length_eq]
  exact Nat.le_trans hsub.flatten.length_le hjobs

lemma Tiles.sum_size {start stop : Nat} {chunks : List Chunk} (h : Tiles start chunks stop) :
    start + (chunks.map Chunk.size).sum = stop := by
  induction h with
  | nil slot => simp
  | cons c _ ih =>
    have hc := c.start_add_size
    rw [List.map_cons, List.sum_cons]
    omega

lemma length_breed (t : Tournament) (pool : Array Individual) (n : Nat) :
    (breed t pool n).Ensures fun children => children.length = n := by
  induction n with
  | zero => exact .pure rfl
  | succ n ih =>
    unfold breed
    refine .bind (.trivial _) ?_
    intro first _
    refine .bind (.trivial _) ?_
    intro second _
    refine .bind (.trivial _) ?_
    intro child _
    refine .bind ih ?_
    intro rest hrest
    exact .pure (congrArg (· + 1) hrest)

lemma length_mutateEach (p : Binary64) (individuals : List Individual) :
    (mutateEach p individuals).Ensures fun mutants => mutants.length = individuals.length := by
  induction individuals with
  | nil => exact .pure rfl
  | cons i rest ih =>
    have hrest : ∀ first : Individual, Draw.Ensures (do
        let mutants ← mutateEach p rest
        return first :: mutants) fun mutants => mutants.length = rest.length + 1 := by
      intro first
      refine .bind ih ?_
      intro mutants hmutants
      exact .pure (congrArg (· + 1) hmutants)
    unfold mutateEach
    refine .bind (.trivial _) ?_
    intro chosen _
    dsimp only
    split
    · exact .bind (.trivial _) fun first _ => hrest first
    · exact .bind (.trivial _) fun first _ => hrest first

namespace Engine

variable [SparingExecutor ε] {e : Engine ε} {next mutants : Population}

lemma length_of_crossover {children : List (Chunk × List Individual)}
    (h : e.crossover.result = .ok children) :
    (children.flatMap (·.2)).length ≤ e.population.size - 1 := by
  have hcollect := collect_of_crossover h
  unfold crossoverOutcomes at hcollect
  cases hchunks : e.chunksFrom 1 e.population with
  | error error =>
    rw [hchunks] at hcollect
    obtain rfl : [] = children := Except.ok.inj hcollect
    exact Nat.zero_le _
  | ok chunks =>
    rw [hchunks] at hcollect
    have hlength := length_collect_le hcollect fun job _ children hchildren =>
      Nat.le_of_eq (length_breed _ _ job.1.size _ children hchildren)
    refine Nat.le_trans hlength ?_
    rw [List.map_map]
    obtain ⟨htiles, hnone⟩ := partition_eq_ok hchunks
    rcases Nat.lt_or_ge e.population.size 1 with hsize | hsize
    · simp [hnone (Nat.le_of_lt hsize)]
    · have hsum : 1 + (chunks.map Chunk.size).sum = e.population.size := (htiles hsize).sum_size
      show (chunks.map Chunk.size).sum ≤ e.population.size - 1
      omega

lemma size_mutate_le (h : (e.mutate next).result = .ok mutants) : mutants.size ≤ next.size := by
  obtain ⟨chunks, jobs, rest, values, hjobs, hcollect, hrestore⟩ := mutate_eq_ok h
  obtain ⟨-, htaken⟩ := mutateJobs_eq_ok_iff.1 hjobs
  unfold mutateOutcomes at hcollect
  rw [hjobs] at hcollect
  have hlength := length_collect_le hcollect fun job _ mutants hmutants =>
    Nat.le_of_eq (length_mutateEach _ job.2 _ mutants hmutants)
  have hnext := Population.individuals_of_restoreChunks
    (Population.restoreChunks_takeChunks htaken)
  rw [Population.size, Population.size, Population.individuals_of_restoreChunks hrestore, hnext,
    List.length_append, List.length_append, List.length_flatMap (l := jobs)]
  exact Nat.add_le_add_left hlength _

/-- A generation whose new population is no smaller than the old one has bred a child for every
slot but the first. -/
theorem size_of_bred {elite : Individual} {children : List (Chunk × List Individual)}
    {e' : Engine ε} (hcrossover : e.crossover.result = .ok children)
    (hrestore : (Population.mk [elite]).restoreChunks children = (.ok (), next))
    (hmutate : (e'.mutate next).result = .ok mutants) (size_pos : 0 < e.population.size)
    (hsize : e.population.size ≤ mutants.size) : next.size = e.population.size := by
  have hchildren := length_of_crossover hcrossover
  have hmutants := size_mutate_le hmutate
  have hnext : next.size = 1 + (children.flatMap (·.2)).length := by
    rw [Population.size, Population.individuals_of_restoreChunks hrestore, List.length_append]
    rfl
  omega

end Engine

end KnapsackEvolution
