/-
# How an engine fails

On a backend nothing but measuring can fail, and measuring fails just when somebody in the
population cannot be scored.  Several chunks may fault then, and in each of them several
individuals; what is reported is the first fault of the first of these chunks, whatever the backend
(`Population.FirstFault`).  Nothing is written back from the other chunks, so the engine is as it
was, and every further call fails in the same way.
-/
import KnapsackEvolution.Proofs.Generations
import KnapsackEvolution.Proofs.Lockstep

namespace KnapsackEvolution

namespace Population

/-! ## Slots that cannot be scored -/

/-- Scoring the individual in the slot runs into the fault. -/
def FaultsAt (problem : Problem) (p : Population) (slot : Nat) (fault : Fault) : Prop :=
  ∃ i, p.get? slot = some i ∧ problem.score i.genes = .error fault

/-- The individual in the slot can be scored. -/
def ScoresAt (problem : Problem) (p : Population) (slot : Nat) : Prop :=
  ∃ i f, p.get? slot = some i ∧ problem.score i.genes = .ok f

/-- Of the given chunks, `c` is the first one in which somebody cannot be scored, and `fault` is the
fault of the first individual in it that cannot. -/
structure FirstFault (problem : Problem) (p : Population) (chunks : List Chunk) (c : Chunk)
    (fault : Fault) : Prop where
  chunk : ∃ before after, chunks = before ++ c :: after ∧
    ∀ d ∈ before, ∀ slot ∈ d, p.ScoresAt problem slot
  slot : ∃ slot ∈ c, p.FaultsAt problem slot fault ∧ ∀ t ∈ c, t < slot → p.ScoresAt problem t

variable {problem : Problem} {p : Population} {c : Chunk} {u : Unit}

lemma scoresAt_of_scoreChunk {values : List Fitness} (hstop : c.stop ≤ p.size)
    (h : scoreChunk problem p c u = .ok values) : ∀ slot ∈ c, p.ScoresAt problem slot := by
  intro slot hslot
  have hscores : Scores problem (c.slice p.individuals) values := scoreChunk_eq_ok_iff.1 h
  obtain ⟨hstart, hlt⟩ := Chunk.mem_iff.1 hslot
  have hplace : slot - c.start < c.size := by
    unfold Chunk.size
    omega
  have hsize : slot < p.individuals.length := Nat.lt_of_lt_of_le hlt hstop
  have hget : p.get? slot = some p.individuals[slot] := List.getElem?_eq_getElem hsize
  have hslice : (c.slice p.individuals)[slot - c.start]? = some p.individuals[slot] := by
    rw [Chunk.getElem?_slice hplace, Nat.add_sub_cancel' hstart]
    exact hget
  obtain ⟨f, -, hf⟩ := forall₂_getElem? hscores hslice
  exact ⟨_, f, hget, hf⟩

lemma faultsAt_of_scoreChunk {failure : Failure} (h : scoreChunk problem p c u = .error failure) :
    ∃ fault, failure = .fault fault ∧
      ∃ slot ∈ c, p.FaultsAt problem slot fault ∧ ∀ t ∈ c, t < slot → p.ScoresAt problem t := by
  obtain ⟨before, i, after, hsplit, hbefore, hi⟩ := mapM_eq_error h
  obtain ⟨fault, hfault, rfl⟩ := mapError_eq_error_iff.1 hi
  have hslice : c.slice p.individuals = before ++ i :: after := hsplit
  have hplace : before.length < c.size := by
    have hlength := congrArg List.length hslice
    rw [Chunk.slice, List.length_take, List.length_append, List.length_cons] at hlength
    omega
  -- a slot of the chunk up to the faulting one is a place of `before ++ [i]`
  have hget : ∀ place ≤ before.length,
      p.get? (c.start + place) = (before ++ i :: after)[place]? := by
    intro place hle
    rw [← hslice, Chunk.getElem?_slice (Nat.lt_of_le_of_lt hle hplace)]
    rfl
  refine ⟨fault, rfl, c.start + before.length, ?_, ⟨i, ?_, hfault⟩, ?_⟩
  · rw [Chunk.mem_iff, ← c.start_add_size]
    omega
  · simp [hget before.length (Nat.le_refl _)]
  · intro t ht hlt
    have hstart := Chunk.mem_iff.1 ht
    have hbound : t - c.start < before.length := by omega
    have hi := hget (t - c.start) (Nat.le_of_lt hbound)
    rw [Nat.add_sub_cancel' hstart.1, List.getElem?_append_left hbound,
      List.getElem?_eq_getElem hbound] at hi
    obtain ⟨f, hf⟩ := hbefore _ (List.getElem_mem hbound)
    exact ⟨_, f, hi, mapError_eq_ok_iff.1 hf⟩

end Population

namespace Engine

variable {e : Engine Backend} {options : Options} {error : Error}

/-! ## When measuring fails -/

/-- A population can be measured just when everyone in it can be scored. -/
theorem evaluate_eq_ok_iff (chunkSize_pos : 0 < e.options.chunkSize.toNat) :
    e.evaluate.result = .ok () ↔
      ∀ i ∈ e.population.individuals, ∃ f, e.problem.score i.genes = .ok f := by
  constructor
  · intro h i hi
    have hgenes : i.genes ∈ e.evaluate.engine.population.genes :=
      e.keeps_evaluate.genes ▸ Population.mem_genes hi
    obtain ⟨j, hj, hji⟩ := List.mem_map.1 hgenes
    obtain ⟨f, -, hf⟩ := measured_evaluate h j hj
    exact ⟨f, hji ▸ hf⟩
  · intro h
    exact evaluate_of_scores h chunkSize_pos

/-- Measuring fails just when somebody cannot be scored. -/
theorem evaluate_eq_error_iff (chunkSize_pos : 0 < e.options.chunkSize.toNat) :
    (∃ error, e.evaluate.result = .error error) ↔
      ∃ i ∈ e.population.individuals, ∃ fault, e.problem.score i.genes = .error fault := by
  have hok := evaluate_eq_ok_iff chunkSize_pos
  constructor
  · rintro ⟨error, h⟩
    by_contra hnone
    rw [hok.2 ?_] at h
    · cases h
    intro i hi
    cases hscore : e.problem.score i.genes with
    | error fault => exact absurd ⟨i, hi, fault, hscore⟩ hnone
    | ok f => exact ⟨f, rfl⟩
  · rintro ⟨i, hi, fault, hfault⟩
    cases h : e.evaluate.result with
    | error error => exact ⟨error, rfl⟩
    | ok u =>
      obtain ⟨f, hf⟩ := hok.1 h i hi
      rw [hfault] at hf
      cases hf

/-- If measuring fails, then with the first fault of the first chunk that has one. -/
theorem evaluate_eq_error (h : e.evaluate.result = .error error)
    (chunkSize_pos : 0 < e.options.chunkSize.toNat) :
    ∃ chunks c fault, e.chunksFrom 0 e.population = .ok chunks ∧
      e.population.FirstFault e.problem chunks c fault ∧ error = c.lost (.faulted fault) := by
  obtain ⟨chunks, hchunks⟩ := partition_of_pos chunkSize_pos e.population.size 0
  have htiles := (partition_eq_ok hchunks).1 (Nat.zero_le _)
  cases hitems : (e.dispatch (chunks.map fun c => (c, ()))
      (scoreChunk e.problem e.population)).result with
  | ok items =>
    rw [(evaluate_of_dispatch hchunks hitems).1] at h
    cases h
  | error error' =>
    obtain rfl : error' = error := by
      change e.chunksFrom 0 e.population = _ at hchunks
      rw [evaluate_eq, hchunks] at h
      dsimp only at h
      rw [Turn.andThen_of_error hitems] at h
      exact Except.error.inj h
    -- the first lost outcome is that of a chunk, and all chunks before it could be scored
    rw [dispatch_result, Outcome.collect_eq_error_iff, List.map_map] at hitems
    obtain ⟨outcomes, o, rest, hsplit, hbefore, ho⟩ := hitems
    obtain ⟨before, tail, rfl, rfl, htail⟩ := List.map_eq_append_iff.1 hsplit
    obtain ⟨c, after, rfl, rfl, -⟩ := List.map_eq_cons_iff.1 htail
    obtain ⟨failure, hfailure, rfl⟩ := mapError_eq_error_iff.1 ho
    obtain ⟨fault, rfl, hslot⟩ := Population.faultsAt_of_scoreChunk hfailure
    refine ⟨_, c, fault, hchunks, ⟨⟨before, after, rfl, ?_⟩, hslot⟩, Chunk.report_fault c fault⟩
    intro d hd
    obtain ⟨values, hvalues⟩ := hbefore _ (List.mem_map_of_mem hd)
    exact Population.scoresAt_of_scoreChunk (htiles.stop_le d (by simp [hd])).2
      (Outcome.result_ofRun_eq_ok_iff.1 hvalues)

/-! ## When calls fail -/

/-- A generation of a well-shaped engine fails just when its population cannot be measured. -/
lemma step_eq_error_iff (hvalid : options.validate = .ok ()) (hshaped : e.WellShaped options) :
    e.step.result = .error error ↔ e.evaluate.result = .error error := by
  cases hevaluate : e.evaluate.result with
  | error error' => simp [(step_of_evaluate_error hevaluate).1]
  | ok u =>
    obtain ⟨r, -, hstep, -⟩ := step_of_evaluate hvalid hshaped hevaluate
    simp [hstep]

lemma changesExecutor_step_of_error (hvalid : options.validate = .ok ())
    (hshaped : e.WellShaped options) (h : e.step.result = .error error) :
    ChangesExecutor e e.step.engine := by
  have hevaluate := (step_eq_error_iff hvalid hshaped).1 h
  rw [(step_of_evaluate_error hevaluate).2]
  exact changesExecutor_evaluate_of_error hevaluate

lemma run_zero_eq_error_iff (hvalid : options.validate = .ok ()) (hshaped : e.WellShaped options) :
    (e.run 0).result = .error error ↔ e.evaluate.result = .error error := by
  cases hevaluate : e.evaluate.result with
  | error error' =>
    rw [run_zero, Turn.andThen_of_error hevaluate]
    simp
  | ok u =>
    obtain ⟨elite, hrun⟩ := run_zero_of_evaluate hvalid hshaped hevaluate
    simp [hrun]

section Any

variable {ε : Type} [Executor ε] {e : Engine ε}

lemma run_of_step_error (h : e.step.result = .error error) (n : Nat) :
    (e.run (n + 1)).result = .error error ∧ (e.run (n + 1)).engine = e.step.engine := by
  cases n with
  | zero =>
    rw [run_succ, steps_zero, Turn.andThen_of_error h]
    exact ⟨rfl, rfl⟩
  | succ n =>
    rw [run_succ, steps_succ, Turn.andThen_of_error h]
    exact ⟨rfl, rfl⟩

/-- An engine whose population cannot be measured answers every call with that error. -/
lemma call_of_evaluate_error (h : e.evaluate.result = .error error) (c : Call) :
    (e.call c).result = .error error ∧ (e.call c).engine = e.evaluate.engine := by
  obtain ⟨hresult, hengine⟩ := step_of_evaluate_error h
  match c with
  | .step => exact ⟨congrArg (Except.map Answer.report) hresult, hengine⟩
  | .run 0 =>
    have hrun : (e.run 0).result = .error error := by rw [run_zero, Turn.andThen_of_error h]
    exact ⟨congrArg (Except.map Answer.elite) hrun, e.run_zero_engine⟩
  | .run (n + 1) =>
    obtain ⟨hrun, hrunEngine⟩ := run_of_step_error hresult n
    exact ⟨congrArg (Except.map Answer.elite) hrun, hrunEngine.trans hengine⟩

end Any

/-- The engine `e` is like `now`, but for the backend and for where generators come from. -/
def Resumes (now e : Engine Backend) : Prop := Alike (now.withGenerators e.generators) e

namespace Resumes

variable {now : Engine Backend}

lemma refl (now : Engine Backend) : Resumes now now :=
  ⟨⟨_, _, _, rfl⟩, rfl, rfl, rfl, rfl⟩

lemma evaluate_eq_error (h : Resumes now e) (hfail : now.evaluate.result = .error error) :
    e.evaluate.result = .error error := by
  rw [Alike.evaluate h |>.result, evaluate_withGenerators, hfail]

lemma of_changesExecutor {e' : Engine Backend} (h : Resumes now e)
    (hchange : ChangesExecutor e e') : Resumes now e' := by
  obtain ⟨x, rfl⟩ := hchange
  exact ⟨h.options, h.problem, rfl, h.population, h.generation⟩

/-- An engine whose population cannot be measured stays as it is, whatever it is asked for. -/
theorem invariant (hfail : now.evaluate.result = .error error) : Invariant (Resumes now) where
  withGenerators _ h := ⟨h.options, h.problem, rfl, h.population, h.generation⟩
  evaluate h :=
    h.of_changesExecutor (changesExecutor_evaluate_of_error (h.evaluate_eq_error hfail))
  step h := by
    have hevaluate := h.evaluate_eq_error hfail
    rw [(step_of_evaluate_error hevaluate).2]
    exact h.of_changesExecutor (changesExecutor_evaluate_of_error hevaluate)

end Resumes

/-- An engine on a backend, with any problem that has as many items as there are genes, after any
calls: a generation fails just when somebody in the population cannot be scored, and so does a run
without generations.  Both then fail with the same error.  It names the first chunk in which
somebody cannot be scored, and its reason is the fault of the first one in it who cannot.  The
engine is left with every gene, every fitness and the generation count, so whatever is asked of it
from then on fails in the same way. -/
theorem fails_iff_unscorable (surroundings : Surroundings) (backend : Backend) (options : Options)
    (problem : Problem) {e : Engine Backend} {events : List Event}
    (hstart : onExecutor surroundings backend options problem = .ok (e, events))
    (calls : List (Factory × Call)) (generators : Factory) :
    let now := (e.afterCalls calls).withGenerators generators
    ((∃ error, now.step.result = .error error) ↔
      ∃ i ∈ now.population.individuals, ∃ fault, problem.score i.genes = .error fault) ∧
    ((∃ error, (now.run 0).result = .error error) ↔
      ∃ i ∈ now.population.individuals, ∃ fault, problem.score i.genes = .error fault) ∧
    ∀ error, now.step.result = .error error ∨ (now.run 0).result = .error error →
      (∃ chunks c fault,
        partition options.populationSize.toNat 0 options.chunkSize.toNat = .ok chunks ∧
        now.population.FirstFault problem chunks c fault ∧
        error = .dispatch c.start c.stop (.faulted fault) ∧
        (Loss.faulted fault).message = "chunk function panicked: " ++ fault.message) ∧
      (now.step.result = .error error ∧ ChangesExecutor now now.step.engine) ∧
      ((now.run 0).result = .error error ∧ ChangesExecutor now (now.run 0).engine) ∧
      ∀ (more : List (Factory × Call)) (generators : Factory) (c : Call),
        let later := (now.afterCalls more).withGenerators generators
        (later.call c).result = .error error ∧ later.population = now.population ∧
          later.generation = now.generation := by
  intro now
  obtain ⟨hvalid, -, rfl, -⟩ := onExecutor_eq_ok_iff.1 hstart
  have hshaped : now.WellShaped options :=
    ((WellShaped.first surroundings backend options problem).afterCalls calls).withGenerators _
  have hproblem : now.problem = problem := problem_afterCalls _ calls
  have hchunkSize : 0 < now.options.chunkSize.toNat :=
    hshaped.options_eq ▸ (Options.counted hvalid).chunkSize
  have hfails := evaluate_eq_error_iff hchunkSize
  rw [hproblem] at hfails
  refine ⟨?_, ?_, ?_⟩
  · simpa only [step_eq_error_iff hvalid hshaped] using hfails
  · simpa only [run_zero_eq_error_iff hvalid hshaped] using hfails
  intro error herror
  rw [step_eq_error_iff hvalid hshaped, run_zero_eq_error_iff hvalid hshaped, or_self] at herror
  have hstep := (step_eq_error_iff hvalid hshaped).2 herror
  refine ⟨?_, ⟨hstep, changesExecutor_step_of_error hvalid hshaped hstep⟩, ⟨?_, ?_⟩, ?_⟩
  · obtain ⟨chunks, c, fault, hchunks, hfirst, rfl⟩ := evaluate_eq_error herror hchunkSize
    rw [chunksFrom, hshaped.options_eq, hshaped.shaped.size_eq] at hchunks
    exact ⟨chunks, c, fault, hchunks, hproblem ▸ hfirst, rfl, rfl⟩
  · exact (run_zero_eq_error_iff hvalid hshaped).2 herror
  · exact now.run_zero_engine ▸ changesExecutor_evaluate_of_error herror
  · intro more generators' c later
    have hinvariant := Resumes.invariant herror
    have hlater : Resumes now later :=
      hinvariant.withGenerators generators' (hinvariant.afterCalls (.refl now) more)
    exact ⟨(call_of_evaluate_error (hlater.evaluate_eq_error herror) c).1, hlater.population,
      hlater.generation⟩

/-- Two workers whose replies come in backwards, and three selections that cannot be scored: two in
the middle chunk with different faults, and one in the last chunk.  The first fault of the middle
chunk is reported, also by a run after a failed generation and a failed measurement. -/
theorem fails_iff_unscorable_two_chunks :
    let options : Options := { Options.default with
      backend := .workerPool, workers := 2, chunkSize := 2, populationSize := 5, geneCount := 2,
      seed? := some 1 }
    let problem : Problem := ⟨#[5, 18446744073709551615], #[1, 9223372036854775808], 0⟩
    let surroundings : Surroundings := ⟨fun _ => 0, .inOrder⟩
    let backend : Backend := .workerPool ⟨2, by decide, ⟨fun _ n => (List.range n).reverse,
      fun _ n => List.reverse_perm (List.range n)⟩, 0⟩
    let e := first surroundings backend options problem
    let generators : Factory := .fixed 7
    let now := (e.afterCalls [(generators, .run 3)]).withGenerators generators
    (∃ events, onExecutor surroundings backend options problem = .ok (e, events)) ∧
      now.population.genes =
        [[true, false], [false, false], [false, true], [true, true], [false, true]] ∧
      now.step.result = .error (.dispatch 2 4 (.faulted .negOverflow)) ∧
      let later := (now.afterCalls [(generators, .step), (.fixed 8, .run 0)]).withGenerators
        generators
      (later.call (.run 2)).result = .error (.dispatch 2 4 (.faulted .negOverflow)) ∧
        later.population = now.population := by
  intro options problem surroundings backend e generators now
  have hstart : onExecutor surroundings backend options problem = .ok (e,
      [.engineInitialized .workerPool 2 (firstPopulation surroundings options).size 2]) :=
    onExecutor_eq_ok_iff.2 ⟨by decide +kernel, by decide, rfl, rfl⟩
  have hgenes : now.population.genes =
      [[true, false], [false, false], [false, true], [true, true], [false, true]] := by
    decide +kernel
  have hstep : now.step.result = .error (.dispatch 2 4 (.faulted .negOverflow)) := by
    decide +kernel
  obtain ⟨-, -, hfails⟩ := fails_iff_unscorable surroundings backend options problem hstart
    [(generators, .run 3)] generators
  obtain ⟨-, -, -, hlater⟩ := hfails _ (.inl hstep)
  obtain ⟨hcall, hpopulation, -⟩ :=
    hlater [(generators, .step), (.fixed 8, .run 0)] generators (.run 2)
  exact ⟨⟨_, hstart⟩, hgenes, hstep, hcall, hpopulation⟩

end Engine

end KnapsackEvolution
