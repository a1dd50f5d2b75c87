/-
# Backends out of sight

Two engines on backends are alike if they agree in everything but the backend and those settings
that only choose a backend and what is reported (`Engine.Alike`).  Every backend answers a dispatch
with the same outcomes, so alike engines stay alike through every phase with the same results, and
hence through every generation and every run.  No caller can tell them apart.
-/
import KnapsackEvolution.Proofs.Calls
import KnapsackEvolution.Proofs.Starts

namespace KnapsackEvolution

/-- The configuration with another backend, another number of workers and another log level. -/
def Options.elsewhere (o : Options) (kind : Kind) (workers : UInt64) (level : LogLevel) : Options :=
  { o with backend := kind, workers := workers, logLevel := level }

/-- The engines agree in everything but the backend and the settings that a backend and the
reporting need. -/
structure Engine.Alike (e f : Engine Backend) : Prop where
  options : ∃ kind workers level, f.options = e.options.elsewhere kind workers level
  problem : f.problem = e.problem
  generators : f.generators = e.generators
  population : f.population = e.population
  generation : f.generation = e.generation

/-- The turns have the same result and leave alike engines; the reporting may differ. -/
structure Turn.Alike {α : Type} (t t' : Turn Backend α) : Prop where
  result : t'.result = t.result
  engine : Engine.Alike t.engine t'.engine

variable {α β : Type} {e f : Engine Backend}

lemma Turn.Alike.andThen {t t' : Turn Backend α} {next next' : Engine Backend → α → Turn Backend β}
    (h : Turn.Alike t t')
    (hnext : ∀ {e f : Engine Backend} (a : α), Engine.Alike e f →
      Turn.Alike (next e a) (next' f a)) :
    Turn.Alike (t.andThen next) (t'.andThen next') := by
  cases ht : t.result with
  | error error =>
    have ht' : t'.result = .error error := h.result.trans ht
    rw [andThen_of_error ht, andThen_of_error ht']
    exact ⟨rfl, h.engine⟩
  | ok a =>
    have ht' : t'.result = .ok a := h.result.trans ht
    rw [andThen_of_ok ht, andThen_of_ok ht']
    have hnext := hnext a h.engine
    exact ⟨hnext.result, hnext.engine⟩

namespace Engine.Alike

lemma failed (h : Alike e f) (error : Error) :
    Turn.Alike (Turn.failed e error : Turn Backend α) (.failed f error) := ⟨rfl, h⟩

lemma done (h : Alike e f) (a : α) (events events' : List Event) :
    Turn.Alike (.done e a events) (.done f a events') := ⟨rfl, h⟩

lemma withPopulation (h : Alike e f) (p : Population) :
    Alike { e with population := p } { f with population := p } :=
  ⟨h.options, h.problem, h.generators, rfl, h.generation⟩

lemma chunksFrom (h : Alike e f) (start : Nat) (p : Population) :
    f.chunksFrom start p = e.chunksFrom start p := by
  obtain ⟨kind, workers, level, hoptions⟩ := h.options
  rw [Engine.chunksFrom, hoptions]
  rfl

/-! ## Phases -/

lemma dispatch {P T : Type} (h : Alike e f) (jobs : List (Chunk × P))
    (process : ChunkFunction P T) :
    Turn.Alike (e.dispatch jobs process) (f.dispatch jobs process) := by
  refine ⟨?_, h.options, h.problem, h.generators, h.population, h.generation⟩
  show Outcome.collect (f.executor.execute jobs process).1 =
    Outcome.collect (e.executor.execute jobs process).1
  -- both answers are those of running each job by itself
  rw [Backend.execute_eq_map, Backend.execute_eq_map]

lemma evaluate (h : Alike e f) : Turn.Alike e.evaluate f.evaluate := by
  rw [evaluate_eq, evaluate_eq, h.chunksFrom, h.population, h.problem]
  cases e.chunksFrom 0 e.population with
  | error error => exact h.failed error
  | ok chunks =>
    refine (h.dispatch _ _).andThen ?_
    intro e f values h
    rw [h.population]
    rcases e.population.recordChunks values with ⟨error | _, p⟩
    · exact (h.withPopulation p).failed error
    · exact (h.withPopulation p).done () _ _

lemma selectElite (h : Alike e f) : Turn.Alike e.selectElite f.selectElite := by
  rw [selectElite_eq, selectElite_eq, h.population, elected, elected]
  split
  · exact h.failed _
  · exact h.done _ _ _

lemma crossover (h : Alike e f) : Turn.Alike e.crossover f.crossover := by
  obtain ⟨kind, workers, level, hoptions⟩ := h.options
  unfold Engine.crossover
  rw [h.chunksFrom, h.population, h.generators, h.generation, hoptions]
  cases e.chunksFrom 1 e.population with
  | error error => exact h.failed error
  | ok chunks =>
    refine (h.dispatch _ _).andThen ?_
    intro e f children h
    exact h.done children _ _

lemma mutate (h : Alike e f) (next : Population) : Turn.Alike (e.mutate next) (f.mutate next) := by
  obtain ⟨kind, workers, level, hoptions⟩ := h.options
  have hjobs : f.mutateJobs next = e.mutateJobs next := by
    rw [mutateJobs_eq, mutateJobs_eq, h.chunksFrom]
  rw [mutate_eq, mutate_eq, hjobs]
  cases e.mutateJobs next with
  | error error => exact h.failed error
  | ok taken =>
    dsimp only [mutated]
    rw [h.generators, h.generation, hoptions]
    refine (h.dispatch _ _).andThen ?_
    intro e f mutants h
    split
    · exact h.failed _
    · exact h.done _ _ _

lemma succeed (h : Alike e f) (next : Population) (elite : Individual) (best : Fitness) :
    Turn.Alike (e.succeed next elite best) (f.succeed next elite best) := by
  obtain ⟨kind, workers, level, hoptions⟩ := h.options
  have hsize : f.options.populationSize = e.options.populationSize := by rw [hoptions]; rfl
  unfold Engine.succeed
  rw [hsize, h.generation]
  split
  · exact ⟨rfl, h.options, h.problem, h.generators, rfl, rfl⟩
  · exact h.failed _

end Engine.Alike

/-! ## Generations and runs -/

namespace Turn.Alike

/-- Engines that measure alike go through a generation alike. -/
theorem step (h : Turn.Alike e.evaluate f.evaluate) : Turn.Alike e.step f.step := by
  rw [Engine.step_eq, Engine.step_eq]
  refine h.andThen ?_
  intro e f _ h
  refine h.selectElite.andThen ?_
  rintro e f ⟨elite, best⟩ h
  refine h.crossover.andThen ?_
  intro e f children h
  split
  · exact h.failed _
  · refine (h.mutate _).andThen ?_
    intro e f next h
    exact h.succeed next elite best

/-- They go through a run of generations alike. -/
theorem steps (h : Turn.Alike e.evaluate f.evaluate) (more : Nat) :
    Turn.Alike (e.steps more) (f.steps more) := by
  induction more generalizing e f with
  | zero =>
    rw [Engine.steps_zero, Engine.steps_zero]
    refine h.step.andThen ?_
    intro e f report h
    exact h.done report.elite _ _
  | succ more ih =>
    rw [Engine.steps_succ, Engine.steps_succ]
    refine h.step.andThen ?_
    intro e f report h
    exact ih h.evaluate

lemma run (h : Turn.Alike e.evaluate f.evaluate) (n : Nat) : Turn.Alike (e.run n) (f.run n) := by
  cases n with
  | zero =>
    rw [Engine.run_zero, Engine.run_zero]
    refine h.andThen ?_
    intro e f _ h
    rw [h.population]
    exact ⟨rfl, h⟩
  | succ n => exact h.steps n

lemma call (h : Turn.Alike e.evaluate f.evaluate) (c : Call) :
    Turn.Alike (e.call c) (f.call c) := by
  cases c with
  | step =>
    have hstep := h.step
    exact ⟨congrArg (Except.map Answer.report) hstep.result, hstep.engine⟩
  | run n =>
    have hrun := h.run n
    exact ⟨congrArg (Except.map Answer.elite) hrun.result, hrun.engine⟩

end Turn.Alike

namespace Engine.Alike

/-- A caller sees the same of alike engines. -/
theorem observations (h : Alike e f) (calls : List Call) :
    f.observations calls = e.observations calls := by
  induction calls generalizing e f with
  | nil => rfl
  | cons c calls ih =>
    have hcall := h.evaluate.call c
    simp only [Engine.observations, hcall.result, hcall.engine.population,
      hcall.engine.generation, ih hcall.engine]

end Engine.Alike

namespace Engine

/-- Two configurations with the same seed that differ at most in the backend, the number of workers
and the log level, both sensible and fitting the problem: both engines start, whatever the clocks
show and in whatever order replies come in, with the same population.  Any sequence of calls gets
the same answers from both, errors included, and after every call both have the same population,
fitness included, and have completed as many generations. -/
theorem backend_out_of_sight (surroundings surroundings' : Surroundings) (options : Options)
    (kind : Kind) (workers : UInt64) (level : LogLevel) (problem : Problem) {seed : UInt64}
    (hseed : options.seed? = some seed) (hvalid : options.validate = .ok ())
    (hvalid' : (options.elsewhere kind workers level).validate = .ok ())
    (hsize : options.geneCount.toNat = problem.size) :
    ∃ e f events events', start surroundings options problem = .ok (e, events) ∧
      start surroundings' (options.elsewhere kind workers level) problem = .ok (f, events') ∧
      f.population = e.population ∧ f.generation = e.generation ∧
      ∀ calls, f.observations calls = e.observations calls := by
  obtain ⟨b, hb, -⟩ := Backend.start_eq_ok surroundings.arrival options.backend
    (Options.workers_pos hvalid)
  obtain ⟨b', hb', -⟩ := Backend.start_eq_ok surroundings'.arrival kind
    (Options.workers_pos hvalid')
  obtain ⟨events, hstart⟩ := start_eq_ok hvalid hsize hb
  obtain ⟨events', hstart'⟩ := start_eq_ok hvalid' hsize hb'
  have hgenerators : factoryOf surroundings' (options.elsewhere kind workers level) =
      factoryOf surroundings options := by
    simp only [factoryOf, Options.elsewhere, hseed]
  have halike : Alike (first surroundings b options problem)
      (first surroundings' b' (options.elsewhere kind workers level) problem) := by
    -- with a seed neither the clock nor the backend has a say in the first population
    refine ⟨⟨kind, workers, level, rfl⟩, rfl, hgenerators, ?_, rfl⟩
    show firstPopulation _ _ = firstPopulation _ _
    rw [firstPopulation, hgenerators]
    rfl
  exact ⟨_, _, events, events', hstart, hstart', halike.population, halike.generation,
    halike.observations⟩

/-- No workers against two that report everything and whose replies come in backwards, through a
generation, a run, and a measurement. -/
theorem backend_out_of_sight_backwards :
    let options : Options := { Options.default with
      backend := .sequential, workers := 1, chunkSize := 2, populationSize := 5, geneCount := 2,
      seed? := some 1 }
    let problem : Problem := ⟨#[5, 7], #[1, 1], 2⟩
    let forwards : Surroundings := ⟨fun _ => 0, .inOrder⟩
    let backwards : Surroundings := ⟨fun key => key.generation, fun _ n => (List.range n).reverse,
      fun _ n => List.reverse_perm (List.range n)⟩
    let calls : List Call := [.step, .run 3, .run 0]
    ∃ e f events events', start forwards options problem = .ok (e, events) ∧
      start backwards (options.elsewhere .workerPool 2 .verbose) problem = .ok (f, events') ∧
      f.observations calls = e.observations calls := by
  intro options problem forwards backwards calls
  obtain ⟨e, f, events, events', hstart, hstart', -, -, hcalls⟩ :=
    backend_out_of_sight forwards backwards options .workerPool 2 .verbose problem rfl
      (by decide +kernel) (by decide +kernel) rfl
  exact ⟨e, f, events, events', hstart, hstart', hcalls calls⟩

end Engine

end KnapsackEvolution
