/-
# The log of a run

What an engine does when it is called is a row of generations, and of measurements where a run has
no generations (`Deed`).  Each of them leaves a trace: the phases that it completes, in the order of
the phases, all with the generation count before it, and behind them its report if it succeeds
(`Deed.trace`).  The log of any calls is the traces of what they did one after the other, as far as
the level of the configuration shows them (`Engine.log_eq`).

On a sparing executor a generation that succeeds has gone through all phases with as many chunks as
its slots make (`Engine.phases_of_ok`).
-/
import KnapsackEvolution.Proofs.Partitions
import KnapsackEvolution.Proofs.Safety
import KnapsackEvolution.Proofs.Sparing

namespace KnapsackEvolution

/-- The level shows the event. -/
def LogLevel.shows : LogLevel → Event → Bool
  | .none, _ => false
  | .minimal, event => event.severity = .info
  | .verbose, _ => true

/-- The event that reports a generation. -/
def Report.event (r : Report) : Event := .generationComplete r.generation r.bestFitness

/-- Something that an engine has done, with the engine before it. -/
inductive Deed (ε : Type) where
  /-- A generation. -/
  | generation (e : Engine ε)
  /-- A measurement of the population for a run without generations. -/
  | measurement (e : Engine ε)

/-- The engine before. -/
def Deed.engine {ε : Type} : Deed ε → Engine ε
  | generation e => e
  | measurement e => e

variable {ε : Type} [Executor ε]

namespace Engine

/-! ## Traces -/

/-- The phases that a generation completes, each with the number of its chunks. -/
def phases (e : Engine ε) : List (Stage × Nat) :=
  let slots := e.population.size
  let chunkSize := e.options.chunkSize.toNat
  match e.evaluate.result with
  | .error _ => []
  | .ok () => (.evaluate, slots ⌈/⌉ chunkSize) ::
    match e.evaluate.engine.selectElite.result with
    | .error _ => []
    | .ok (elite, _) => (.select, 1) ::
      match e.evaluate.engine.crossover.result with
      | .error _ => []
      | .ok children => (.crossover, (slots - 1) ⌈/⌉ chunkSize) ::
        match (Population.mk [elite]).restoreChunks children with
        | (.error _, _) => []
        | (.ok (), next) =>
          match (e.evaluate.engine.crossover.engine.mutate next).result with
          | .error _ => []
          | .ok _ => [(.mutate, (next.size - 1) ⌈/⌉ chunkSize)]

/-- The generations of a run of `more + 1` generations.  The first one that fails is the last. -/
def generations (e : Engine ε) : Nat → List (Deed ε)
  | 0 => [.generation e]
  | more + 1 => .generation e ::
    match e.step.result with
    | .error _ => []
    | .ok _ => e.step.engine.generations more

/-- What an engine does when it is called. -/
def deeds (e : Engine ε) : Call → List (Deed ε)
  | .step => [.generation e]
  | .run 0 => [.measurement e]
  | .run (n + 1) => e.generations n

/-- What an engine does in some calls, each of which draws from a source of generators of its
own. -/
def history (e : Engine ε) : List (Factory × Call) → List (Deed ε)
  | [] => []
  | (generators, c) :: calls =>
    let called := e.withGenerators generators
    called.deeds c ++ (called.call c).engine.history calls

/-- What an engine reports in some calls. -/
def log (e : Engine ε) : List (Factory × Call) → List Event
  | [] => []
  | (generators, c) :: calls =>
    let called := e.withGenerators generators
    (called.call c).events ++ (called.call c).engine.log calls

end Engine

namespace Deed

/-- The report of a generation that succeeds. -/
def report? : Deed ε → Option Report
  | generation e => e.step.result.toOption
  | measurement _ => none

/-- What there is to report: the phases that are completed, and a generation that succeeds. -/
def trace : Deed ε → List Event
  | generation e =>
    (e.phases.map fun phase => .phaseComplete e.generation phase.1 phase.2) ++
      (e.step.result.toOption.map Report.event).toList
  | measurement e =>
    match e.evaluate.result with
    | .error _ => []
    | .ok () =>
      [.phaseComplete e.generation .evaluate (e.population.size ⌈/⌉ e.options.chunkSize.toNat)]

lemma filter_severity_trace (deed : Deed ε) :
    (deed.trace.filter fun event => event.severity = .info) =
      (deed.report?.map Report.event).toList := by
  cases deed with
  | generation e =>
    rw [trace, List.filter_append, List.filter_eq_nil_iff.2, List.nil_append, report?]
    · cases e.step.result with
      | error error => rfl
      | ok r => rfl
    · intro event hevent
      obtain ⟨phase, -, rfl⟩ := List.mem_map.1 hevent
      simp [Event.severity]
  | measurement e =>
    rw [trace]
    cases e.evaluate.result with
    | error error => rfl
    | ok u => rfl

end Deed

lemma filter_severity_traces (history : List (Deed ε)) :
    ((history.flatMap Deed.trace).filter fun event => event.severity = .info) =
      (history.filterMap Deed.report?).map Report.event := by
  induction history with
  | nil => rfl
  | cons deed history ih =>
    rw [List.flatMap_cons, List.filter_append, deed.filter_severity_trace, ih,
      List.filterMap_cons]
    cases deed.report? with
    | none => rfl
    | some r => rfl

namespace Engine

/-! ## The events of a phase -/

omit [Executor ε] in
lemma phaseEvents_eq (e : Engine ε) (stage : Stage) (chunks : Nat) :
    e.phaseEvents stage chunks =
      [Event.phaseComplete e.generation stage chunks].filter e.options.logLevel.shows := by
  unfold phaseEvents
  cases e.options.logLevel with
  | none => rfl
  | minimal => rfl
  | verbose => rfl

omit [Executor ε] in
lemma generationEvents_eq (e : Engine ε) (f : Fitness) :
    e.generationEvents f =
      [Event.generationComplete e.generation f].filter e.options.logLevel.shows := by
  unfold generationEvents
  cases e.options.logLevel with
  | none => rfl
  | minimal => rfl
  | verbose => rfl

omit [Executor ε] in
lemma Keeps.phaseEvents {e e' : Engine ε} (h : Keeps e e') (stage : Stage) (chunks : Nat) :
    e'.phaseEvents stage chunks = e.phaseEvents stage chunks := by
  unfold Engine.phaseEvents
  rw [h.options, h.generation]

omit [Executor ε] in
lemma length_of_chunksFrom {e : Engine ε} {p : Population} {start : Nat} {chunks : List Chunk}
    (h : e.chunksFrom start p = .ok chunks) :
    chunks.length = (p.size - start) ⌈/⌉ e.options.chunkSize.toNat := by
  unfold chunksFrom partition at h
  split at h
  · next size_pos =>
    obtain rfl := Except.ok.inj h
    exact length_cut size_pos
  · cases h

end Engine

/-- The turn reports the events if it succeeds, and nothing if it fails. -/
structure Turn.Reports {α : Type} (t : Turn ε α) (events : List Event) : Prop where
  ok : ∀ a, t.result = .ok a → t.events = events
  error : ∀ error, t.result = .error error → t.events = []

namespace Turn.Reports

variable {α : Type} {events : List Event}

omit [Executor ε] in
lemma done (e : Engine ε) (a : α) : (Turn.done e a events).Reports events where
  ok _ _ := rfl
  error _ h := by cases h

omit [Executor ε] in
lemma failed (e : Engine ε) (error : Error) : (Turn.failed e error : Turn ε α).Reports events where
  ok _ h := by cases h
  error _ _ := rfl

/-- Giving out jobs is not reported, so what follows it decides. -/
lemma dispatch {P T : Type} {e : Engine ε} {jobs : List (Chunk × P)} {process : ChunkFunction P T}
    {next : Engine ε → List (Chunk × T) → Turn ε α}
    (h : ∀ executor values, (next { e with executor := executor } values).Reports events) :
    ((e.dispatch jobs process).andThen next).Reports events := by
  cases hdispatch : (e.dispatch jobs process).result with
  | error lost =>
    rw [andThen_of_error hdispatch]
    exact .failed _ lost
  | ok values =>
    rw [andThen_of_ok hdispatch]
    have hnext := h (Executor.execute e.executor jobs process).2 values
    exact ⟨hnext.ok, hnext.error⟩

end Turn.Reports

namespace Engine

lemma reports_evaluate (e : Engine ε) :
    e.evaluate.Reports
      (e.phaseEvents .evaluate (e.population.size ⌈/⌉ e.options.chunkSize.toNat)) := by
  rw [evaluate_eq]
  cases hchunks : e.chunksFrom 0 e.population with
  | error error => exact .failed e error
  | ok chunks =>
    rw [← Nat.sub_zero e.population.size, ← length_of_chunksFrom hchunks]
    refine .dispatch fun executor values => ?_
    rcases e.population.recordChunks values with ⟨error | _, population⟩
    · exact .failed _ error
    · exact .done _ ()

omit [Executor ε] in
lemma reports_selectElite (e : Engine ε) : e.selectElite.Reports (e.phaseEvents .select 1) := by
  rw [selectElite_eq, elected]
  split
  · next error _ => exact .failed e error
  · next elite _ => exact .done e elite

lemma reports_crossover (e : Engine ε) :
    e.crossover.Reports
      (e.phaseEvents .crossover ((e.population.size - 1) ⌈/⌉ e.options.chunkSize.toNat)) := by
  unfold crossover
  cases hchunks : e.chunksFrom 1 e.population with
  | error error => exact .failed e error
  | ok chunks =>
    rw [← length_of_chunksFrom hchunks]
    exact .dispatch fun executor children => .done _ children

lemma reports_mutate (e : Engine ε) (next : Population) :
    (e.mutate next).Reports
      (e.phaseEvents .mutate ((next.size - 1) ⌈/⌉ e.options.chunkSize.toNat)) := by
  rw [mutate_eq]
  cases hjobs : e.mutateJobs next with
  | error error => exact .failed e error
  | ok taken =>
    obtain ⟨chunks, jobs, rest⟩ := taken
    rw [← length_of_chunksFrom (mutateJobs_eq_ok_iff.1 hjobs).1]
    refine .dispatch fun executor mutants => ?_
    rcases rest.restoreChunks mutants with ⟨error | _, next⟩
    · exact .failed _ error
    · exact .done _ next

/-! ## The events of a call -/

/-- What a level shows of the trace of a generation are its phase events and its report. -/
lemma filter_trace_generation (e : Engine ε) :
    (Deed.trace (.generation e)).filter e.options.logLevel.shows =
      (e.phases.flatMap fun phase => e.phaseEvents phase.1 phase.2) ++
        (e.step.result.toOption.map Report.event).toList.filter e.options.logLevel.shows := by
  have hphases : ∀ phases : List (Stage × Nat),
      (phases.map fun phase => Event.phaseComplete e.generation phase.1 phase.2).filter
          e.options.logLevel.shows =
        phases.flatMap fun phase => e.phaseEvents phase.1 phase.2 := by
    intro phases
    induction phases with
    | nil => rfl
    | cons phase phases ih =>
      rw [List.map_cons, List.flatMap_cons, phaseEvents_eq, ← ih, ← List.filter_append]
      rfl
  rw [Deed.trace, List.filter_append, hphases]

/-- A generation reports its trace as far as the level shows it. -/
theorem events_step (e : Engine ε) :
    e.step.events = (Deed.trace (.generation e)).filter e.options.logLevel.shows := by
  have hevaluated := e.keeps_evaluate
  have hbred := hevaluated.trans (changesExecutor_crossover e.evaluate.engine).keeps
  -- every phase reports what the engine before the generation would
  have hevaluates := e.reports_evaluate
  have hselects := e.evaluate.engine.reports_selectElite
  rw [hevaluated.phaseEvents] at hselects
  have hbreeds := e.evaluate.engine.reports_crossover
  rw [hevaluated.phaseEvents, hevaluated.size_eq, hevaluated.options] at hbreeds
  have hmutates : ∀ next : Population,
      (e.evaluate.engine.crossover.engine.mutate next).Reports
        (e.phaseEvents .mutate ((next.size - 1) ⌈/⌉ e.options.chunkSize.toNat)) := by
    intro next
    have hreports := e.evaluate.engine.crossover.engine.reports_mutate next
    rwa [hbred.phaseEvents, hbred.options] at hreports
  rw [filter_trace_generation]
  have hexit := e.stepExit
  generalize e.step = t at hexit ⊢
  cases hexit with
  | evaluate hevaluate =>
    simp [phases, hevaluate, hevaluates.error _ hevaluate, Except.toOption]
  | select hevaluate hselect =>
    simp [phases, hevaluate, hselect, hevaluates.ok _ hevaluate, hselects.error _ hselect,
      Except.toOption]
  | crossover hevaluate hselect hcrossover =>
    simp [phases, hevaluate, hselect, hcrossover, hevaluates.ok _ hevaluate,
      hselects.ok _ hselect, hbreeds.error _ hcrossover, Except.toOption]
  | restore hevaluate hselect hcrossover hrestore =>
    simp [phases, hevaluate, hselect, hcrossover, hrestore, hevaluates.ok _ hevaluate,
      hselects.ok _ hselect, hbreeds.ok _ hcrossover, Except.toOption]
  | mutate hevaluate hselect hcrossover hrestore hmutate =>
    simp [phases, hevaluate, hselect, hcrossover, hrestore, hmutate, hevaluates.ok _ hevaluate,
      hselects.ok _ hselect, hbreeds.ok _ hcrossover, (hmutates _).error _ hmutate,
      Except.toOption]
  | size hevaluate hselect hcrossover hrestore hmutate hsize =>
    simp [phases, hevaluate, hselect, hcrossover, hrestore, hmutate, hevaluates.ok _ hevaluate,
      hselects.ok _ hselect, hbreeds.ok _ hcrossover, (hmutates _).ok _ hmutate, Except.toOption]
  | complete hevaluate hselect hcrossover hrestore hmutate hsize =>
    simp [phases, hevaluate, hselect, hcrossover, hrestore, hmutate, hevaluates.ok _ hevaluate,
      hselects.ok _ hselect, hbreeds.ok _ hcrossover, (hmutates _).ok _ hmutate, Except.toOption,
      Report.event, generationEvents_eq]

lemma events_run_zero (e : Engine ε) :
    (e.run 0).events = (Deed.trace (.measurement e)).filter e.options.logLevel.shows := by
  rw [Deed.trace]
  cases hevaluate : e.evaluate.result with
  | error error =>
    rw [run_zero, Turn.andThen_of_error hevaluate]
    exact e.reports_evaluate.error _ hevaluate
  | ok u =>
    rw [run_zero, Turn.andThen_of_ok hevaluate]
    dsimp only
    rw [List.append_nil, e.reports_evaluate.ok _ hevaluate, phaseEvents_eq]

lemma events_steps (e : Engine ε) (more : Nat) :
    (e.steps more).events =
      ((e.generations more).flatMap Deed.trace).filter e.options.logLevel.shows := by
  induction more generalizing e with
  | zero =>
    rw [generations, List.flatMap_singleton, ← events_step, steps_zero]
    cases hstep : e.step.result with
    | error error => rw [Turn.andThen_of_error hstep]
    | ok r =>
      rw [Turn.andThen_of_ok hstep]
      exact List.append_nil _
  | succ more ih =>
    rw [generations, List.flatMap_cons, List.filter_append, ← events_step, steps_succ]
    cases hstep : e.step.result with
    | error error =>
      rw [Turn.andThen_of_error hstep]
      exact (List.append_nil _).symm
    | ok r =>
      rw [Turn.andThen_of_ok hstep]
      dsimp only
      rw [ih e.step.engine, e.setting_step.1]

lemma events_call (e : Engine ε) (c : Call) :
    (e.call c).events = ((e.deeds c).flatMap Deed.trace).filter e.options.logLevel.shows := by
  match c with
  | .step =>
    rw [deeds, List.flatMap_singleton, ← events_step]
    rfl
  | .run 0 =>
    rw [deeds, List.flatMap_singleton, ← events_run_zero]
    rfl
  | .run (n + 1) => exact e.events_steps n

/-! ## The log -/

lemma options_invariant (options : Options) :
    Invariant fun e : Engine ε => e.options = options where
  withGenerators _ h := h
  evaluate {e} h := e.keeps_evaluate.options.trans h
  step {e} h := e.setting_step.1.trans h

/-- The log of some calls is the trace of what they do, as far as the level shows it. -/
theorem log_eq (e : Engine ε) (calls : List (Factory × Call)) :
    e.log calls = ((e.history calls).flatMap Deed.trace).filter e.options.logLevel.shows := by
  induction calls generalizing e with
  | nil => rfl
  | cons first calls ih =>
    obtain ⟨generators, c⟩ := first
    have hcalled : (e.withGenerators generators).options = e.options := rfl
    have hoptions := (options_invariant e.options).call hcalled c
    rw [log, history, List.flatMap_append, List.filter_append, events_call, ih, hoptions]
    rfl

/-- What measurements and generations keep holds before everything that is done in some calls. -/
lemma Invariant.history {P : Engine ε → Prop} (h : Invariant P) {e : Engine ε} (he : P e)
    (calls : List (Factory × Call)) : ∀ deed ∈ e.history calls, P deed.engine := by
  have hgenerations : ∀ (more : Nat) (e : Engine ε), P e →
      ∀ deed ∈ e.generations more, P deed.engine := by
    intro more
    induction more with
    | zero =>
      intro e he deed hdeed
      obtain rfl := List.mem_singleton.1 hdeed
      exact he
    | succ more ih =>
      intro e he deed hdeed
      rcases List.mem_cons.1 hdeed with rfl | hdeed
      · exact he
      · cases hstep : e.step.result with
        | error error => rw [hstep] at hdeed; cases hdeed
        | ok r =>
          rw [hstep] at hdeed
          exact ih e.step.engine (h.step he) deed hdeed
  induction calls generalizing e with
  | nil => simp [Engine.history]
  | cons first calls ih =>
    obtain ⟨generators, c⟩ := first
    intro deed hdeed
    have hcalled := h.withGenerators generators he
    rcases List.mem_append.1 hdeed with hdeed | hdeed
    · match c, hdeed with
      | .step, hdeed | .run 0, hdeed =>
        obtain rfl := List.mem_singleton.1 hdeed
        exact hcalled
      | .run (n + 1), hdeed => exact hgenerations n _ hcalled deed hdeed
    · exact ih (h.call hcalled c) deed hdeed

/-! ## Complete generations -/

/-- A generation completes its phases in their order, up to the one that fails. -/
theorem phases_front (e : Engine ε) :
    (e.phases.map (·.1)) <+: [.evaluate, .select, .crossover, .mutate] := by
  unfold phases
  dsimp only
  split
  · exact List.nil_prefix
  · rw [List.map_cons, List.prefix_cons_inj]
    split
    · exact List.nil_prefix
    · rw [List.map_cons, List.prefix_cons_inj]
      split
      · exact List.nil_prefix
      · rw [List.map_cons, List.prefix_cons_inj]
        split
        · exact List.nil_prefix
        · split
          · exact List.nil_prefix
          · exact List.prefix_refl _

/-- A generation that succeeds on a sparing executor has completed all phases, with as many chunks
as its slots make. -/
theorem phases_of_ok [SparingExecutor ε] {options : Options} {e : Engine ε} {r : Report}
    (size_pos : 0 < options.populationSize.toNat) (hshaped : e.WellShaped options)
    (h : e.step.result = .ok r) :
    let slots := options.populationSize.toNat
    let chunkSize := options.chunkSize.toNat
    e.phases = [(.evaluate, slots ⌈/⌉ chunkSize), (.select, 1),
      (.crossover, (slots - 1) ⌈/⌉ chunkSize), (.mutate, (slots - 1) ⌈/⌉ chunkSize)] := by
  intro slots chunkSize
  obtain ⟨children, next, mutants, hcompletes⟩ := completes_of_ok h
  have hslots : e.population.size = slots := hshaped.shaped.size_eq
  have hevaluated := e.keeps_evaluate.size_eq.trans hslots
  have hmutants : mutants.size = slots := by rw [hcompletes.size_eq, hshaped.options_eq]
  -- the new population is complete, so nobody was missing when it was mutated
  have hnext := size_of_bred hcompletes.crossover hcompletes.restore hcompletes.mutate
    (hevaluated ▸ size_pos) (Nat.le_of_eq (hevaluated.trans hmutants.symm))
  simp only [phases, hcompletes.evaluate, hcompletes.select, hcompletes.crossover,
    hcompletes.restore, hcompletes.mutate, hslots, hnext, hevaluated, hshaped.options_eq]
  rfl

/-- What a generation of an engine with the configuration reports. -/
structure GenerationTraced (options : Options) (e : Engine ε) : Prop where
  /-- It goes through the phases in their order until one of them fails. -/
  front : (e.phases.map (·.1)) <+: [.evaluate, .select, .crossover, .mutate]
  /-- If it succeeds, it has completed all phases, each in as many chunks as its slots make, and its
  report counts it. -/
  complete : ∀ r, e.step.result = .ok r →
    e.phases = [(.evaluate, options.populationSize.toNat ⌈/⌉ options.chunkSize.toNat), (.select, 1),
      (.crossover, (options.populationSize.toNat - 1) ⌈/⌉ options.chunkSize.toNat),
      (.mutate, (options.populationSize.toNat - 1) ⌈/⌉ options.chunkSize.toNat)] ∧
    r.generation = e.generation + 1

/-- What a measurement of an engine with the configuration reports. -/
structure MeasurementTraced (options : Options) (e : Engine ε) : Prop where
  ok : e.evaluate.result = .ok () → Deed.trace (.measurement e) =
    [.phaseComplete e.generation .evaluate
      (options.populationSize.toNat ⌈/⌉ options.chunkSize.toNat)]
  error : ∀ error, e.evaluate.result = .error error → Deed.trace (.measurement e) = []

/-- On a backend, or on an executor that loses, moves, relabels and fails the outcomes of one, the
log of any calls mirrors what they did.  At the level that reports nothing it is empty; at the level
that reports generations it has one event for each generation that succeeded, with the numbers of
its report; at the level that reports phases too it has, generation by generation, an event for each
phase that was completed and behind them the one of the generation, and the events for whoever
watches are still the same.  A measurement without generations adds the event of its phase if it
succeeded, and nothing else. -/
theorem log_mirrors_history [SparingExecutor ε] (surroundings : Surroundings) (executor : ε)
    (options : Options) (problem : Problem) {e : Engine ε} {events : List Event}
    (hstart : onExecutor surroundings executor options problem = .ok (e, events))
    (calls : List (Factory × Call)) :
    let history := e.history calls
    let reports := (history.filterMap Deed.report?).map Report.event
    (options.logLevel = .none → e.log calls = []) ∧
    (options.logLevel = .minimal → e.log calls = reports) ∧
    (options.logLevel = .verbose → e.log calls = history.flatMap Deed.trace ∧
      (e.log calls).filter (fun event => event.severity = .info) = reports) ∧
    (∀ now, .generation now ∈ history → GenerationTraced options now) ∧
    ∀ now, .measurement now ∈ history → MeasurementTraced options now := by
  intro history reports
  obtain ⟨hvalid, -, rfl, -⟩ := onExecutor_eq_ok_iff.1 hstart
  have hlog := (first surroundings executor options problem).log_eq calls
  have hoptions : (first surroundings executor options problem).options = options := rfl
  rw [hoptions] at hlog
  have hinfo : (history.flatMap Deed.trace).filter (fun event => event.severity = .info) =
      reports := filter_severity_traces history
  have hshaped : ∀ deed ∈ history, deed.engine.WellShaped options :=
    WellShaped.invariant.history (.first surroundings executor options problem) calls
  refine ⟨?_, ?_, ?_, ?_, ?_⟩
  · intro hlevel
    rw [hlog, hlevel]
    exact List.filter_eq_nil_iff.2 fun _ _ => Bool.false_ne_true
  · intro hlevel
    rw [hlog, hlevel]
    exact hinfo
  · intro hlevel
    have hall : (first surroundings executor options problem).log calls =
        history.flatMap Deed.trace := by
      rw [hlog, hlevel]
      exact List.filter_eq_self.2 fun _ _ => rfl
    exact ⟨hall, hall ▸ hinfo⟩
  · intro now hnow
    refine ⟨now.phases_front, fun r hstep => ⟨?_, ?_⟩⟩
    · exact phases_of_ok (Options.counted hvalid).populationSize (hshaped _ hnow) hstep
    · obtain ⟨children, next, mutants, hcompletes⟩ := completes_of_ok hstep
      exact hcompletes.generation_eq
  · intro now hnow
    have hsize : now.population.size = options.populationSize.toNat :=
      (hshaped _ hnow).shaped.size_eq
    have hchunk : now.options = options := (hshaped _ hnow).options_eq
    constructor
    · intro hevaluate
      simp only [Deed.trace, hevaluate, hsize, hchunk]
    · intro error hevaluate
      simp only [Deed.trace, hevaluate]

/-- The first generation loses a brood, so only its measurement and its elite are reported.  After
a measurement the second generation, one chunk for each child, is completed. -/
theorem log_mirrors_history_broods :
    let options : Options := { Options.default with
      backend := .sequential, workers := 1, chunkSize := 1, populationSize := 3, geneCount := 2,
      mutationProbability := ⟨0⟩, tournamentSize := 1, logLevel := .verbose, seed? := some 1 }
    let problem : Problem := ⟨#[5, 7], #[1, 1], 2⟩
    let surroundings : Surroundings := ⟨fun _ => 0, .inOrder⟩
    let edits : Nat → List Edit := fun call =>
      if call = 1 then [.fail 0 .emptyPopulation] else []
    let e := first surroundings (Disturbed.ofEdits Backend.sequential edits) options problem
    let generators : Factory := fun _ => ⟨Vector.replicate 8 0, 0, List.replicate 3 0⟩
    let calls : List (Factory × Call) :=
      [(generators, .step), (generators, .run 0), (generators, .step)]
    (∃ events,
      onExecutor surroundings (Disturbed.ofEdits Backend.sequential edits) options problem =
        .ok (e, events)) ∧
    e.log calls =
      [.phaseComplete 0 .evaluate 3, .phaseComplete 0 .select 1,
        .phaseComplete 0 .evaluate 3,
        .phaseComplete 0 .evaluate 3, .phaseComplete 0 .select 1, .phaseComplete 0 .crossover 2,
        .phaseComplete 0 .mutate 2, .generationComplete 1 7] := by
  intro options problem surroundings edits e generators calls
  have hstart : onExecutor surroundings (Disturbed.ofEdits Backend.sequential edits) options
      problem = .ok (e, [.engineInitialized .sequential 1
        (firstPopulation surroundings options).size 2]) :=
    onExecutor_eq_ok_iff.2 ⟨by decide +kernel, by decide, rfl, rfl⟩
  obtain ⟨-, -, hverbose, -⟩ :=
    log_mirrors_history surroundings (Disturbed.ofEdits Backend.sequential edits) options problem
      hstart calls
  refine ⟨⟨_, hstart⟩, (hverbose rfl).1.trans ?_⟩
  decide +kernel

end Engine

end KnapsackEvolution
