/-
# How a generation can end

A generation goes through its phases one after the other and ends at the first one that fails.
`Engine.StepExit` lists the ways in which it can end, each with the result, the engine and the
events that it leaves behind; `Engine.stepExit` says that there is no other way.  What holds of
every generation is proved from that list, one case for each exit, and what holds of a generation
that succeeds from the last of them (`Engine.Completes`).

Every phase keeps the configuration, the generation count and the genes of the engine
(`Engine.Keeps`); only the last exit replaces the population.
-/
import KnapsackEvolution.Proofs.Backends
import KnapsackEvolution.Proofs.Populations

namespace KnapsackEvolution

variable {ε α β : Type}

namespace Turn

lemma andThen_of_error {t : Turn ε α} {e : Error} (h : t.result = .error e)
    (next : Engine ε → α → Turn ε β) : t.andThen next = ⟨.error e, t.engine, t.events⟩ := by
  unfold andThen andThenM
  rw [h]
  rfl

lemma andThen_of_ok {t : Turn ε α} {a : α} (h : t.result = .ok a)
    (next : Engine ε → α → Turn ε β) :
    t.andThen next = ⟨(next t.engine a).result, (next t.engine a).engine,
      t.events ++ (next t.engine a).events⟩ := by
  unfold andThen andThenM
  rw [h]
  rfl

lemma andThen_eq_ok {t : Turn ε α} {next : Engine ε → α → Turn ε β} {b : β}
    (h : (t.andThen next).result = .ok b) :
    ∃ a, t.result = .ok a ∧ (next t.engine a).result = .ok b := by
  cases ht : t.result with
  | error e => rw [andThen_of_error ht] at h; cases h
  | ok a =>
    rw [andThen_of_ok ht] at h
    exact ⟨a, rfl, h⟩

end Turn

namespace Engine

/-! ## What the phases keep -/

/-- The engine `e'` has the configuration, the generation count and the genes of `e`. -/
structure Keeps (e e' : Engine ε) : Prop where
  options : e'.options = e.options
  problem : e'.problem = e.problem
  generators : e'.generators = e.generators
  generation : e'.generation = e.generation
  genes : e'.population.genes = e.population.genes

namespace Keeps

variable {e e' e'' : Engine ε}

lemma refl (e : Engine ε) : Keeps e e := ⟨rfl, rfl, rfl, rfl, rfl⟩

lemma trans (h : Keeps e e') (h' : Keeps e' e'') : Keeps e e'' :=
  ⟨h'.options.trans h.options, h'.problem.trans h.problem, h'.generators.trans h.generators,
    h'.generation.trans h.generation, h'.genes.trans h.genes⟩

lemma withExecutor (e : Engine ε) (x : ε) : Keeps e { e with executor := x } :=
  ⟨rfl, rfl, rfl, rfl, rfl⟩

lemma size_eq (h : Keeps e e') : e'.population.size = e.population.size :=
  Population.size_eq_of_genes_eq h.genes

end Keeps

/-- The engine changes its executor at most. -/
def ChangesExecutor (e e' : Engine ε) : Prop := ∃ x, e' = { e with executor := x }

lemma ChangesExecutor.keeps {e e' : Engine ε} (h : ChangesExecutor e e') : Keeps e e' := by
  obtain ⟨x, rfl⟩ := h
  exact .withExecutor e x

lemma ChangesExecutor.population {e e' : Engine ε} (h : ChangesExecutor e e') :
    e'.population = e.population := by
  obtain ⟨x, rfl⟩ := h
  rfl

lemma selectElite_engine (e : Engine ε) : e.selectElite.engine = e := by
  rw [selectElite_eq, elected]
  split <;> rfl

lemma selectElite_eq_ok {e : Engine ε} {elite : Individual} {f : Fitness}
    (h : e.selectElite.result = .ok (elite, f)) :
    ∃ slot, Population.FirstMax (·.fitness?) e.population.individuals slot f ∧
      e.population.individuals[slot]? = some elite ∧ elite.fitness? = some f := by
  rw [selectElite_eq, elected] at h
  cases hbest : e.population.best with
  | error error => simp [hbest, bind, Except.bind, Turn.failed] at h
  | ok i =>
    obtain ⟨slot, g, hmax, hi⟩ := Population.best_eq_ok hbest
    obtain ⟨j, hj, hg⟩ := hmax.attained
    obtain rfl : i = j := Option.some.inj (hi.symm.trans hj)
    have hfitness : i.fitness = .ok g := Individual.fitness_eq_ok_iff.2 hg
    rw [hbest] at h
    simp only [bind, Except.bind, hfitness, pure, Except.pure, Turn.done] at h
    obtain ⟨rfl, rfl⟩ := Prod.mk.inj (Except.ok.inj h)
    exact ⟨slot, hmax, hi, hg⟩

variable [Executor ε]

/-! ## What the executor answers -/

/-- The outcomes of the chunks when the population is measured. -/
def evaluateOutcomes (e : Engine ε) : List (Outcome (List Fitness)) :=
  match e.chunksFrom 0 e.population with
  | .error _ => []
  | .ok chunks =>
    (Executor.execute e.executor (chunks.map fun c => (c, ()))
      (scoreChunk e.problem e.population)).1

/-- The outcomes of the chunks when children are bred. -/
def crossoverOutcomes (e : Engine ε) : List (Outcome (List Individual)) :=
  match e.chunksFrom 1 e.population with
  | .error _ => []
  | .ok chunks =>
    (Executor.execute e.executor (chunks.map fun c => (c, ()))
      (breedChunk e.generators e.generation ⟨e.options.tournamentSize⟩
        e.population.individuals.toArray)).1

/-- The outcomes of the chunks when the children in `next` are mutated. -/
def mutateOutcomes (e : Engine ε) (next : Population) : List (Outcome (List Individual)) :=
  match e.mutateJobs next with
  | .error _ => []
  | .ok (_, jobs, _) =>
    (Executor.execute e.executor jobs
      (mutateChunk e.generators e.generation e.options.mutationProbability)).1

lemma dispatch_of_firstError {P T : Type} {e : Engine ε} {jobs : List (Chunk × P)}
    {process : ChunkFunction P T} {error : Error}
    (h : Outcome.FirstError (Executor.execute e.executor jobs process).1 error) :
    (e.dispatch jobs process).result = .error error :=
  Outcome.collect_eq_error_iff.2 h

/-- Measuring fails with the first lost chunk, and then writes nothing. -/
lemma evaluate_of_firstError {e : Engine ε} {error : Error}
    (h : Outcome.FirstError e.evaluateOutcomes error) :
    e.evaluate.result = .error error ∧ e.evaluate.engine.population = e.population := by
  unfold evaluateOutcomes at h
  rw [evaluate_eq]
  cases hchunks : e.chunksFrom 0 e.population with
  | error _ => rw [hchunks] at h; exact absurd h Outcome.not_firstError_nil
  | ok chunks =>
    rw [hchunks] at h
    dsimp only at h ⊢
    rw [Turn.andThen_of_error (dispatch_of_firstError h)]
    exact ⟨rfl, rfl⟩

lemma crossover_of_firstError {e : Engine ε} {error : Error}
    (h : Outcome.FirstError e.crossoverOutcomes error) : e.crossover.result = .error error := by
  unfold crossoverOutcomes at h
  unfold crossover
  cases hchunks : e.chunksFrom 1 e.population with
  | error _ => rw [hchunks] at h; exact absurd h Outcome.not_firstError_nil
  | ok chunks =>
    rw [hchunks] at h
    dsimp only at h ⊢
    rw [Turn.andThen_of_error (dispatch_of_firstError h)]

lemma mutate_of_firstError {e : Engine ε} {next : Population} {error : Error}
    (h : Outcome.FirstError (e.mutateOutcomes next) error) :
    (e.mutate next).result = .error error := by
  unfold mutateOutcomes at h
  rw [mutate_eq]
  cases hjobs : e.mutateJobs next with
  | error _ => rw [hjobs] at h; exact absurd h Outcome.not_firstError_nil
  | ok taken =>
    obtain ⟨chunks, jobs, rest⟩ := taken
    rw [hjobs] at h
    dsimp only [mutated] at h ⊢
    rw [Turn.andThen_of_error (dispatch_of_firstError h)]

lemma collect_of_crossover {e : Engine ε} {children : List (Chunk × List Individual)}
    (h : e.crossover.result = .ok children) :
    Outcome.collect e.crossoverOutcomes = .ok children := by
  unfold crossoverOutcomes
  unfold crossover at h
  cases hchunks : e.chunksFrom 1 e.population with
  | error error => rw [hchunks] at h; cases h
  | ok chunks =>
    rw [hchunks] at h
    obtain ⟨values, hvalues, h⟩ := Turn.andThen_eq_ok h
    obtain rfl : values = children := Except.ok.inj h
    exact hvalues

lemma mutate_eq_ok {e : Engine ε} {next mutants : Population}
    (h : (e.mutate next).result = .ok mutants) :
    ∃ chunks jobs rest values, e.mutateJobs next = .ok (chunks, jobs, rest) ∧
      Outcome.collect (e.mutateOutcomes next) = .ok values ∧
      rest.restoreChunks values = (.ok (), mutants) := by
  unfold mutateOutcomes
  rw [mutate_eq] at h
  cases hjobs : e.mutateJobs next with
  | error error => rw [hjobs] at h; cases h
  | ok taken =>
    obtain ⟨chunks, jobs, rest⟩ := taken
    rw [hjobs] at h
    obtain ⟨values, hvalues, h⟩ := Turn.andThen_eq_ok h
    refine ⟨chunks, jobs, rest, values, rfl, hvalues, ?_⟩
    rcases hrestore : rest.restoreChunks values with ⟨error | _, q⟩
    · rw [hrestore] at h
      cases h
    · rw [hrestore] at h
      obtain rfl : q = mutants := Except.ok.inj h
      rfl

omit [Executor ε] in
/-- The chunks that are mutated are those from the second slot on, and they are moved out. -/
lemma mutateJobs_eq_ok_iff {e : Engine ε} {next rest : Population} {chunks : List Chunk}
    {jobs : List (Chunk × List Individual)} :
    e.mutateJobs next = .ok (chunks, jobs, rest) ↔
      e.chunksFrom 1 next = .ok chunks ∧ next.takeChunks chunks = .ok (jobs, rest) := by
  rw [mutateJobs_eq]
  constructor
  · intro h
    cases hchunks : e.chunksFrom 1 next with
    | error error => rw [hchunks] at h; cases h
    | ok chunks' =>
      rw [hchunks] at h
      dsimp only at h
      cases htaken : next.takeChunks chunks' with
      | error error => rw [htaken] at h; cases h
      | ok taken =>
        rw [htaken] at h
        obtain ⟨rfl, rfl⟩ := Prod.mk.inj (Except.ok.inj h)
        exact ⟨rfl, htaken⟩
  · rintro ⟨hchunks, htaken⟩
    rw [hchunks]
    exact congrArg (Except.map _) htaken

omit [Executor ε] in
lemma one_le_start_of_chunksFrom {e : Engine ε} {p : Population} {chunks : List Chunk}
    (h : e.chunksFrom 1 p = .ok chunks) : ∀ c ∈ chunks, 1 ≤ c.start := by
  -- without a second slot there are no chunks at all
  obtain ⟨htiles, hnone⟩ := partition_eq_ok h
  rcases Nat.lt_or_ge p.size 1 with hsize | hsize
  · simp [hnone (Nat.le_of_lt hsize)]
  · intro c hc
    exact ((htiles hsize).stop_le c hc).1

/-- The first individual is not mutated. -/
theorem get?_zero_mutate {e : Engine ε} {next mutants : Population}
    (h : (e.mutate next).result = .ok mutants) {i : Individual} (hi : next.get? 0 = some i) :
    mutants.get? 0 = some i := by
  obtain ⟨chunks, jobs, rest, values, hjobs, -, hrestore⟩ := mutate_eq_ok h
  obtain ⟨hchunks, htaken⟩ := mutateJobs_eq_ok_iff.1 hjobs
  refine Population.get?_zero_of_restoreChunks hrestore ?_
  rw [Population.get?_zero_of_takeChunks htaken (one_le_start_of_chunksFrom hchunks), hi]

/-- Measuring keeps the genes, also where it fails. -/
theorem keeps_evaluate (e : Engine ε) : Keeps e e.evaluate.engine := by
  rw [evaluate_eq]
  cases e.chunksFrom 0 e.population with
  | error error => exact .refl e
  | ok chunks =>
    simp only
    cases h : (e.dispatch (chunks.map fun c => (c, ()))
        (scoreChunk e.problem e.population)).result with
    | error error =>
      rw [Turn.andThen_of_error h]
      exact .withExecutor e _
    | ok values =>
      rw [Turn.andThen_of_ok h]
      have hgenes := e.population.genes_recordChunks values
      simp only [dispatch]
      rcases hrecord : e.population.recordChunks values with ⟨_ | _, q⟩
      · rw [hrecord] at hgenes
        exact ⟨rfl, rfl, rfl, rfl, hgenes⟩
      · rw [hrecord] at hgenes
        exact ⟨rfl, rfl, rfl, rfl, hgenes⟩

/-- Measuring draws nothing, so it does not matter where generators come from. -/
lemma evaluate_withGenerators (e : Engine ε) (generators : Factory) :
    (e.withGenerators generators).evaluate =
      ⟨e.evaluate.result, e.evaluate.engine.withGenerators generators, e.evaluate.events⟩ := by
  rw [evaluate_eq, evaluate_eq]
  have hchunks : (e.withGenerators generators).chunksFrom 0 (e.withGenerators generators).population
      = e.chunksFrom 0 e.population := rfl
  rw [hchunks]
  cases e.chunksFrom 0 e.population with
  | error error => rfl
  | ok chunks =>
    dsimp only
    cases h : (e.dispatch (chunks.map fun c => (c, ()))
        (scoreChunk e.problem e.population)).result with
    | error error =>
      have h' : ((e.withGenerators generators).dispatch (chunks.map fun c => (c, ()))
        (scoreChunk e.problem e.population)).result = .error error := h
      rw [Turn.andThen_of_error h]
      exact Turn.andThen_of_error h' _
    | ok values =>
      have h' : ((e.withGenerators generators).dispatch (chunks.map fun c => (c, ()))
        (scoreChunk e.problem e.population)).result = .ok values := h
      rw [Turn.andThen_of_ok h]
      refine (Turn.andThen_of_ok h' _).trans ?_
      simp only [dispatch, withGenerators]
      rcases e.population.recordChunks values with ⟨_ | _, q⟩
      · rfl
      · rfl

/-- A dispatch changes the executor, and so what follows it may do no more than that either. -/
lemma changesExecutor_dispatch {P T : Type} (e : Engine ε) (jobs : List (Chunk × P))
    (process : ChunkFunction P T) {next : Engine ε → List (Chunk × T) → Turn ε α}
    (h : ∀ e' values, ChangesExecutor e' (next e' values).engine) :
    ChangesExecutor e ((e.dispatch jobs process).andThen next).engine := by
  cases hdispatch : (e.dispatch jobs process).result with
  | error error =>
    rw [Turn.andThen_of_error hdispatch]
    exact ⟨_, rfl⟩
  | ok values =>
    rw [Turn.andThen_of_ok hdispatch]
    obtain ⟨x, hx⟩ := h (e.dispatch jobs process).engine values
    exact ⟨x, hx⟩

lemma changesExecutor_crossover (e : Engine ε) : ChangesExecutor e e.crossover.engine := by
  unfold crossover
  cases e.chunksFrom 1 e.population with
  | error error => exact ⟨e.executor, rfl⟩
  | ok chunks => exact changesExecutor_dispatch e _ _ fun e' _ => ⟨e'.executor, rfl⟩

lemma changesExecutor_mutate (e : Engine ε) (next : Population) :
    ChangesExecutor e (e.mutate next).engine := by
  rw [mutate_eq]
  cases e.mutateJobs next with
  | error error => exact ⟨e.executor, rfl⟩
  | ok taken =>
    refine changesExecutor_dispatch e _ _ ?_
    intro e' mutants
    split
    · exact ⟨e'.executor, rfl⟩
    · exact ⟨e'.executor, rfl⟩

/-! ## The exits of a generation -/

/-- How a generation of the engine `e` can end.  The engine after measuring is
`e.evaluate.engine`, the one after breeding `e.evaluate.engine.crossover.engine`. -/
inductive StepExit (e : Engine ε) : Turn ε Report → Prop
  /-- The population could not be measured. -/
  | evaluate {error : Error} (hevaluate : e.evaluate.result = .error error) :
    StepExit e ⟨.error error, e.evaluate.engine, e.evaluate.events⟩
  /-- There was no elite. -/
  | select {error : Error} (hevaluate : e.evaluate.result = .ok ())
    (hselect : e.evaluate.engine.selectElite.result = .error error) :
    StepExit e ⟨.error error, e.evaluate.engine,
      e.evaluate.events ++ e.evaluate.engine.selectElite.events⟩
  /-- The children could not be bred. -/
  | crossover {error : Error} {elite : Individual} {f : Fitness}
    (hevaluate : e.evaluate.result = .ok ())
    (hselect : e.evaluate.engine.selectElite.result = .ok (elite, f))
    (hcrossover : e.evaluate.engine.crossover.result = .error error) :
    StepExit e ⟨.error error, e.evaluate.engine.crossover.engine,
      e.evaluate.events ++ (e.evaluate.engine.selectElite.events
        ++ e.evaluate.engine.crossover.events)⟩
  /-- The children did not fit behind the elite. -/
  | restore {error : Error} {elite : Individual} {f : Fitness}
    {children : List (Chunk × List Individual)} {next : Population}
    (hevaluate : e.evaluate.result = .ok ())
    (hselect : e.evaluate.engine.selectElite.result = .ok (elite, f))
    (hcrossover : e.evaluate.engine.crossover.result = .ok children)
    (hrestore : (Population.mk [elite]).restoreChunks children = (.error error, next)) :
    StepExit e ⟨.error error, e.evaluate.engine.crossover.engine,
      e.evaluate.events ++ (e.evaluate.engine.selectElite.events
        ++ e.evaluate.engine.crossover.events)⟩
  /-- The children could not be mutated. -/
  | mutate {error : Error} {elite : Individual} {f : Fitness}
    {children : List (Chunk × List Individual)} {next : Population}
    (hevaluate : e.evaluate.result = .ok ())
    (hselect : e.evaluate.engine.selectElite.result = .ok (elite, f))
    (hcrossover : e.evaluate.engine.crossover.result = .ok children)
    (hrestore : (Population.mk [elite]).restoreChunks children = (.ok (), next))
    (hmutate : (e.evaluate.engine.crossover.engine.mutate next).result = .error error) :
    StepExit e ⟨.error error, (e.evaluate.engine.crossover.engine.mutate next).engine,
      e.evaluate.events ++ (e.evaluate.engine.selectElite.events
        ++ (e.evaluate.engine.crossover.events
          ++ (e.evaluate.engine.crossover.engine.mutate next).events))⟩
  /-- The new population has the wrong size. -/
  | size {elite : Individual} {f : Fitness} {children : List (Chunk × List Individual)}
    {next mutants : Population}
    (hevaluate : e.evaluate.result = .ok ())
    (hselect : e.evaluate.engine.selectElite.result = .ok (elite, f))
    (hcrossover : e.evaluate.engine.crossover.result = .ok children)
    (hrestore : (Population.mk [elite]).restoreChunks children = (.ok (), next))
    (hmutate : (e.evaluate.engine.crossover.engine.mutate next).result = .ok mutants)
    (hsize : mutants.size ≠ e.options.populationSize.toNat) :
    StepExit e ⟨.error (.evolution (.wrongSize e.generation mutants.size
        e.options.populationSize.toNat)),
      (e.evaluate.engine.crossover.engine.mutate next).engine,
      e.evaluate.events ++ (e.evaluate.engine.selectElite.events
        ++ (e.evaluate.engine.crossover.events
          ++ (e.evaluate.engine.crossover.engine.mutate next).events))⟩
  /-- The new population takes the place of the old one. -/
  | complete {elite : Individual} {f : Fitness} {children : List (Chunk × List Individual)}
    {next mutants : Population}
    (hevaluate : e.evaluate.result = .ok ())
    (hselect : e.evaluate.engine.selectElite.result = .ok (elite, f))
    (hcrossover : e.evaluate.engine.crossover.result = .ok children)
    (hrestore : (Population.mk [elite]).restoreChunks children = (.ok (), next))
    (hmutate : (e.evaluate.engine.crossover.engine.mutate next).result = .ok mutants)
    (hsize : mutants.size = e.options.populationSize.toNat) :
    StepExit e ⟨.ok ⟨e.generation + 1, f, elite⟩,
      { (e.evaluate.engine.crossover.engine.mutate next).engine with
        population := mutants, generation := e.generation + 1 },
      e.evaluate.events ++ (e.evaluate.engine.selectElite.events
        ++ (e.evaluate.engine.crossover.events
          ++ ((e.evaluate.engine.crossover.engine.mutate next).events
            ++ { e with generation := e.generation + 1 }.generationEvents f)))⟩

/-- The engine before the last exit of a generation has the configuration, the generation count and
the genes of the engine that it began with. -/
lemma keeps_mutate (e : Engine ε) (next : Population) :
    Keeps e (e.evaluate.engine.crossover.engine.mutate next).engine :=
  (e.keeps_evaluate.trans (changesExecutor_crossover _).keeps).trans
    (changesExecutor_mutate _ next).keeps

/-- A generation ends in one of the ways of `StepExit`. -/
theorem stepExit (e : Engine ε) : StepExit e e.step := by
  rw [step_eq]
  -- one phase after the other: it fails, and that is an exit, or the next one begins
  cases hevaluate : e.evaluate.result with
  | error error =>
    rw [Turn.andThen_of_error hevaluate]
    exact .evaluate hevaluate
  | ok u =>
  rw [Turn.andThen_of_ok hevaluate]
  cases hselect : e.evaluate.engine.selectElite.result with
  | error error =>
    rw [Turn.andThen_of_error hselect, selectElite_engine]
    exact .select hevaluate hselect
  | ok best =>
  obtain ⟨elite, f⟩ := best
  rw [Turn.andThen_of_ok hselect, selectElite_engine]
  dsimp only
  cases hcrossover : e.evaluate.engine.crossover.result with
  | error error =>
    rw [Turn.andThen_of_error hcrossover]
    exact .crossover hevaluate hselect hcrossover
  | ok children =>
  rw [Turn.andThen_of_ok hcrossover]
  rcases hrestore : (Population.mk [elite]).restoreChunks children with ⟨error | _, next⟩
  · have hexit := StepExit.restore hevaluate hselect hcrossover hrestore
    simpa [hrestore, Turn.failed] using hexit
  dsimp only
  cases hmutate : (e.evaluate.engine.crossover.engine.mutate next).result with
  | error error =>
    rw [Turn.andThen_of_error hmutate]
    exact .mutate hevaluate hselect hcrossover hrestore hmutate
  | ok mutants =>
  rw [Turn.andThen_of_ok hmutate]
  have hkeeps := e.keeps_mutate next
  by_cases hsize : mutants.size = e.options.populationSize.toNat
  · have hexit := StepExit.complete hevaluate hselect hcrossover hrestore hmutate hsize
    simpa [succeed, hkeeps.options, hkeeps.generation, hsize, Turn.done, generationEvents]
      using hexit
  · have hexit := StepExit.size hevaluate hselect hcrossover hrestore hmutate hsize
    simpa [succeed, hkeeps.options, hkeeps.generation, hsize, Turn.failed] using hexit

/-- What a generation that succeeds has gone through: the children are bred, put behind the elite
in `next` and mutated, and the `mutants` are the new population. -/
structure Completes (e : Engine ε) (r : Report) (children : List (Chunk × List Individual))
    (next mutants : Population) : Prop where
  evaluate : e.evaluate.result = .ok ()
  select : e.evaluate.engine.selectElite.result = .ok (r.elite, r.bestFitness)
  crossover : e.evaluate.engine.crossover.result = .ok children
  restore : (Population.mk [r.elite]).restoreChunks children = (.ok (), next)
  mutate : (e.evaluate.engine.crossover.engine.mutate next).result = .ok mutants
  size_eq : mutants.size = e.options.populationSize.toNat
  generation_eq : r.generation = e.generation + 1
  engine_eq : e.step.engine = { (e.evaluate.engine.crossover.engine.mutate next).engine with
    population := mutants, generation := e.generation + 1 }

/-- A generation succeeds through its last exit only. -/
theorem completes_of_ok {e : Engine ε} {r : Report} (h : e.step.result = .ok r) :
    ∃ children next mutants, e.Completes r children next mutants := by
  have hexit := e.stepExit
  generalize hstep : e.step = t at h hexit
  cases hexit with
  | evaluate | select | crossover | restore | mutate | size => cases h
  | complete hevaluate hselect hcrossover hrestore hmutate hsize =>
    obtain rfl := Except.ok.inj h
    exact ⟨_, _, _, hevaluate, hselect, hcrossover, hrestore, hmutate, hsize, rfl, by rw [hstep]⟩

lemma Completes.get?_zero {e : Engine ε} {r : Report} {children : List (Chunk × List Individual)}
    {next mutants : Population} (h : e.Completes r children next mutants) :
    e.step.engine.population.get? 0 = some r.elite := by
  rw [h.engine_eq]
  exact get?_zero_mutate h.mutate (Population.get?_zero_of_restoreChunks h.restore rfl)

/-- A generation keeps the configuration, the problem and the source of generators, however it
ends. -/
lemma setting_step (e : Engine ε) :
    e.step.engine.options = e.options ∧ e.step.engine.problem = e.problem ∧
      e.step.engine.generators = e.generators := by
  have hexit := e.stepExit
  have hcrossover := e.keeps_evaluate.trans (changesExecutor_crossover e.evaluate.engine).keeps
  generalize e.step = t at hexit ⊢
  cases hexit with
  | evaluate | select =>
    exact ⟨e.keeps_evaluate.options, e.keeps_evaluate.problem, e.keeps_evaluate.generators⟩
  | crossover | restore => exact ⟨hcrossover.options, hcrossover.problem, hcrossover.generators⟩
  | @mutate _ _ _ _ next | @size _ _ _ next | @complete _ _ _ next =>
    have hmutate := e.keeps_mutate next
    exact ⟨hmutate.options, hmutate.problem, hmutate.generators⟩

lemma problem_step (e : Engine ε) : e.step.engine.problem = e.problem := e.setting_step.2.1

end Engine

end KnapsackEvolution
