/-
# Engines on executors that cannot be trusted

Whatever an executor answers, a generation completes and moves the elite into slot zero, or it
leaves the generation count and all genes alone (`Engine.StepContract`).  If the executor is sound,
the population also keeps its shape, since appended chunks are checked for their length, the new
population for its size, and children have the gene count of their parents.  All of this holds
after any sequence of calls, failed ones included (`Engine.Safe`).
-/
import KnapsackEvolution.Proofs.Answers
import KnapsackEvolution.Proofs.Calls
import KnapsackEvolution.Proofs.Faultless
import KnapsackEvolution.Proofs.Starts

namespace KnapsackEvolution

lemma Outcome.exists_firstError {T : Type} {outcomes : List (Outcome T)} {o : Outcome T} {e : Error}
    (ho : o ∈ outcomes) (h : o.result = .error e) : ∃ e', FirstError outcomes e' := by
  cases hcollect : collect outcomes with
  | error e' => exact ⟨e', collect_eq_error_iff.1 hcollect⟩
  | ok values =>
    rw [collect_eq_ok_iff.1 hcollect] at ho
    obtain ⟨v, -, rfl⟩ := List.mem_map.1 ho
    cases h

namespace Engine

variable {ε : Type} [Executor ε]

/-! ## Single generations -/

/-- What a generation of the engine `e` may do, whatever the executor answers. -/
structure StepContract (e : Engine ε) : Prop where
  /-- Nothing outside of the chunk functions faults. -/
  faultless : e.stepOrFault = .ok e.step
  /-- A completed generation counts, and its elite is from the old population and in slot zero. -/
  ok : ∀ r, e.step.result = .ok r →
    e.step.engine.generation = e.generation + 1 ∧
    e.step.engine.population.get? 0 = some r.elite ∧ r.elite.genes ∈ e.population.genes
  /-- A failed generation does not count and changes no genes. -/
  error : ∀ error, e.step.result = .error error →
    e.step.engine.generation = e.generation ∧ e.step.engine.population.genes = e.population.genes
  /-- A chunk that is lost while the population is measured leaves the whole population alone. -/
  evaluate : ∀ o ∈ e.evaluateOutcomes, ∀ lost, o.result = .error lost →
    ∃ first, Outcome.FirstError e.evaluateOutcomes first ∧ e.step.result = .error first ∧
      e.step.engine.population = e.population
  /-- A chunk that is lost while children are bred leaves the measured population. -/
  crossover : ∀ elite, e.evaluate.result = .ok () →
    e.evaluate.engine.selectElite.result = .ok elite →
    ∀ o ∈ e.evaluate.engine.crossoverOutcomes, ∀ lost, o.result = .error lost →
      ∃ first, Outcome.FirstError e.evaluate.engine.crossoverOutcomes first ∧
        e.step.result = .error first ∧ e.step.engine.population = e.evaluate.engine.population
  /-- A chunk that is lost while children are mutated leaves the measured population. -/
  mutate : ∀ elite children next, e.evaluate.result = .ok () →
    e.evaluate.engine.selectElite.result = .ok elite →
    e.evaluate.engine.crossover.result = .ok children →
    (Population.mk [elite.1]).restoreChunks children = (.ok (), next) →
    ∀ o ∈ e.evaluate.engine.crossover.engine.mutateOutcomes next, ∀ lost, o.result = .error lost →
      ∃ first,
        Outcome.FirstError (e.evaluate.engine.crossover.engine.mutateOutcomes next) first ∧
        e.step.result = .error first ∧ e.step.engine.population = e.evaluate.engine.population

/-- A completed generation counts, and its elite is from the old population and in slot zero. -/
theorem step_of_ok {e : Engine ε} {r : Report} (h : e.step.result = .ok r) :
    e.step.engine.generation = e.generation + 1 ∧
      e.step.engine.population.get? 0 = some r.elite ∧ r.elite.genes ∈ e.population.genes := by
  obtain ⟨children, next, mutants, hcompletes⟩ := completes_of_ok h
  obtain ⟨slot, -, hslot, -⟩ := selectElite_eq_ok hcompletes.select
  refine ⟨by rw [hcompletes.engine_eq], hcompletes.get?_zero, ?_⟩
  rw [← e.keeps_evaluate.genes]
  exact Population.mem_genes (List.mem_of_getElem? hslot)

/-- A failed generation keeps the configuration, the generation count and all genes. -/
theorem keeps_step_of_error {e : Engine ε} {error : Error} (h : e.step.result = .error error) :
    Keeps e e.step.engine := by
  have hexit := e.stepExit
  generalize e.step = t at h hexit
  have hcrossover := e.keeps_evaluate.trans (changesExecutor_crossover e.evaluate.engine).keeps
  cases hexit with
  | evaluate | select => exact e.keeps_evaluate
  | crossover | restore => exact hcrossover
  | @mutate _ _ _ _ next | @size _ _ _ next => exact e.keeps_mutate next
  | complete => cases h

/-! ## The error of a failed phase -/

section Phases

variable {e : Engine ε} {error : Error} {elite : Individual × Fitness}
  {children : List (Chunk × List Individual)} {next : Population}

lemma step_of_evaluate_error (hevaluate : e.evaluate.result = .error error) :
    e.step.result = .error error ∧ e.step.engine = e.evaluate.engine := by
  rw [step_eq, Turn.andThen_of_error hevaluate]
  exact ⟨rfl, rfl⟩

lemma step_of_crossover_error (hevaluate : e.evaluate.result = .ok ())
    (hselect : e.evaluate.engine.selectElite.result = .ok elite)
    (hcrossover : e.evaluate.engine.crossover.result = .error error) :
    e.step.result = .error error ∧ e.step.engine = e.evaluate.engine.crossover.engine := by
  rw [step_eq, Turn.andThen_of_ok hevaluate, Turn.andThen_of_ok hselect, selectElite_engine]
  dsimp only
  rw [Turn.andThen_of_error hcrossover]
  exact ⟨rfl, rfl⟩

lemma step_of_mutate_error (hevaluate : e.evaluate.result = .ok ())
    (hselect : e.evaluate.engine.selectElite.result = .ok elite)
    (hcrossover : e.evaluate.engine.crossover.result = .ok children)
    (hrestore : (Population.mk [elite.1]).restoreChunks children = (.ok (), next))
    (hmutate : (e.evaluate.engine.crossover.engine.mutate next).result = .error error) :
    e.step.result = .error error ∧
      e.step.engine = (e.evaluate.engine.crossover.engine.mutate next).engine := by
  rw [step_eq, Turn.andThen_of_ok hevaluate, Turn.andThen_of_ok hselect, selectElite_engine]
  dsimp only
  rw [Turn.andThen_of_ok hcrossover]
  simp only [hrestore]
  rw [Turn.andThen_of_error hmutate]
  exact ⟨rfl, rfl⟩

end Phases

/-- On any executor a generation does nothing else. -/
theorem stepContract (e : Engine ε) : StepContract e where
  faultless := e.stepOrFault_eq
  ok _ h := step_of_ok h
  error _ h := ⟨(keeps_step_of_error h).generation, (keeps_step_of_error h).genes⟩
  evaluate := by
    intro o ho lost hlost
    obtain ⟨first, hfirst⟩ := Outcome.exists_firstError ho hlost
    obtain ⟨hevaluate, hpopulation⟩ := evaluate_of_firstError hfirst
    obtain ⟨hresult, hengine⟩ := step_of_evaluate_error hevaluate
    exact ⟨first, hfirst, hresult, hengine ▸ hpopulation⟩
  crossover := by
    intro elite hevaluate hselect o ho lost hlost
    obtain ⟨first, hfirst⟩ := Outcome.exists_firstError ho hlost
    obtain ⟨hresult, hengine⟩ :=
      step_of_crossover_error hevaluate hselect (crossover_of_firstError hfirst)
    exact ⟨first, hfirst, hresult, hengine ▸ (changesExecutor_crossover _).population⟩
  mutate := by
    intro elite children next hevaluate hselect hcrossover hrestore o ho lost hlost
    obtain ⟨first, hfirst⟩ := Outcome.exists_firstError ho hlost
    obtain ⟨hresult, hengine⟩ := step_of_mutate_error hevaluate hselect hcrossover hrestore
      (mutate_of_firstError hfirst)
    refine ⟨first, hfirst, hresult, ?_⟩
    rw [hengine, (changesExecutor_mutate _ next).population,
      (changesExecutor_crossover _).population]

/-! ## Measuring without generations -/

/-- What a run without generations may do to the engine `e`, whatever the executor answers. -/
structure MeasureContract (e : Engine ε) : Prop where
  /-- No generation is counted. -/
  generation : (e.run 0).engine.generation = e.generation
  /-- No gene changes. -/
  genes : (e.run 0).engine.population.genes = e.population.genes
  /-- A lost chunk leaves the whole population alone. -/
  evaluate : ∀ o ∈ e.evaluateOutcomes, ∀ lost, o.result = .error lost →
    ∃ first, Outcome.FirstError e.evaluateOutcomes first ∧ (e.run 0).result = .error first ∧
      (e.run 0).engine.population = e.population

/-- On any executor a run without generations does nothing else. -/
theorem measureContract (e : Engine ε) : MeasureContract e where
  generation := by rw [run_zero_engine, e.keeps_evaluate.generation]
  genes := by rw [run_zero_engine, e.keeps_evaluate.genes]
  evaluate := by
    intro o ho lost hlost
    obtain ⟨first, hfirst⟩ := Outcome.exists_firstError ho hlost
    obtain ⟨hevaluate, hpopulation⟩ := evaluate_of_firstError hfirst
    refine ⟨first, hfirst, ?_, by rw [run_zero_engine, hpopulation]⟩
    rw [run_zero, Turn.andThen_of_error hevaluate]

/-! ## The shape of the population -/

/-- The engine has the configuration, and its population has the shape that the configuration asks
for. -/
structure WellShaped (options : Options) (e : Engine ε) : Prop where
  options_eq : e.options = options
  shaped : e.population.Shaped options.populationSize.toNat options.geneCount.toNat

namespace WellShaped

variable {options : Options} {e e' : Engine ε}

omit [Executor ε] in
lemma of_keeps (h : e.WellShaped options) (hkeeps : Keeps e e') : e'.WellShaped options :=
  ⟨hkeeps.options.trans h.options_eq, h.shaped.of_genes_eq hkeeps.genes⟩

omit [Executor ε] in
lemma withGenerators (h : e.WellShaped options) (generators : Factory) :
    (e.withGenerators generators).WellShaped options := ⟨h.options_eq, h.shaped⟩

omit [Executor ε] in
lemma first (surroundings : Surroundings) (executor : ε) (options : Options) (problem : Problem) :
    (first surroundings executor options problem).WellShaped options :=
  ⟨rfl, Population.shaped_random _ _ _⟩

variable [SoundExecutor ε]

/-- A generation on a sound executor keeps the shape of the population. -/
theorem step (h : e.WellShaped options) : e.step.engine.WellShaped options := by
  cases hstep : e.step.result with
  | error error => exact h.of_keeps (keeps_step_of_error hstep)
  | ok r =>
    obtain ⟨children, next, mutants, hcompletes⟩ := completes_of_ok hstep
    have hoptions := (e.keeps_mutate next).options.trans h.options_eq
    -- the new population: the elite, who was a parent, and children of parents
    have hparents := (h.of_keeps e.keeps_evaluate).shaped.genes_eq
    obtain ⟨slot, -, hslot, -⟩ := selectElite_eq_ok hcompletes.select
    obtain ⟨back, hback, hmem⟩ := (Population.mk [r.elite]).restoreChunks_snd children
    rw [hcompletes.restore] at hback
    have hnext : ∀ i ∈ next.individuals, i.size = options.geneCount.toNat := by
      intro i hi
      rw [hback] at hi
      rcases List.mem_append.1 hi with hi | hi
      · obtain rfl := List.mem_singleton.1 hi
        exact hparents r.elite (List.mem_of_getElem? hslot)
      · obtain ⟨v, hv, hi⟩ := hmem i hi
        exact size_of_crossover hparents hcompletes.crossover v hv i hi
    rw [hcompletes.engine_eq]
    exact ⟨hoptions, h.options_eq ▸ hcompletes.size_eq, size_of_mutate hnext hcompletes.mutate⟩

lemma invariant : Invariant fun e : Engine ε => e.WellShaped options where
  withGenerators generators h := h.withGenerators generators
  evaluate {e} h := h.of_keeps e.keeps_evaluate
  step h := h.step

lemma afterSteps (h : e.WellShaped options) (n : Nat) : (e.afterSteps n).WellShaped options :=
  invariant.afterSteps h n

/-- Calls on a sound executor keep the shape of the population. -/
theorem afterCalls (h : e.WellShaped options) (calls : List (Factory × Call)) :
    (e.afterCalls calls).WellShaped options := invariant.afterCalls h calls

end WellShaped

/-! ## All calls -/

/-- What an engine with a configuration does on the next call: nothing faults, the population keeps
its shape, single generations and measurements keep their contracts, and runs are generations one
after the other. -/
structure Safe (options : Options) (e : Engine ε) : Prop where
  faultless : ∀ n, e.runOrFault n = .ok (e.run n)
  shaped : ∀ k, (e.afterSteps k).population.Shaped options.populationSize.toNat
    options.geneCount.toNat
  step : ∀ k, StepContract (e.afterSteps k)
  measure : MeasureContract e
  run : ∀ n, e.RunIsSteps n

/-- An engine on an executor that loses, moves, relabels and fails the outcomes of a backend in any
way is safe after any sequence of calls, whatever each call draws. -/
theorem safe_of_disturbed (surroundings : Surroundings) (backend : Backend)
    (edits : Nat → List Edit) (options : Options) (problem : Problem)
    {e : Engine (Disturbed Backend)} {events : List Event}
    (hstart : onExecutor surroundings (Disturbed.ofEdits backend edits) options problem =
      .ok (e, events))
    (calls : List (Factory × Call)) (generators : Factory) :
    Safe options ((e.afterCalls calls).withGenerators generators) := by
  obtain ⟨-, -, rfl, -⟩ := onExecutor_eq_ok_iff.1 hstart
  have hfirst := WellShaped.first surroundings (Disturbed.ofEdits backend edits) options problem
  have hshaped := (hfirst.afterCalls calls).withGenerators generators
  exact {
    faultless := runOrFault_eq _
    shaped := fun k => (hshaped.afterSteps k).shaped
    step := fun k => stepContract _
    measure := measureContract _
    run := runIsSteps _ }

/-- The answer to the second dispatch has an error in the place of a brood, so the first generation
fails with it and changes no genes; the answer to the third dispatch is lost. -/
theorem safe_of_disturbed_broods :
    let options : Options := { Options.default with
      backend := .sequential, workers := 1, chunkSize := 1, populationSize := 3, geneCount := 2,
      mutationProbability := ⟨0⟩, tournamentSize := 1, seed? := some 1 }
    let problem : Problem := ⟨#[5, 7], #[1, 1], 2⟩
    let surroundings : Surroundings := ⟨fun _ => 0, .inOrder⟩
    let edits : Nat → List Edit := fun call =>
      if call = 1 then [.reverse, .fail 0 .emptyPopulation] else if call = 2 then [.clear] else []
    let e := first surroundings (Disturbed.ofEdits Backend.sequential edits) options problem
    let generators : Factory := fun _ => ⟨Vector.replicate 8 0, 0, List.replicate 3 0⟩
    (∃ events,
      onExecutor surroundings (Disturbed.ofEdits Backend.sequential edits) options problem =
        .ok (e, events)) ∧
    (e.withGenerators generators).step.result = .error .emptyPopulation ∧
    (e.withGenerators generators).step.engine.population.genes =
      (e.withGenerators generators).population.genes ∧
    Safe options ((e.afterCalls [(generators, .step)]).withGenerators generators) := by
  intro options problem surroundings edits e generators
  have hstart : onExecutor surroundings (Disturbed.ofEdits Backend.sequential edits) options
      problem = .ok (e, [.engineInitialized .sequential 1
        (firstPopulation surroundings options).size 2]) :=
    onExecutor_eq_ok_iff.2 ⟨by decide +kernel, by decide, rfl, rfl⟩
  have hresult : (e.withGenerators generators).step.result = .error .emptyPopulation := by
    decide +kernel
  have hsafe := safe_of_disturbed surroundings .sequential edits options problem hstart
  have hnow : StepContract (e.withGenerators generators) := (hsafe [] generators).step 0
  obtain ⟨-, hgenes⟩ := hnow.error _ hresult
  exact ⟨⟨_, hstart⟩, hresult, hgenes, hsafe [(generators, .step)] generators⟩

end Engine

end KnapsackEvolution
