/-
# Fitness that is kept

A fitness is written by measuring, copied with the elite, and left out of every child.  So whatever
calls an engine on a backend has answered or failed, each fitness in its population is the score of
the genes that it is kept with (`Population.Fresh`): measuring writes scores of the genes that are
there or nothing at all, a failed generation leaves the measured population, and a completed one
leaves the elite and unmeasured children.
-/
import KnapsackEvolution.Proofs.Generations

namespace KnapsackEvolution

namespace Population

/-- Every fitness that is kept is the score of the genes it is kept with. -/
def Fresh (problem : Problem) (p : Population) : Prop :=
  ∀ i ∈ p.individuals, ∀ f, i.fitness? = some f → problem.score i.genes = .ok f

lemma Measured.fresh {problem : Problem} {p : Population} (h : p.Measured problem) :
    p.Fresh problem := by
  intro i hi f hf
  obtain ⟨g, hg, hscore⟩ := h i hi
  obtain rfl : g = f := Option.some.inj (hg.symm.trans hf)
  exact hscore

lemma fresh_random (problem : Problem) (size genes : Nat) (g : Generator) :
    ((random size genes).run g).1.Fresh problem := by
  intro i hi f hf
  rw [fitness?_random size genes g i hi] at hf
  cases hf

end Population

namespace Engine

/-- A failed generation leaves the population as measuring left it. -/
lemma population_step_of_error {ε : Type} [Executor ε] {e : Engine ε} {error : Error}
    (h : e.step.result = .error error) :
    e.step.engine.population = e.evaluate.engine.population := by
  have hexit := e.stepExit
  have hcrossover := (changesExecutor_crossover e.evaluate.engine).population
  generalize e.step = t at h hexit ⊢
  cases hexit with
  | evaluate | select => rfl
  | crossover | restore => exact hcrossover
  | @mutate _ _ _ _ next | @size _ _ _ next =>
    exact (changesExecutor_mutate _ next).population.trans hcrossover
  | complete => cases h

variable {e : Engine Backend} {options : Options} {problem : Problem}

/-- After a generation of a well-shaped engine the elite has been measured and nobody else. -/
theorem fitness?_of_step (hvalid : options.validate = .ok ()) (hshaped : e.WellShaped options)
    {r : Report} (h : e.step.result = .ok r) {slot : Nat}
    (hslot : slot < e.step.engine.population.size) :
    (slot = 0 ∧ e.step.engine.population.get? slot = some r.elite) ∨
      ∃ child, slot ≠ 0 ∧ e.step.engine.population.get? slot = some child ∧
        child.fitness? = none := by
  obtain ⟨-, -, hzero, -⟩ := step_eq_ok h
  obtain ⟨-, chunks, -, hchunks, hbroods⟩ := step_of_evaluate hvalid hshaped (evaluate_of_step h)
  have hsize := hshaped.shaped.size_eq.trans hshaped.step.shaped.size_eq.symm
  rcases Nat.eq_zero_or_pos slot with rfl | hpos
  · exact .inl ⟨rfl, hzero⟩
  · rw [← hsize] at hslot
    have htiles := (partition_eq_ok hchunks).1 (Nat.le_trans hpos (Nat.le_of_lt hslot))
    obtain ⟨c, hc, hmem⟩ := htiles.exists_mem hpos hslot
    obtain ⟨child, mutant, g, g', -, hmutant, hmutated⟩ := (hbroods c hc).exists_child hmem
    exact .inr ⟨mutant, Nat.ne_of_gt hpos, hmutant, hmutated.unmeasured⟩

/-- Measuring on a backend writes fresh values or none. -/
theorem fresh_evaluate (h : e.population.Fresh e.problem) :
    e.evaluate.engine.population.Fresh e.problem := by
  cases hevaluate : e.evaluate.result with
  | error error => exact (population_evaluate_of_error hevaluate).symm ▸ h
  | ok u => exact (measured_evaluate hevaluate).fresh

/-- A generation on a backend leaves no stale fitness, however it ends. -/
theorem fresh_step (hvalid : options.validate = .ok ()) (hshaped : e.WellShaped options)
    (h : e.population.Fresh e.problem) : e.step.engine.population.Fresh e.problem := by
  cases hstep : e.step.result with
  | error error => exact (population_step_of_error hstep).symm ▸ fresh_evaluate h
  | ok r =>
    obtain ⟨⟨slot, hmax, hslot⟩, hfitness, -, -⟩ := step_eq_ok hstep
    intro i hi f hf
    obtain ⟨t, ht⟩ := List.mem_iff_getElem?.1 hi
    have hlt : t < e.step.engine.population.size := (List.getElem?_eq_some_iff.1 ht).1
    rcases fitness?_of_step hvalid hshaped hstep hlt with ⟨-, helite⟩ | ⟨child, -, hchild, hnone⟩
    · -- the elite keeps the fitness that it was chosen for
      obtain rfl : i = r.elite := Option.some.inj (ht.symm.trans helite)
      obtain rfl : r.bestFitness = f := Option.some.inj (hfitness.symm.trans hf)
      exact hmax.score_eq hslot
    · obtain rfl : i = child := Option.some.inj (ht.symm.trans hchild)
      rw [hnone] at hf
      cases hf

/-- The engine has the configuration and the problem, and a population of the right shape without
stale fitness. -/
structure Kept (options : Options) (problem : Problem) (e : Engine Backend) : Prop where
  shaped : e.WellShaped options
  problem_eq : e.problem = problem
  fresh : e.population.Fresh problem

namespace Kept

/-- Calls bring in no stale fitness. -/
theorem invariant (hvalid : options.validate = .ok ()) :
    Invariant fun e : Engine Backend => e.Kept options problem where
  withGenerators generators h := ⟨h.shaped.withGenerators generators, h.problem_eq, h.fresh⟩
  evaluate := by
    rintro e ⟨hshaped, rfl, hfresh⟩
    exact ⟨hshaped.of_keeps e.keeps_evaluate, e.keeps_evaluate.problem, fresh_evaluate hfresh⟩
  step := by
    rintro e ⟨hshaped, rfl, hfresh⟩
    exact ⟨hshaped.step, e.problem_step, fresh_step hvalid hshaped hfresh⟩

lemma first (surroundings : Surroundings) (backend : Backend) (options : Options)
    (problem : Problem) : (first surroundings backend options problem).Kept options problem where
  shaped := .first surroundings backend options problem
  problem_eq := rfl
  fresh := Population.fresh_random problem _ _ _

end Kept

/-- Whatever calls an engine on a backend has answered or failed: its population has the size that
is configured and one gene for each item, and every fitness in it is the score of the genes it is
kept with.  A generation that succeeds then leaves a fitness in slot zero and nowhere else, and a
successful run without generations leaves one in every slot. -/
theorem no_stale_fitness (surroundings : Surroundings) (backend : Backend) (options : Options)
    (problem : Problem) {e : Engine Backend} {events : List Event}
    (hstart : onExecutor surroundings backend options problem = .ok (e, events))
    (calls : List (Factory × Call)) (generators : Factory) :
    let now := (e.afterCalls calls).withGenerators generators
    now.problem = problem ∧ options.geneCount.toNat = problem.size ∧
      now.population.Shaped options.populationSize.toNat problem.size ∧
      now.population.Fresh problem ∧
      (∀ r, now.step.result = .ok r → ∀ slot < options.populationSize.toNat,
        ∃ i, now.step.engine.population.get? slot = some i ∧ (i.fitness?.isSome ↔ slot = 0)) ∧
      ∀ elite, (now.run 0).result = .ok elite →
        (now.run 0).engine.population.Measured problem := by
  intro now
  obtain ⟨hvalid, hsize, rfl, -⟩ := onExecutor_eq_ok_iff.1 hstart
  have hkept : Invariant fun e : Engine Backend => e.Kept options problem := Kept.invariant hvalid
  have hnow : now.Kept options problem :=
    hkept.withGenerators generators (hkept.afterCalls (.first surroundings backend _ _) calls)
  refine ⟨hnow.problem_eq, hsize, hsize ▸ hnow.shaped.shaped, hnow.fresh, ?_, ?_⟩
  · intro r hstep slot hslot
    obtain ⟨-, hfitness, -, -⟩ := step_eq_ok hstep
    rw [← hnow.shaped.step.shaped.size_eq] at hslot
    rcases fitness?_of_step hvalid hnow.shaped hstep hslot with
      ⟨hzero, helite⟩ | ⟨child, hne, hchild, hnone⟩
    · exact ⟨r.elite, helite, by simp [hfitness, hzero]⟩
    · exact ⟨child, hchild, by simp [hnone, hne]⟩
  · intro elite hrun
    rw [run_zero] at hrun
    obtain ⟨u, hevaluate, -⟩ := Turn.andThen_eq_ok hrun
    rw [run_zero_engine, ← hnow.problem_eq]
    exact measured_evaluate hevaluate

/-- The children of the first generation are too heavy to be weighed, so a run after it fails, and a
measurement would; the fitness of the elite is still its score. -/
theorem no_stale_fitness_after_overflow :
    let options : Options := { Options.default with
      backend := .sequential, workers := 1, chunkSize := 2, populationSize := 3, geneCount := 2,
      mutationProbability := ⟨0⟩, tournamentSize := 1, seed? := some 1 }
    let problem : Problem :=
      ⟨#[5, 7], #[9223372036854775808, 9223372036854775808], 18446744073709551615⟩
    let surroundings : Surroundings := ⟨fun _ => 0, .inOrder⟩
    let e := first surroundings Backend.sequential options problem
    let generators : Factory := fun _ => ⟨Vector.replicate 8 0, 0,
      [0, 0xC000000000000000, 0x8000000000000000, 0, 0xC000000000000000, 0x8000000000000000]⟩
    let before := e.withGenerators generators
    let now := (e.afterCalls [(generators, .step), (generators, .run 3)]).withGenerators generators
    (∃ events, onExecutor surroundings Backend.sequential options problem = .ok (e, events)) ∧
      (before.step.result = .ok ⟨1, 7, ⟨[false, true], some 7⟩⟩ ∧
        ∃ i, before.step.engine.population.get? 2 = some i ∧ (i.fitness?.isSome ↔ 2 = 0)) ∧
      (now.run 0).result = .error (.dispatch 0 2 (.faulted .addOverflow)) ∧
      now.population = ⟨[⟨[false, true], some 7⟩, ⟨[true, true], none⟩, ⟨[true, true], none⟩]⟩ ∧
      now.population.Fresh problem := by
  intro options problem surroundings e generators before now
  have hstart : onExecutor surroundings Backend.sequential options problem = .ok (e,
      [.engineInitialized .sequential 1 (firstPopulation surroundings options).size 2]) :=
    onExecutor_eq_ok_iff.2 ⟨by decide +kernel, by decide, rfl, rfl⟩
  have hstep : before.step.result = .ok ⟨1, 7, ⟨[false, true], some 7⟩⟩ := by decide +kernel
  obtain ⟨-, -, -, -, hslots, -⟩ :=
    no_stale_fitness surroundings .sequential options problem hstart [] generators
  obtain ⟨-, -, -, hfresh, -⟩ := no_stale_fitness surroundings .sequential options problem hstart
    [(generators, .step), (generators, .run 3)] generators
  exact ⟨⟨_, hstart⟩, ⟨hstep, hslots _ hstep 2 (by decide)⟩, by decide +kernel, by decide +kernel,
    hfresh⟩

end Engine

end KnapsackEvolution
