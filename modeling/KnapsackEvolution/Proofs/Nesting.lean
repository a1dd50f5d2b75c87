/-
# Larger draws

Whoever draws more from a generator draws the same first.  So the items of a drawn problem are the
first items of every larger problem with its seed (`Problem.ofSeed_eq_firstItems`), although their
values and weights are drawn in turn, and a drawn population is the front of every larger one
(`Population.take_random`).

The generator of a first population hangs on the seed alone, not on the size.  Of two engines with
one seed and one gene count the one with more individuals begins with all those of the other.  Its
first generation on the same problem therefore reports no lower fitness
(`Engine.bestFitness_le_of_subset`).
-/
import KnapsackEvolution.Proofs.Coverings
import KnapsackEvolution.Proofs.Progress

namespace KnapsackEvolution

/-! ## Problems -/

namespace Problem

/-- The problem of the first `m` items. -/
def firstItems (p : Problem) (m : Nat) : Problem :=
  ⟨p.values.take m, p.weights.take m, p.capacity⟩

/-- The problem has `n` items, which are worth and weigh less than 100 each. -/
structure Small (n : Nat) (p : Problem) : Prop where
  size_values : p.values.size = n
  size_weights : p.weights.size = n
  values_lt : ∀ value ∈ p.values, value < 100
  weights_lt : ∀ weight ∈ p.weights, weight < 100

lemma take_drawItems {m n : Nat} (h : m ≤ n) (g : Generator) :
    ((drawItems n).run g).1.take m = ((drawItems m).run g).1 := by
  rw [drawItems_eq_times, drawItems_eq_times]
  exact Sample.take_times drawItem h g

/-- A drawn problem has the first items of every larger one with its seed. -/
theorem ofSeed_eq_firstItems (seed capacity : UInt64) {m n : Nat} (h : m ≤ n) :
    ofSeed seed m capacity = (ofSeed seed n capacity).firstItems m := by
  have hitems : (drawItems m (.ofSeed seed)).1 = (drawItems n (.ofSeed seed)).1.take m :=
    (take_drawItems h (.ofSeed seed)).symm
  simp only [ofSeed, firstItems, hitems, List.map_take, List.take_toArray]

/-- The items of a drawn problem are small. -/
theorem small_ofSeed (seed capacity : UInt64) (n : Nat) : (ofSeed seed n capacity).Small n := by
  have hlength : (drawItems n (.ofSeed seed)).1.length = n := length_drawItems n (.ofSeed seed)
  have hle : ∀ item ∈ (drawItems n (.ofSeed seed)).1, item.1.toNat ≤ 99 ∧ item.2.toNat ≤ 99 :=
    le_of_mem_drawItems n (.ofSeed seed)
  have hlt : ∀ {amount : UInt64}, amount.toNat ≤ 99 → amount < 100 :=
    fun h => UInt64.lt_iff_toNat_lt.2 (Nat.lt_succ_of_le h)
  constructor
  · simpa [ofSeed] using hlength
  · simpa [ofSeed] using hlength
  · intro value hvalue
    obtain ⟨item, hitem, rfl⟩ := List.mem_map.1 (List.mem_toArray.1 hvalue)
    exact hlt (hle item hitem).1
  · intro weight hweight
    obtain ⟨item, hitem, rfl⟩ := List.mem_map.1 (List.mem_toArray.1 hweight)
    exact hlt (hle item hitem).2

end Problem

/-! ## Populations -/

/-- A drawn population is the front of every larger one from the same generator. -/
theorem Population.take_random {m n : Nat} (h : m ≤ n) (genes : Nat) (g : Generator) :
    ((random n genes).run g).1.individuals.take m = ((random m genes).run g).1.individuals := by
  rw [individuals_random, individuals_random]
  exact Sample.take_times (Individual.random genes) h g

namespace Engine

variable {ε ε' : Type} {seed : UInt64} {options options' : Options}

/-- With one seed and one gene count, fewer individuals are the front of more. -/
theorem firstPopulation_prefix_of_le (surroundings surroundings' : Surroundings)
    (hseed : options.seed? = some seed) (hseed' : options'.seed? = some seed)
    (hgenes : options.geneCount = options'.geneCount)
    (hsize : options.populationSize ≤ options'.populationSize) :
    (firstPopulation surroundings options).individuals <+:
      (firstPopulation surroundings' options').individuals := by
  have hfactory : factoryOf surroundings options = factoryOf surroundings' options' := by
    simp only [factoryOf, hseed, hseed']
  rw [firstPopulation, firstPopulation, hfactory, hgenes,
    ← Population.take_random (UInt64.le_iff_toNat_le.1 hsize)]
  exact List.take_prefix _ _

lemma fitness?_firstPopulation (surroundings : Surroundings) (options : Options) :
    ∀ i ∈ (firstPopulation surroundings options).individuals, i.fitness? = none :=
  Population.fitness?_random _ _ _

variable [Executor ε] [Executor ε'] [SparingExecutor ε] [SparingExecutor ε']

/-- Of two engines on one problem, neither of them measured, the one that has all individuals of
the other reports no lower fitness for its next generation. -/
theorem bestFitness_le_of_subset {e : Engine ε} {e' : Engine ε'}
    (hnew : ∀ i ∈ e.population.individuals, i.fitness? = none)
    (hnew' : ∀ i ∈ e'.population.individuals, i.fitness? = none)
    (hproblem : e.problem = e'.problem)
    (hsubset : e.population.individuals ⊆ e'.population.individuals) {r r' : Report}
    (h : e.step.result = .ok r) (h' : e'.step.result = .ok r') :
    r.bestFitness ≤ r'.bestFitness := by
  have hgreatest := greatest_of_step hnew h
  have hgreatest' := greatest_of_step hnew' h'
  rw [hproblem] at hgreatest
  exact hgreatest.le_of_subset hgreatest' (List.map_subset _ hsubset)

end Engine

/-- Drawn problems have small items, and the first items of larger ones with their seed.  Drawn
populations have the shape that was asked for, nobody in them has a fitness, and they are the front
of larger ones from their generator.  So the first population of an engine with a seed is the front
of that of any engine with the same seed, as many genes and no fewer individuals, and if both have
the same problem and their first generations succeed on executors that answer no job twice, the
best fitness of the first is no higher than that of the second. -/
theorem draws_nested :
    (∀ (seed capacity : UInt64) (m n : Nat), m ≤ n →
      (Problem.ofSeed seed n capacity).Small n ∧
      Problem.ofSeed seed m capacity = (Problem.ofSeed seed n capacity).firstItems m) ∧
    (∀ (g : Generator) (genes m n : Nat), m ≤ n →
      let small := ((Population.random m genes).run g).1
      let large := ((Population.random n genes).run g).1
      large.individuals.take m = small.individuals ∧ large.Shaped n genes ∧
        ∀ i ∈ large.individuals, i.fitness? = none) ∧
    ∀ {ε ε' : Type} [Executor ε] [Executor ε'] (surroundings surroundings' : Surroundings)
      (executor : ε) (executor' : ε') (options options' : Options) (problem problem' : Problem)
      (e : Engine ε) (e' : Engine ε') (events events' : List Event) (seed : UInt64),
      Engine.onExecutor surroundings executor options problem = .ok (e, events) →
      Engine.onExecutor surroundings' executor' options' problem' = .ok (e', events') →
      options.seed? = some seed → options'.seed? = some seed →
      options.geneCount = options'.geneCount → options.populationSize ≤ options'.populationSize →
      e.population.individuals <+: e'.population.individuals ∧
      ∀ [SparingExecutor ε] [SparingExecutor ε'], problem = problem' →
        ∀ (generators generators' : Factory) (r r' : Report),
          (e.withGenerators generators).step.result = .ok r →
          (e'.withGenerators generators').step.result = .ok r' →
          r.bestFitness ≤ r'.bestFitness := by
  refine ⟨?_, ?_, ?_⟩
  · intro seed capacity m n h
    exact ⟨Problem.small_ofSeed seed capacity n, Problem.ofSeed_eq_firstItems seed capacity h⟩
  · intro g genes m n h small large
    exact ⟨Population.take_random h genes g, Population.shaped_random n genes g,
      Population.fitness?_random n genes g⟩
  · intro ε ε' _ _ surroundings surroundings' executor executor' options options' problem problem'
      e e' events events' seed hstart hstart' hseed hseed' hgenes hsize
    obtain ⟨-, -, rfl, -⟩ := Engine.onExecutor_eq_ok_iff.1 hstart
    obtain ⟨-, -, rfl, -⟩ := Engine.onExecutor_eq_ok_iff.1 hstart'
    have hmore := Engine.firstPopulation_prefix_of_le surroundings surroundings' hseed hseed' hgenes
      hsize
    refine ⟨hmore, ?_⟩
    intro _ _ hproblem generators generators' r r' hstep hstep'
    exact Engine.bestFitness_le_of_subset (Engine.fitness?_firstPopulation surroundings options)
      (Engine.fitness?_firstPopulation surroundings' options') hproblem hmore.subset hstep hstep'

/-- Two items out of four, and three individuals out of five.  The fifth has the best selection of
four items, although the outcomes of its measurement come back in reverse. -/
theorem draws_nested_three_in_five :
    let problem : Problem := ⟨#[97, 17, 96, 38], #[69, 25, 52, 20], 90⟩
    let options : Options := { Options.default with
      backend := .sequential, workers := 1, chunkSize := 2, populationSize := 3, geneCount := 4,
      mutationProbability := ⟨0⟩, tournamentSize := 1, seed? := some 1 }
    let options' : Options := { options with
      backend := .workerPool, workers := 2, chunkSize := 3, populationSize := 5 }
    let surroundings : Surroundings := ⟨fun _ => 0, .inOrder⟩
    let executor : Disturbed Backend := .ofEdits (.workerPool ⟨2, by decide, .inOrder, 0⟩)
      fun call => if call = 0 then [.reverse] else []
    let generators : Factory := fun _ => ⟨Vector.replicate 8 0, 0, List.replicate 16 0⟩
    let e := Engine.first surroundings Backend.sequential options problem
    let e' := Engine.first surroundings executor options' problem
    (Problem.ofSeed 1 4 90 = problem ∧ (Problem.ofSeed 1 4 90).Small 4 ∧
      Problem.ofSeed 1 2 90 = ⟨#[97, 17], #[69, 25], 90⟩ ∧
      Problem.ofSeed 1 2 90 = (Problem.ofSeed 1 4 90).firstItems 2) ∧
    ((Population.random 5 4).run (.ofSeed 7)).1.individuals.take 3 =
      ((Population.random 3 4).run (.ofSeed 7)).1.individuals ∧
    (∃ events events',
      Engine.onExecutor surroundings Backend.sequential options problem = .ok (e, events) ∧
      Engine.onExecutor surroundings executor options' problem = .ok (e', events')) ∧
    e.population.individuals <+: e'.population.individuals ∧
    (e.withGenerators generators).step.result =
      .ok ⟨1, 97, ⟨[true, false, false, false], some 97⟩⟩ ∧
    (e'.withGenerators generators).step.result =
      .ok ⟨1, 135, ⟨[true, false, false, true], some 135⟩⟩ ∧
    (97 : Fitness) ≤ 135 := by
  intro problem options options' surroundings executor generators e e'
  have hstart : Engine.onExecutor surroundings Backend.sequential options problem = .ok (e,
      [.engineInitialized .sequential 1 (Engine.firstPopulation surroundings options).size 4]) :=
    Engine.onExecutor_eq_ok_iff.2 ⟨by decide +kernel, by decide, rfl, rfl⟩
  have hstart' : Engine.onExecutor surroundings executor options' problem = .ok (e',
      [.engineInitialized .workerPool 2 (Engine.firstPopulation surroundings options').size 4]) :=
    Engine.onExecutor_eq_ok_iff.2 ⟨by decide +kernel, by decide, rfl, rfl⟩
  have hstep : (e.withGenerators generators).step.result =
      .ok ⟨1, 97, ⟨[true, false, false, false], some 97⟩⟩ := by decide +kernel
  have hstep' : (e'.withGenerators generators).step.result =
      .ok ⟨1, 135, ⟨[true, false, false, true], some 135⟩⟩ := by decide +kernel
  obtain ⟨hproblems, hpopulations, hengines⟩ := draws_nested
  obtain ⟨hsmall, hfirst⟩ := hproblems 1 90 2 4 (by decide)
  have hfour : Problem.ofSeed 1 4 90 = problem := by decide +kernel
  have htwo : Problem.ofSeed 1 2 90 = ⟨#[97, 17], #[69, 25], 90⟩ := by
    rw [hfirst, hfour]
    rfl
  obtain ⟨hfront, -, -⟩ := hpopulations (.ofSeed 7) 4 3 5 (by decide)
  obtain ⟨hmore, hbest⟩ := hengines surroundings surroundings .sequential executor options
    options' problem problem e e' _ _ 1 hstart hstart' rfl rfl rfl (by decide)
  have hle : (97 : Fitness) ≤ 135 := hbest rfl generators generators _ _ hstep hstep'
  exact ⟨⟨hfour, hsmall, htwo, hfirst⟩, hfront, ⟨_, _, hstart, hstart'⟩,
    hmore, hstep, hstep', hle⟩

end KnapsackEvolution
