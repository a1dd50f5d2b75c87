/-
# Generations on a backend

On a backend a dispatch succeeds as soon as the chunk function succeeds on every job.  So once the
population has been measured a generation goes through: there is an elite, every chunk of children
is bred and mutated, and the chunks fit together behind the elite.  Each slot behind the first one
then holds a mutated child, bred in the stream of its chunk from the old population
(`Engine.Brood`).
-/
import KnapsackEvolution.Proofs.Elitism
import KnapsackEvolution.Proofs.Offspring
import KnapsackEvolution.Proofs.Safety

namespace KnapsackEvolution

namespace Engine

/-! ## Broods -/

variable {ε : Type}

/-- The children of a chunk are bred from the population in the stream of the chunk. -/
def BredIn (e : Engine ε) (c : Chunk) (children : List Individual) : Prop :=
  children.length = c.size ∧
    ∃ g', Successive (e.population.Bred e.problem ⟨e.options.tournamentSize⟩)
      (e.generators ⟨.crossover, e.generation.toUInt64, c.start.toUInt64⟩) children g'

/-- What the next population has in the slots of a chunk: children bred from the population of the
engine in the stream of the chunk, each one mutated. -/
def Brood (e : Engine ε) (c : Chunk) (next : Population) : Prop :=
  ∃ children, e.BredIn c children ∧ ∀ slot ∈ c, ∃ child mutant,
    children[slot - c.start]? = some child ∧ next.get? slot = some mutant ∧
      Mutated e.options.mutationProbability child mutant

lemma BredIn.of_keeps {e e' : Engine ε} {c : Chunk} {children : List Individual}
    (h : e'.BredIn c children) (hkeeps : Keeps e e') : e.BredIn c children := by
  obtain ⟨hlength, g', hsuccessive⟩ := h
  rw [hkeeps.options, hkeeps.problem, hkeeps.generators, hkeeps.generation] at hsuccessive
  exact ⟨hlength, g', hsuccessive.imp fun _ _ _ hbred => hbred.of_genes_eq hkeeps.genes.symm⟩

lemma Brood.of_keeps {e e' : Engine ε} {c : Chunk} {next : Population}
    (h : e'.Brood c next) (hkeeps : Keeps e e') : e.Brood c next := by
  obtain ⟨children, hbred, hslots⟩ := h
  rw [hkeeps.options] at hslots
  exact ⟨children, hbred.of_keeps hkeeps, hslots⟩

lemma Brood.exists_child {e : Engine ε} {c : Chunk} {next : Population}
    (h : e.Brood c next) {slot : Nat} (hslot : slot ∈ c) :
    ∃ child mutant g g', e.population.Bred e.problem ⟨e.options.tournamentSize⟩ g child g' ∧
      next.get? slot = some mutant ∧ Mutated e.options.mutationProbability child mutant := by
  obtain ⟨children, ⟨-, g', hsuccessive⟩, hslots⟩ := h
  obtain ⟨child, mutant, hchild, hmutant, hmutated⟩ := hslots slot hslot
  obtain ⟨g₁, g₂, hbred⟩ := hsuccessive.exists_of_mem (List.mem_of_getElem? hchild)
  exact ⟨child, mutant, g₁, g₂, hbred, hmutant, hmutated⟩

/-! ## Phases -/

lemma chunksFrom_congr {e e' : Engine ε} (hoptions : e'.options = e.options)
    {p p' : Population} (hsize : p'.size = p.size) (start : Nat) :
    e'.chunksFrom start p' = e.chunksFrom start p := by
  rw [chunksFrom, chunksFrom, hoptions, hsize]

variable {e : Engine Backend}

section Measured

variable {chunks : List Chunk} {genes : Nat} (hmeasured : e.population.Measured e.problem)

include hmeasured

lemma selectElite_of_measured (size_pos : 0 < e.population.size) :
    ∃ elite f, e.selectElite.result = .ok (elite, f) := by
  obtain ⟨elite, f, hbest, hf⟩ := Population.best_of_measured hmeasured.exists_fitness size_pos
  refine ⟨elite, f, ?_⟩
  rw [selectElite_eq, elected, hbest]
  simp only [bind, Except.bind, Individual.fitness_eq_ok_iff.2 hf]
  rfl

/-- Breeding succeeds in a population where everyone has been measured. -/
theorem crossover_of_measured (hcounted : e.options.Counted)
    (hgenes : ∀ i ∈ e.population.individuals, i.size = genes) (genes_pos : 0 < genes)
    (size_pos : 0 < e.population.size) (hchunks : e.chunksFrom 1 e.population = .ok chunks) :
    ∃ children, e.crossover.result = .ok children ∧ children.map (·.1) = chunks ∧
      ∀ item ∈ children, e.BredIn item.1 item.2 := by
  have hjobs : ∀ job ∈ chunks.map fun c => (c, ()), ∃ children,
      breedChunk e.generators e.generation ⟨e.options.tournamentSize⟩
        e.population.individuals.toArray job.1 job.2 = .ok children ∧ e.BredIn job.1 children := by
    intro job hjob
    obtain ⟨children, g', hbreed, hlength, hsuccessive⟩ :=
      run_breed (t := ⟨e.options.tournamentSize⟩) hmeasured hgenes size_pos genes_pos
        hcounted.tournamentSize job.1.size
        (e.generators ⟨.crossover, e.generation.toUInt64, job.1.start.toUInt64⟩)
    exact ⟨children, congrArg Prod.fst hbreed, hlength, g', hsuccessive⟩
  obtain ⟨children, hchildren, hmap, hbred⟩ := dispatch_of_ok (e := e) hjobs
  refine ⟨children, ?_, by simpa [Function.comp_def] using hmap, ?_⟩
  · rw [crossover, hchunks]
    dsimp only
    rw [Turn.andThen_of_ok hchildren]
    rfl
  · intro item hitem
    obtain ⟨job, -, hjob, hitem⟩ := hbred item hitem
    rwa [hjob]

end Measured

/-- Mutating the children behind the elite succeeds, chunk by chunk. -/
theorem mutate_of_children {elite : Individual} {children : List (Chunk × List Individual)}
    {next : Population} (hnext : next = ⟨elite :: children.flatMap (·.2)⟩)
    (hchunks : e.chunksFrom 1 next = .ok (children.map (·.1)))
    (hlength : ∀ item ∈ children, item.1.size = item.2.length)
    (hsize : ∀ item ∈ children, ∀ i ∈ item.2, 0 < i.size)
    (hunmeasured : ∀ item ∈ children, ∀ i ∈ item.2, i.fitness? = none) :
    ∃ mutants : List (Chunk × List Individual),
      (e.mutate next).result = .ok ⟨elite :: mutants.flatMap (·.2)⟩ ∧
      mutants.map (·.1) = children.map (·.1) ∧ (∀ v ∈ mutants, v.1.size = v.2.length) ∧
      ∀ v ∈ mutants, ∃ item ∈ children, v.1 = item.1 ∧
        List.Forall₂ (Mutated e.options.mutationProbability) item.2 v.2 := by
  have next_pos : 1 ≤ next.size := by
    rw [hnext]
    exact Nat.succ_le_succ (Nat.zero_le _)
  have htiles := (partition_eq_ok hchunks).1 next_pos
  have htake : next.takeChunks (children.map (·.1)) = .ok (children, ⟨[elite]⟩) := by
    rw [Population.takeChunks_of_tiles htiles, hnext]
    simp only [List.drop_one, List.tail_cons, Population.deal_flatMap hlength]
    rfl
  have hjobs : e.mutateJobs next = .ok (children.map (·.1), children, ⟨[elite]⟩) :=
    mutateJobs_eq_ok_iff.2 ⟨hchunks, htake⟩
  have hmutate : ∀ job ∈ children, ∃ mutants,
      mutateChunk e.generators e.generation e.options.mutationProbability job.1 job.2 =
        .ok mutants ∧ List.Forall₂ (Mutated e.options.mutationProbability) job.2 mutants := by
    intro job hjob
    obtain ⟨mutants, g', hrun, hmutants⟩ :=
      run_mutateEach (hsize job hjob) (hunmeasured job hjob)
        (e.generators ⟨.mutate, e.generation.toUInt64, job.1.start.toUInt64⟩)
    exact ⟨mutants, congrArg Prod.fst hrun, hmutants⟩
  obtain ⟨mutants, hmutants, hmap, hall⟩ := dispatch_of_ok (e := e) hmutate
  have hmutantsLength : ∀ v ∈ mutants, v.1.size = v.2.length := by
    intro v hv
    obtain ⟨item, hitem, hv, hforall⟩ := hall v hv
    rw [hv, hlength item hitem, hforall.length_eq]
  have hrestore : (Population.mk [elite]).restoreChunks mutants =
      (.ok (), ⟨[elite] ++ mutants.flatMap (·.2)⟩) :=
    Population.restoreChunks_of_tiles (hmap ▸ htiles) hmutantsLength
  refine ⟨mutants, ?_, hmap, hmutantsLength, hall⟩
  rw [mutate_eq, hjobs]
  dsimp only [mutated]
  rw [Turn.andThen_of_ok hmutants]
  simp only [hrestore, Turn.done]
  rfl

/-! ## The generation -/

section Phases

variable {elite : Individual} {f : Fitness} {children : List (Chunk × List Individual)}
  {next mutants : Population}

/-- When all phases succeed and the new population has the right size, so does the generation. -/
lemma step_of_phases (hevaluate : e.evaluate.result = .ok ())
    (hselect : e.evaluate.engine.selectElite.result = .ok (elite, f))
    (hcrossover : e.evaluate.engine.crossover.result = .ok children)
    (hrestore : (Population.mk [elite]).restoreChunks children = (.ok (), next))
    (hmutate : (e.evaluate.engine.crossover.engine.mutate next).result = .ok mutants)
    (hsize : mutants.size = e.options.populationSize.toNat) :
    e.step.result = .ok ⟨e.generation + 1, f, elite⟩ ∧ e.step.engine.population = mutants := by
  have hkeeps := e.keeps_mutate next
  rw [step_eq, Turn.andThen_of_ok hevaluate, Turn.andThen_of_ok hselect, selectElite_engine]
  dsimp only
  rw [Turn.andThen_of_ok hcrossover]
  simp only [hrestore]
  rw [Turn.andThen_of_ok hmutate]
  simp only [succeed, hkeeps.options, hkeeps.generation, hsize, if_true, Turn.done, and_self]

end Phases

/-- An elite and chunks behind it fill the slots up to where the chunks stop. -/
lemma size_of_tiles (elite : Individual) {items : List (Chunk × List Individual)} {stop : Nat}
    (htiles : Tiles 1 (items.map (·.1)) stop)
    (hlength : ∀ item ∈ items, item.1.size = item.2.length) :
    (Population.mk (elite :: items.flatMap (·.2))).size = stop := by
  rw [Population.size, List.length_cons, Nat.add_comm]
  exact htiles.length_flatMap hlength

/-- Behind the elite each slot of a chunk holds the mutated child of its place in the chunk. -/
lemma exists_mutant {p : Binary64} (elite : Individual) {mutants : List (Chunk × List Individual)}
    {stop : Nat} (htiles : Tiles 1 (mutants.map (·.1)) stop)
    (hlength : ∀ v ∈ mutants, v.1.size = v.2.length) {v : Chunk × List Individual}
    (hv : v ∈ mutants) {children : List Individual}
    (hmutated : List.Forall₂ (Mutated p) children v.2) {slot : Nat} (hslot : slot ∈ v.1) :
    ∃ child mutant, children[slot - v.1.start]? = some child ∧
      (Population.mk (elite :: mutants.flatMap (·.2))).get? slot = some mutant ∧
      Mutated p child mutant := by
  have hstart : 1 ≤ slot := Nat.le_trans (htiles.stop_le v.1 (List.mem_map_of_mem hv)).1 hslot.1
  have hplace : slot - v.1.start < v.2.length := by
    have := hlength v hv
    have := Chunk.mem_iff.1 hslot
    unfold Chunk.size at *
    omega
  have hchild : slot - v.1.start < children.length := hmutated.length_eq ▸ hplace
  obtain ⟨mutant, hmutant, hchanged⟩ :=
    forall₂_getElem? hmutated (List.getElem?_eq_getElem hchild)
  refine ⟨children[slot - v.1.start], mutant, List.getElem?_eq_getElem hchild, ?_, hchanged⟩
  have hbehind := htiles.getElem?_flatMap hlength hv hslot
  rw [hmutant] at hbehind
  obtain ⟨place, rfl⟩ := Nat.exists_eq_add_of_le' hstart
  rw [Population.get?, List.getElem?_cons_succ]
  exact hbehind

lemma evaluate_of_step {r : Report} (h : e.step.result = .ok r) : e.evaluate.result = .ok () := by
  obtain ⟨children, next, mutants, hcompletes⟩ := completes_of_ok h
  exact hcompletes.evaluate

/-- Once the population of a well-shaped engine has been measured, all other phases succeed, and
behind the elite they leave the broods of the chunks. -/
theorem phases_of_measured {options : Options} (hvalid : options.validate = .ok ())
    (hshaped : e.WellShaped options) (hmeasured : e.population.Measured e.problem) :
    ∃ elite f children next mutants chunks, e.selectElite.result = .ok (elite, f) ∧
      e.crossover.result = .ok children ∧
      (Population.mk [elite]).restoreChunks children = (.ok (), next) ∧
      (e.crossover.engine.mutate next).result = .ok mutants ∧
      mutants.size = e.options.populationSize.toNat ∧
      e.chunksFrom 1 e.population = .ok chunks ∧ ∀ c ∈ chunks, e.Brood c mutants := by
  have hcounted := Options.counted hvalid
  obtain ⟨rfl, hsize, hgenes⟩ := hshaped
  have size_pos : 0 < e.population.size := hsize ▸ hcounted.populationSize
  obtain ⟨elite, f, hselect⟩ := selectElite_of_measured hmeasured size_pos
  obtain ⟨chunks, hchunks⟩ := partition_of_pos hcounted.chunkSize e.population.size 1
  have htiles := (partition_eq_ok hchunks).1 size_pos
  obtain ⟨children, hcrossover, rfl, hbred⟩ :=
    crossover_of_measured hmeasured hcounted hgenes hcounted.geneCount size_pos hchunks
  have hlength : ∀ item ∈ children, item.1.size = item.2.length :=
    fun item hitem => (hbred item hitem).1.symm
  have hrestore : (Population.mk [elite]).restoreChunks children =
      (.ok (), ⟨elite :: children.flatMap (·.2)⟩) :=
    Population.restoreChunks_of_tiles htiles hlength
  -- the children fill the slots behind the elite, so they are mutated in the same chunks
  have hfilled := size_of_tiles elite htiles hlength
  have hbehind := (changesExecutor_crossover e).keeps
  have hchunks' := (chunksFrom_congr hbehind.options hfilled 1).trans hchunks
  have hchild : ∀ item ∈ children, ∀ i ∈ item.2, 0 < i.size ∧ i.fitness? = none := by
    intro item hitem i hi
    obtain ⟨-, g', hsuccessive⟩ := hbred item hitem
    obtain ⟨g₁, g₂, hi⟩ := hsuccessive.exists_of_mem hi
    exact ⟨hi.size_eq hgenes ▸ hcounted.geneCount, hi.unmeasured⟩
  obtain ⟨mutants, hmutate, hmap, hmutants, hmutated⟩ := mutate_of_children rfl hchunks' hlength
    (fun item hitem i hi => (hchild item hitem i hi).1)
    (fun item hitem i hi => (hchild item hitem i hi).2)
  rw [← hmap] at htiles hchunks
  refine ⟨elite, f, children, _, _, _, hselect, hcrossover, hrestore, hmutate,
    (size_of_tiles elite htiles hmutants).trans hsize, hchunks, ?_⟩
  intro c hc
  obtain ⟨v, hv, rfl⟩ := List.mem_map.1 hc
  obtain ⟨item, hitem, hchunk, hforall⟩ := hmutated v hv
  rw [hbehind.options] at hforall
  exact ⟨item.2, hchunk ▸ hbred item hitem, fun slot hslot =>
    exists_mutant elite htiles hmutants hv hforall hslot⟩

/-- Once its population has been measured, a generation of a well-shaped engine on a backend
succeeds, and behind the elite are the broods of the chunks. -/
theorem step_of_evaluate {options : Options} (hvalid : options.validate = .ok ())
    (hshaped : e.WellShaped options) (hevaluate : e.evaluate.result = .ok ()) :
    ∃ r chunks, e.step.result = .ok r ∧ e.chunksFrom 1 e.population = .ok chunks ∧
      ∀ c ∈ chunks, e.Brood c e.step.engine.population := by
  have hkeeps := e.keeps_evaluate
  have hmeasured := measured_evaluate hevaluate
  rw [← hkeeps.problem] at hmeasured
  obtain ⟨elite, f, children, next, mutants, chunks, hselect, hcrossover, hrestore, hmutate, hsize,
    hchunks, hbroods⟩ := phases_of_measured hvalid (hshaped.of_keeps hkeeps) hmeasured
  rw [hkeeps.options] at hsize
  rw [chunksFrom_congr hkeeps.options hkeeps.size_eq] at hchunks
  obtain ⟨hstep, hpopulation⟩ :=
    step_of_phases hevaluate hselect hcrossover hrestore hmutate hsize
  exact ⟨_, chunks, hstep, hchunks, fun c hc => hpopulation ▸ (hbroods c hc).of_keeps hkeeps⟩

/-- A run without generations gives somebody once the population has been measured. -/
theorem run_zero_of_evaluate {options : Options} (hvalid : options.validate = .ok ())
    (hshaped : e.WellShaped options) (hevaluate : e.evaluate.result = .ok ()) :
    ∃ elite, (e.run 0).result = .ok elite := by
  have hafter := hshaped.of_keeps e.keeps_evaluate
  have size_pos : 0 < e.evaluate.engine.population.size := by
    rw [hafter.shaped.size_eq]
    exact (Options.counted hvalid).populationSize
  obtain ⟨elite, f, hbest, -⟩ :=
    Population.best_of_measured (measured_evaluate hevaluate).exists_fitness size_pos
  rw [run_zero, Turn.andThen_of_ok hevaluate]
  exact ⟨elite, hbest⟩

/-- An engine on a backend that completes a generation after any calls: the elite, the first of the
best of the old population, is in slot zero with its fitness.  Every other slot holds an unmeasured
individual that is bred from two winners of tournaments over the whole old population and a point
below the gene count, with at most one gene turned over: none if mutation has no chance, one if it
is certain.  The children of a chunk are drawn one after the other from the generator of the
chunk. -/
theorem offspring_explained (surroundings : Surroundings) (backend : Backend) (options : Options)
    (problem : Problem) {e : Engine Backend} {events : List Event}
    (hstart : onExecutor surroundings backend options problem = .ok (e, events))
    (calls : List (Factory × Call)) (generators : Factory) {r : Report}
    (hstep : ((e.afterCalls calls).withGenerators generators).step.result = .ok r) :
    let before := (e.afterCalls calls).withGenerators generators
    let next := before.step.engine.population
    before.population.Shaped options.populationSize.toNat problem.size ∧
      next.Shaped options.populationSize.toNat problem.size ∧
      (∃ slot, Population.FirstMax problem.score? before.population.genes slot r.bestFitness ∧
        before.population.genes[slot]? = some r.elite.genes) ∧
      r.elite.fitness? = some r.bestFitness ∧ next.get? 0 = some r.elite ∧
      (∀ slot, 1 ≤ slot → slot < options.populationSize.toNat → ∃ child mutant g g',
        before.population.Bred problem ⟨options.tournamentSize⟩ g child g' ∧
        next.get? slot = some mutant ∧ Mutated options.mutationProbability child mutant) ∧
      ∃ chunks, partition options.populationSize.toNat 1 options.chunkSize.toNat = .ok chunks ∧
        ∀ c ∈ chunks, before.Brood c next := by
  intro before next
  obtain ⟨hvalid, hsize, rfl, -⟩ := onExecutor_eq_ok_iff.1 hstart
  have hbefore : before.WellShaped options :=
    ((WellShaped.first surroundings backend options problem).afterCalls calls).withGenerators _
  have hproblem : before.problem = problem := problem_afterCalls _ calls
  have hnext := hbefore.step
  obtain ⟨hbest, hfitness, hzero, -⟩ := step_eq_ok hstep
  obtain ⟨-, chunks, -, hchunks, hbroods⟩ :=
    step_of_evaluate hvalid hbefore (evaluate_of_step hstep)
  have htiles := (partition_eq_ok hchunks).1
  rw [chunksFrom, hbefore.options_eq, hbefore.shaped.size_eq] at hchunks
  rw [hproblem] at hbest
  refine ⟨hsize ▸ hbefore.shaped, hsize ▸ hnext.shaped, hbest, hfitness, hzero, ?_, chunks, hchunks,
    hbroods⟩
  intro slot hone hslot
  rw [← hbefore.shaped.size_eq] at hslot
  obtain ⟨c, hc, hmem⟩ := (htiles (Nat.le_trans hone (Nat.le_of_lt hslot))).exists_mem hone hslot
  have hchild := (hbroods c hc).exists_child hmem
  rwa [hproblem, hbefore.options_eq] at hchild

/-- The second generation of four selections, in which every child is mutated; the last slot is a
chunk of its own. -/
theorem offspring_explained_second_generation :
    let options : Options := { Options.default with
      backend := .sequential, workers := 1, chunkSize := 2, populationSize := 4, geneCount := 2,
      mutationProbability := .one, tournamentSize := 2, seed? := some 1 }
    let problem : Problem := ⟨#[5, 7], #[1, 1], 1⟩
    let surroundings : Surroundings := ⟨fun _ => 0, .inOrder⟩
    let e := first surroundings Backend.sequential options problem
    let generators : Factory := fun key => ⟨Vector.replicate 8 0, 0,
      List.replicate 12 (if key.chunkStart = 1 then 0 else 0xC000000000000000)⟩
    let before := (e.afterCalls [(generators, .step)]).withGenerators generators
    let next := before.step.engine.population
    (∃ events, onExecutor surroundings Backend.sequential options problem = .ok (e, events)) ∧
      before.step.result = .ok ⟨2, 7, ⟨[false, true], some 7⟩⟩ ∧
      next.get? 0 = some ⟨[false, true], some 7⟩ ∧
      (∃ child mutant g g', before.population.Bred problem ⟨2⟩ g child g' ∧
        next.get? 3 = some mutant ∧ child.hammingDistance mutant = 1) ∧
      before.Brood ⟨3, 4, by decide⟩ next := by
  intro options problem surroundings e generators before next
  have hstart : onExecutor surroundings Backend.sequential options problem = .ok (e,
      [.engineInitialized .sequential 1 (firstPopulation surroundings options).size 2]) :=
    onExecutor_eq_ok_iff.2 ⟨by decide +kernel, by decide, rfl, rfl⟩
  have hstep : before.step.result = .ok ⟨2, 7, ⟨[false, true], some 7⟩⟩ := by decide +kernel
  obtain ⟨-, -, -, -, hzero, hslots, chunks, hchunks, hbroods⟩ :=
    offspring_explained surroundings .sequential options problem hstart [(generators, .step)]
      generators hstep
  obtain ⟨child, mutant, g, g', hbred, hmutant, hmutated⟩ := hslots 3 (by decide) (by decide)
  obtain rfl := Except.ok.inj hchunks
  exact ⟨⟨_, hstart⟩, hstep, hzero,
    ⟨child, mutant, g, g', hbred, hmutant, hmutated.distance_of_one (by decide +kernel)⟩,
    hbroods _ (by decide +kernel)⟩

end Engine

end KnapsackEvolution
