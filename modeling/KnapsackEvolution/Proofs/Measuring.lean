/-
# Three ways to measure

A population can be measured in one go.  It can be shared with an executor that scores its chunks,
and the scores written back.  And its individuals can be moved out in chunks, measured there, and
appended again.  On every backend and with every chunk size all three leave the same population,
because moving out, working on each individual and putting back is working on each individual in
its slot (`Population.processFrom_eq_ok`), and a measured population is known from its genes.
-/
import KnapsackEvolution.Proofs.Composition

namespace KnapsackEvolution

/-- Works on each individual of a chunk by itself. -/
def eachOf (f : Individual → Except Failure Individual) :
    ChunkFunction (List Individual) (List Individual) := fun _ individuals => individuals.mapM f

/-- Measures each individual of a chunk. -/
def measureChunk (problem : Problem) : ChunkFunction (List Individual) (List Individual) :=
  eachOf fun i => (i.measure problem).mapError .fault

/-- Moves everyone from slot `start` on out in chunks, hands them to an executor, and appends those
who come back. -/
def Population.processFrom {ε : Type} [Executor ε] (p : Population) (x : ε) (start size : Nat)
    (process : ChunkFunction (List Individual) (List Individual)) : Except Error Population := do
  let chunks ← partition p.size start size
  let (jobs, rest) ← p.takeChunks chunks
  let values ← Outcome.collect (Executor.execute x jobs process).1
  match rest.restoreChunks values with
  | (.ok (), q) => return q
  | (.error e, _) => throw e

lemma Individual.measure_eq_ok_iff {problem : Problem} {i j : Individual} :
    i.measure problem = .ok j ↔ ∃ f, problem.score i.genes = .ok f ∧ j = i.record f := by
  show (do let f ← problem.score i.genes; return i.record f) = _ ↔ _
  cases problem.score i.genes with
  | error fault => simp [bind, Except.bind]
  | ok f => simp [bind, Except.bind, pure, Except.pure, eq_comm]

namespace Population

/-! ## Dealing out and putting back -/

/-- What comes of working on each individual of the chunks is what comes of working on each
individual of the row, dealt out to the chunks. -/
lemma map_ofRun_deal {f : Individual → Except Failure Individual} {row row' : List Individual}
    (h : List.Forall₂ (fun i j => f i = .ok j) row row') (chunks : List Chunk) :
    (deal chunks row).map (Outcome.ofRun (eachOf f)) = (deal chunks row').map Outcome.ofValue := by
  induction chunks generalizing row row' with
  | nil => rfl
  | cons c rest ih =>
    have hchunk : eachOf f c (row.take c.size) = .ok (row'.take c.size) :=
      mapM_eq_ok_iff.2 (List.forall₂_take c.size h)
    rw [deal, List.map_cons, Outcome.ofRun_of_ok hchunk, ih (List.forall₂_drop c.size h)]
    rfl

/-- On a backend, work on everyone from slot `start` on that succeeds leaves what comes of it in
their slots, and everyone before them alone. -/
theorem processFrom_eq_ok (b : Backend) {p : Population}
    {f : Individual → Except Failure Individual} {start size : Nat} {row : List Individual}
    (size_pos : 0 < size)
    (h : List.Forall₂ (fun i j => f i = .ok j) (p.individuals.drop start) row) :
    p.processFrom b start size (eachOf f) = .ok ⟨p.individuals.take start ++ row⟩ := by
  obtain ⟨chunks, hchunks⟩ := partition_of_pos size_pos p.size start
  obtain ⟨htiles, hnone⟩ := partition_eq_ok hchunks
  -- moving out and putting back, once it is known what comes of the chunks
  have hprocess : ∀ {jobs values rest q},
      p.takeChunks chunks = .ok (jobs, rest) →
      jobs.map (Outcome.ofRun (eachOf f)) = values.map Outcome.ofValue →
      rest.restoreChunks values = (.ok (), q) → p.processFrom b start size (eachOf f) = .ok q := by
    intro jobs values rest q htake hvalues hrestore
    have hcollect : Outcome.collect (Executor.execute b jobs (eachOf f)).1 = .ok values :=
      Outcome.collect_eq_ok_iff.2 ((b.execute_eq_map jobs _).trans hvalues)
    simp only [processFrom, hchunks, htake, hcollect, hrestore, bind, Except.bind]
    rfl
  rcases Nat.le_total start p.size with hle | hge
  · have hlength : start + row.length = p.size := by
      rw [← h.length_eq, List.length_drop]
      exact Nat.add_sub_cancel' hle
    have hrest : (Population.mk (p.individuals.take start)).size = start := by
      simp only [Population.size, List.length_take]
      exact Nat.min_eq_left hle
    refine hprocess (takeChunks_of_tiles (htiles hle)) (map_ofRun_deal h chunks) ?_
    rw [restoreChunks_of_tiles (by rw [map_fst_deal, hrest]; exact htiles hle)
      (length_of_mem_deal (htiles hle) hlength), flatMap_deal (htiles hle) hlength]
  · -- nobody is moved
    rw [hnone hge] at hprocess
    have hdrop : p.individuals.drop start = [] := List.drop_eq_nil_of_le hge
    rw [hdrop, List.forall₂_nil_left_iff] at h
    rw [h, List.take_of_length_le hge, List.append_nil]
    have htake : p.takeChunks [] = .ok ([], p) := rfl
    have hrestore : p.restoreChunks [] = (.ok (), p) := rfl
    exact hprocess htake rfl hrestore

/-- In `q` everyone from slot `start` on has been replaced by what `f` makes of them. -/
structure WorkedFrom (start : Nat) (f : Individual → Except Failure Individual)
    (p q : Population) : Prop where
  size_eq : q.size = p.size
  before : ∀ slot < start, q.get? slot = p.get? slot
  behind : ∀ slot i, start ≤ slot → p.get? slot = some i →
    ∃ j, q.get? slot = some j ∧ f i = .ok j

lemma workedFrom_of_forall₂ {p : Population} {f : Individual → Except Failure Individual}
    {start : Nat} {row : List Individual}
    (h : List.Forall₂ (fun i j => f i = .ok j) (p.individuals.drop start) row) :
    WorkedFrom start f p ⟨p.individuals.take start ++ row⟩ := by
  have hlength : p.individuals.length - start = row.length := by
    rw [← h.length_eq, List.length_drop]
  refine ⟨?_, ?_, ?_⟩
  · simp only [Population.size, List.length_append, List.length_take]
    omega
  · intro slot hslot
    show (p.individuals.take start ++ row)[slot]? = p.individuals[slot]?
    rcases Nat.lt_or_ge slot p.individuals.length with hlt | hge
    · rw [List.getElem?_append_left (by rw [List.length_take]; omega),
        List.getElem?_take_of_lt hslot]
    · rw [List.getElem?_eq_none hge, List.getElem?_eq_none]
      simp only [List.length_append, List.length_take]
      omega
  · intro slot i hslot hi
    have hlt : slot < p.individuals.length := (List.getElem?_eq_some_iff.1 hi).1
    have hfront : (p.individuals.take start).length = start := by
      rw [List.length_take]
      omega
    have hplace : (p.individuals.drop start)[slot - start]? = some i := by
      rw [List.getElem?_drop, Nat.add_sub_cancel' hslot]
      exact hi
    obtain ⟨j, hj, hf⟩ := forall₂_getElem? h hplace
    refine ⟨j, ?_, hf⟩
    show (p.individuals.take start ++ row)[slot]? = some j
    rw [List.getElem?_append_right (by omega), hfront, hj]

/-- On a backend, work that succeeds on everyone from slot `start` on is done slot by slot. -/
theorem workedFrom_processFrom (b : Backend) {p : Population}
    {f : Individual → Except Failure Individual} {start size : Nat} (size_pos : 0 < size)
    (h : ∀ slot i, start ≤ slot → p.get? slot = some i → ∃ j, f i = .ok j) :
    ∃ q, p.processFrom b start size (eachOf f) = .ok q ∧ WorkedFrom start f p q := by
  have hdrop : ∀ i ∈ p.individuals.drop start, ∃ j, f i = .ok j := by
    intro i hi
    obtain ⟨place, hplace⟩ := List.mem_iff_getElem?.1 hi
    rw [List.getElem?_drop] at hplace
    exact h _ i (Nat.le_add_right _ _) hplace
  obtain ⟨row, hrow⟩ := exists_forall₂ hdrop
  exact ⟨_, processFrom_eq_ok b size_pos hrow, workedFrom_of_forall₂ hrow⟩

/-! ## Measuring in one go -/

variable {problem : Problem} {p q : Population}

lemma measureAll_eq_ok_iff_forall₂ : p.measureAll problem = .ok q ↔
    List.Forall₂ (fun i j => i.measure problem = .ok j) p.individuals q.individuals := by
  rw [← mapM_eq_ok_iff]
  unfold measureAll
  cases p.individuals.mapM fun i => i.measure problem with
  | error fault =>
    constructor
    · intro h
      cases h
    · intro h
      cases h
  | ok row =>
    show Except.ok (Population.mk row) = _ ↔ _
    simp only [Except.ok.injEq]
    constructor
    · rintro rfl
      rfl
    · rintro rfl
      rfl

/-- Measuring in one go gives the population with the same genes in which everyone has been
measured. -/
theorem measureAll_eq_ok_iff :
    p.measureAll problem = .ok q ↔ q.Measured problem ∧ q.genes = p.genes := by
  rw [measureAll_eq_ok_iff_forall₂]
  constructor
  · intro h
    have hboth : ∀ {is js : List Individual},
        List.Forall₂ (fun i j => i.measure problem = .ok j) is js →
        (Population.mk js).Measured problem ∧ js.map (·.genes) = is.map (·.genes) := by
      intro is js h
      induction h with
      | nil => exact ⟨by intro i hi; simp at hi, rfl⟩
      | @cons i j is js hij _ ih =>
        obtain ⟨f, hf, rfl⟩ := Individual.measure_eq_ok_iff.1 hij
        refine ⟨?_, congrArg (i.genes :: ·) ih.2⟩
        rintro j (_ | ⟨_, hj⟩)
        · exact ⟨f, rfl, hf⟩
        · exact ih.1 j hj
    exact hboth h
  · rintro ⟨hmeasured, hgenes⟩
    rw [hmeasured.individuals_eq, hgenes, genes, List.map_map, List.forall₂_map_right_iff,
      List.forall₂_same]
    intro i hi
    obtain ⟨j, hj, hji⟩ := List.mem_map.1 (hgenes ▸ mem_genes hi)
    obtain ⟨f, -, hf⟩ := hmeasured j hj
    rw [hji] at hf
    refine Individual.measure_eq_ok_iff.2 ⟨f, hf, ?_⟩
    show Individual.mk _ _ = _
    rw [Problem.score?_eq_some_iff.2 hf]
    rfl

end Population

/-! ## The three ways -/

namespace Engine

variable {e : Engine Backend} {options : Options} {r : Report}

lemma measureAll_of_evaluate (h : e.evaluate.result = .ok ()) :
    e.population.measureAll e.problem = .ok e.evaluate.engine.population :=
  Population.measureAll_eq_ok_iff.2 ⟨measured_evaluate h, e.keeps_evaluate.genes⟩

/-- A run without generations gives the elite that a generation would report. -/
lemma run_zero_of_step (hvalid : options.validate = .ok ()) (hshaped : e.WellShaped options)
    (h : e.step.result = .ok r) : (e.run 0).result = .ok r.elite := by
  obtain ⟨⟨slot, hmax, hslot⟩, hfitness, -, -⟩ := step_eq_ok h
  exact (run_zero_eq_ok_iff hvalid hshaped).2 ⟨slot, r.bestFitness, hmax, hslot, hfitness⟩

/-- Both engines complete a generation with the same elite, and that is also what runs without
generations give. -/
def SameElite (e e' : Engine Backend) : Prop :=
  ∃ r r', e.step.result = .ok r ∧ e'.step.result = .ok r' ∧ r'.elite = r.elite ∧
    r'.bestFitness = r.bestFitness ∧ (e.run 0).result = .ok r.elite ∧
    (e'.run 0).result = .ok r.elite

/-- The chunk size does not show in the elite of a first population that can be measured. -/
theorem sameElite_of_chunkSize {surroundings : Surroundings} {b b' : Backend} {chunkSize : UInt64}
    {problem : Problem} {e e' : Engine Backend} {events events' : List Event}
    (hstart : onExecutor surroundings b options problem = .ok (e, events))
    (hstart' : onExecutor surroundings b' { options with chunkSize := chunkSize } problem =
      .ok (e', events'))
    (hscores : ∀ i ∈ e.population.individuals, ∃ f, problem.score i.genes = .ok f) :
    SameElite e e' := by
  obtain ⟨hvalid, -, rfl, -⟩ := onExecutor_eq_ok_iff.1 hstart
  obtain ⟨hvalid', -, rfl, -⟩ := onExecutor_eq_ok_iff.1 hstart'
  have hshaped := WellShaped.first surroundings b options problem
  have hshaped' :=
    WellShaped.first surroundings b' { options with chunkSize := chunkSize } problem
  -- the first population is drawn from one stream and does not hang on the chunk size
  obtain ⟨r, -, hstep, -⟩ := step_of_evaluate hvalid hshaped
    (evaluate_of_scores hscores (Options.counted hvalid).chunkSize)
  obtain ⟨r', -, hstep', -⟩ := step_of_evaluate hvalid' hshaped'
    (evaluate_of_scores hscores (Options.counted hvalid').chunkSize)
  have hrun := run_zero_of_step hvalid hshaped hstep
  have hrun' := run_zero_of_step hvalid' hshaped' hstep'
  have hsame := (run_zero_eq_ok_iff hvalid' hshaped').2 ((run_zero_eq_ok_iff hvalid hshaped).1 hrun)
  have helite : r'.elite = r.elite := Except.ok.inj (hrun'.symm.trans hsame)
  obtain ⟨-, hfitness, -, -⟩ := step_eq_ok hstep
  obtain ⟨-, hfitness', -, -⟩ := step_eq_ok hstep'
  rw [helite, hfitness] at hfitness'
  exact ⟨r, r', hstep, hstep', helite, (Option.some.inj hfitness').symm, hrun, hsame⟩

end Engine

/-- When everyone in a population can be scored, moving all out in chunks, measuring each one and
appending them again leaves what measuring in one go leaves, whatever the backend and the chunk
size; so does the measuring of an engine.  Any work on single individuals from some slot on leaves
everyone before that slot alone and puts into each later slot what comes of whoever was there.  So
neither the elite of the first generation nor what a run without generations gives hangs on the
chunk size. -/
theorem measuring_agrees (problem : Problem) (p : Population) :
    ((∀ i ∈ p.individuals, ∃ f, problem.score i.genes = .ok f) →
      ∃ q, p.measureAll problem = .ok q ∧
        (∀ (b : Backend) (size : Nat), 0 < size →
          p.processFrom b 0 size (measureChunk problem) = .ok q) ∧
        ∀ e : Engine Backend, e.population = p → e.problem = problem →
          0 < e.options.chunkSize.toNat →
          e.evaluate.result = .ok () ∧ e.evaluate.engine.population = q) ∧
    (∀ (b : Backend) (start size : Nat) (f : Individual → Except Failure Individual), 0 < size →
      (∀ slot i, start ≤ slot → p.get? slot = some i → ∃ j, f i = .ok j) →
      ∃ q, p.processFrom b start size (eachOf f) = .ok q ∧ Population.WorkedFrom start f p q) ∧
    ∀ (surroundings : Surroundings) (b b' : Backend) (options : Options) (chunkSize : UInt64)
      (e e' : Engine Backend) (events events' : List Event),
      Engine.onExecutor surroundings b options problem = .ok (e, events) →
      Engine.onExecutor surroundings b' { options with chunkSize := chunkSize } problem =
        .ok (e', events') →
      (∀ i ∈ e.population.individuals, ∃ f, problem.score i.genes = .ok f) →
      e.SameElite e' := by
  refine ⟨?_, ?_, ?_⟩
  · intro hscores
    have hmeasure : ∀ i ∈ p.individuals, ∃ j, i.measure problem = .ok j := by
      intro i hi
      obtain ⟨f, hf⟩ := hscores i hi
      exact ⟨_, Individual.measure_eq_ok_iff.2 ⟨f, hf, rfl⟩⟩
    obtain ⟨row, hrow⟩ := exists_forall₂ hmeasure
    have hall : p.measureAll problem = .ok ⟨row⟩ :=
      Population.measureAll_eq_ok_iff_forall₂.2 hrow
    refine ⟨⟨row⟩, hall, ?_, ?_⟩
    · intro b size size_pos
      refine Population.processFrom_eq_ok b size_pos (hrow.imp ?_)
      intro i j h
      exact mapError_eq_ok_iff.2 h
    · rintro e rfl rfl chunkSize_pos
      have hevaluate := Engine.evaluate_of_scores hscores chunkSize_pos
      have hengine := (Engine.measureAll_of_evaluate hevaluate).symm.trans hall
      exact ⟨hevaluate, Except.ok.inj hengine⟩
  · intro b start size f size_pos h
    exact Population.workedFrom_processFrom b size_pos h
  · intro surroundings b b' options chunkSize e e' events events' hstart hstart' hscores
    exact Engine.sameElite_of_chunkSize hstart hstart' hscores

/-- Five individuals, two of them with a fitness that is out of date, on a pool whose replies come
backwards: in chunks of two they are measured as in one go, in chunks of three all but the first
get a nine, and an engine in chunks of one agrees with an engine in chunks of two. -/
theorem measuring_agrees_five :
    let problem : Problem := ⟨#[5, 7], #[1, 2], 2⟩
    let p : Population := ⟨[⟨[true, false], none⟩, ⟨[false, true], some 40⟩, ⟨[true, true], none⟩,
      ⟨[false, false], some 3⟩, ⟨[true, false], none⟩]⟩
    let measured : Population := ⟨[⟨[true, false], some 5⟩, ⟨[false, true], some 7⟩,
      ⟨[true, true], some (-1)⟩, ⟨[false, false], some 0⟩, ⟨[true, false], some 5⟩]⟩
    let pool : Backend := .workerPool ⟨2, by decide, ⟨fun _ n => (List.range n).reverse,
      fun _ n => List.reverse_perm (List.range n)⟩, 0⟩
    let options : Options := { Options.default with
      backend := .workerPool, workers := 2, chunkSize := 2, populationSize := 5, geneCount := 2,
      seed? := some 1 }
    let surroundings : Surroundings := ⟨fun _ => 0, .inOrder⟩
    p.processFrom pool 0 2 (measureChunk problem) = .ok measured ∧
    (∃ q, p.processFrom pool 1 3 (eachOf fun i => .ok (i.record 9)) = .ok q ∧
      q.get? 0 = some ⟨[true, false], none⟩ ∧ q.get? 3 = some ⟨[false, false], some 9⟩) ∧
    (Engine.first surroundings pool options problem).SameElite
      (Engine.first surroundings Backend.sequential { options with chunkSize := 1 } problem) := by
  intro problem p measured pool options surroundings
  obtain ⟨hmeasure, hwork, helite⟩ := measuring_agrees problem p
  refine ⟨?_, ?_, ?_⟩
  · have hscores : ∀ i ∈ p.individuals, ∃ f, problem.score i.genes = .ok f := by
      simp only [p, List.forall_mem_cons, List.not_mem_nil, false_implies, implies_true, and_true]
      exact ⟨⟨5, rfl⟩, ⟨7, rfl⟩, ⟨-1, by decide⟩, ⟨0, rfl⟩, ⟨5, rfl⟩⟩
    obtain ⟨q, hq, hprocess, -⟩ := hmeasure hscores
    have hfive : p.measureAll problem = .ok measured := by decide
    obtain rfl := Except.ok.inj (hq.symm.trans hfive)
    exact hprocess pool 2 (by decide)
  · obtain ⟨q, hq, hworked⟩ := hwork pool 1 3 (fun i => .ok (i.record 9)) (by decide)
      fun _ i _ _ => ⟨i.record 9, rfl⟩
    obtain ⟨j, hj, hnine⟩ := hworked.behind 3 ⟨[false, false], some 3⟩ (by decide) rfl
    obtain rfl := Except.ok.inj hnine
    exact ⟨q, hq, hworked.before 0 (by decide), hj⟩
  · refine helite surroundings pool .sequential options 1 _ _ _ _
      (Engine.onExecutor_eq_ok_iff.2 ⟨by decide +kernel, by decide, rfl, rfl⟩)
      (Engine.onExecutor_eq_ok_iff.2 ⟨by decide +kernel, by decide, rfl, rfl⟩) ?_
    have hgenes : ∀ genes ∈ (Engine.firstPopulation surroundings options).genes,
        (problem.score? genes).isSome := by
      decide +kernel
    intro i hi
    obtain ⟨f, hf⟩ := Option.isSome_iff_exists.1 (hgenes _ (Population.mem_genes hi))
    exact ⟨f, Problem.score?_eq_some_iff.1 hf⟩

end KnapsackEvolution
