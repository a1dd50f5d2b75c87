/-
# Measuring chunk by chunk

On a backend the chunks of the whole population are scored one by one and the scores written back.
If that succeeds, every individual has a score and carries it afterwards, as if the population had
been measured in one go; the chunks do not show.
-/
import KnapsackEvolution.Proofs.Backends
import KnapsackEvolution.Proofs.Exits
import Mathlib.Data.List.Forall2

namespace KnapsackEvolution

lemma mapM_eq_ok_iff {ε α β : Type} {f : α → Except ε β} {as : List α} {bs : List β} :
    as.mapM f = .ok bs ↔ List.Forall₂ (fun a b => f a = .ok b) as bs := by
  induction as generalizing bs with
  | nil =>
    rw [List.forall₂_nil_left_iff]
    constructor
    · intro h
      exact (Except.ok.inj h).symm
    · rintro rfl
      rfl
  | cons a as ih =>
    rw [List.mapM_cons, List.forall₂_cons_left_iff]
    constructor
    · intro h
      cases ha : f a with
      | error e => rw [ha] at h; cases h
      | ok b =>
        rw [ha] at h
        cases has : as.mapM f with
        | error e => rw [has] at h; cases h
        | ok bs' =>
          rw [has] at h
          obtain rfl : b :: bs' = bs := Except.ok.inj h
          exact ⟨b, bs', rfl, ih.1 has, rfl⟩
    · rintro ⟨b, bs', hb, hbs, rfl⟩
      rw [hb, ih.2 hbs]
      rfl

/-- A computation that fails on a list fails with the first element on which it does. -/
lemma mapM_eq_error {ε α β : Type} {f : α → Except ε β} {as : List α} {e : ε}
    (h : as.mapM f = .error e) :
    ∃ before a after, as = before ++ a :: after ∧ (∀ b ∈ before, ∃ v, f b = .ok v) ∧
      f a = .error e := by
  induction as with
  | nil => cases h
  | cons a as ih =>
    rw [List.mapM_cons] at h
    cases ha : f a with
    | error e' =>
      rw [ha] at h
      obtain rfl : e' = e := Except.error.inj h
      exact ⟨[], a, as, rfl, by simp, ha⟩
    | ok v =>
      rw [ha] at h
      have has : as.mapM f = .error e := by
        cases has : as.mapM f with
        | error e' => rw [has] at h; exact congrArg _ (Except.error.inj h)
        | ok vs => rw [has] at h; cases h
      obtain ⟨before, b, after, rfl, hbefore, hb⟩ := ih has
      refine ⟨a :: before, b, after, rfl, ?_, hb⟩
      rintro c (_ | ⟨_, hc⟩)
      · exact ⟨v, ha⟩
      · exact hbefore c hc

lemma exists_forall₂ {α β : Type} {R : α → β → Prop} {as : List α} (h : ∀ a ∈ as, ∃ b, R a b) :
    ∃ bs, List.Forall₂ R as bs := by
  induction as with
  | nil => exact ⟨[], .nil⟩
  | cons a as ih =>
    obtain ⟨b, hb⟩ := h a (by simp)
    obtain ⟨bs, hbs⟩ := ih fun a ha => h a (by simp [ha])
    exact ⟨b :: bs, .cons hb hbs⟩

lemma forall₂_getElem? {α β : Type} {R : α → β → Prop} {as : List α} {bs : List β} {place : Nat}
    {a : α} (h : List.Forall₂ R as bs) (ha : as[place]? = some a) :
    ∃ b, bs[place]? = some b ∧ R a b := by
  obtain ⟨hplace, rfl⟩ := List.getElem?_eq_some_iff.1 ha
  have hbs : place < bs.length := h.length_eq ▸ hplace
  exact ⟨bs[place], List.getElem?_eq_getElem hbs, h.get hplace hbs⟩

lemma mapError_eq_ok_iff {ε ε' α : Type} {f : ε → ε'} {x : Except ε α} {a : α} :
    x.mapError f = .ok a ↔ x = .ok a := by
  cases x with
  | error e =>
    constructor
    · intro h
      cases h
    · intro h
      cases h
  | ok b => simp [Except.mapError]

lemma mapError_eq_error_iff {ε ε' α : Type} {f : ε → ε'} {x : Except ε α} {e' : ε'} :
    x.mapError f = .error e' ↔ ∃ e, x = .error e ∧ f e = e' := by
  cases x with
  | error e => simp [Except.mapError]
  | ok a => simp [Except.mapError]

/-- The score of a selection, if it has one. -/
def Problem.score? (p : Problem) (genes : List Bool) : Option Fitness := (p.score genes).toOption

lemma Problem.score?_eq_some_iff {p : Problem} {genes : List Bool} {f : Fitness} :
    p.score? genes = some f ↔ p.score genes = .ok f := by
  unfold score?
  cases p.score genes with
  | error e => simp [Except.toOption]
  | ok g => simp [Except.toOption]

/-- The fitness values are the scores of the individuals in order. -/
def Scores (problem : Problem) (individuals : List Individual) (values : List Fitness) : Prop :=
  List.Forall₂ (fun i f => problem.score i.genes = .ok f) individuals values

/-- Everyone has been measured on the problem. -/
def Population.Measured (problem : Problem) (p : Population) : Prop :=
  ∀ i ∈ p.individuals, ∃ f, i.fitness? = some f ∧ problem.score i.genes = .ok f

lemma Population.Measured.exists_fitness {problem : Problem} {p : Population}
    (h : p.Measured problem) : ∀ i ∈ p.individuals, ∃ f, i.fitness? = some f := by
  intro i hi
  obtain ⟨f, hf, -⟩ := h i hi
  exact ⟨f, hf⟩

lemma Population.Measured.individuals_eq {problem : Problem} {p : Population}
    (h : p.Measured problem) :
    p.individuals = p.genes.map fun genes => ⟨genes, problem.score? genes⟩ := by
  rw [genes, List.map_map]
  refine (List.map_id' _).symm.trans (List.map_congr_left ?_)
  intro i hi
  obtain ⟨f, hf, hscore⟩ := h i hi
  rw [Function.comp, Problem.score?_eq_some_iff.2 hscore, ← hf]

lemma Population.Measured.eq_of_genes_eq {problem : Problem} {p q : Population}
    (hp : p.Measured problem) (hq : q.Measured problem) (hgenes : p.genes = q.genes) : p = q := by
  have h := hp.individuals_eq
  rw [hgenes, ← hq.individuals_eq] at h
  exact congrArg Population.mk h

/-! ## Scores of chunks -/

lemma scoreChunk_eq_ok_iff {problem : Problem} {p : Population} {c : Chunk} {u : Unit}
    {values : List Fitness} :
    scoreChunk problem p c u = .ok values ↔ Scores problem (c.slice p.individuals) values := by
  refine mapM_eq_ok_iff.trans ?_
  constructor
  · exact List.Forall₂.imp fun i f h => mapError_eq_ok_iff.1 h
  · exact List.Forall₂.imp fun i f h => mapError_eq_ok_iff.2 h

lemma exists_scoreChunk {problem : Problem} {p : Population}
    (h : ∀ i ∈ p.individuals, ∃ f, problem.score i.genes = .ok f) (c : Chunk) (u : Unit) :
    ∃ values, scoreChunk problem p c u = .ok values := by
  have hslice : ∀ i ∈ c.slice p.individuals, ∃ f, problem.score i.genes = .ok f :=
    fun i hi => h i (List.mem_of_mem_drop (List.mem_of_mem_take hi))
  obtain ⟨values, hvalues⟩ := exists_forall₂ hslice
  exact ⟨values, scoreChunk_eq_ok_iff.2 hvalues⟩

/-- If the chunks of a tiling could all be scored, the values of the chunks put together are the
scores of the individuals that are tiled. -/
lemma scores_of_tiles {problem : Problem} {p : Population} {start stop : Nat}
    {chunks : List Chunk} (h : Tiles start chunks stop) (hstop : stop = p.size)
    {items : List (Chunk × List Fitness)}
    (hitems : (chunks.map fun c => (c, ())).map (Outcome.ofRun (scoreChunk problem p)) =
      items.map Outcome.ofValue) :
    items.map (·.1) = chunks ∧ (∀ item ∈ items, item.1.size = item.2.length) ∧
      Scores problem (p.individuals.drop start) (items.flatMap (·.2)) := by
  induction h generalizing items with
  | nil slot =>
    obtain rfl : items = [] := List.map_eq_nil_iff.1 hitems.symm
    refine ⟨rfl, by simp, ?_⟩
    rw [List.drop_eq_nil_of_le (Nat.le_of_eq hstop.symm)]
    exact .nil
  | cons c hrest ih =>
    -- an outcome with a value names its own chunk, so the first item is about `c`
    obtain ⟨⟨d, values⟩, rest, rfl, hitem, hrestItems⟩ := List.map_eq_cons_iff.1 hitems.symm
    obtain ⟨hchunks, hsizes, hscores⟩ := ih hstop hrestItems.symm
    obtain rfl : d = c := congrArg Outcome.chunk hitem
    have hrun : scoreChunk problem p d () = .ok values :=
      Outcome.result_ofRun_eq_ok_iff.1 (congrArg Outcome.result hitem).symm
    have hvalues : Scores problem (d.slice p.individuals) values := scoreChunk_eq_ok_iff.1 hrun
    have hd : d.stop ≤ p.individuals.length := Nat.le_trans hrest.le (Nat.le_of_eq hstop)
    have hsize : d.size = values.length := by
      rw [← hvalues.length_eq, d.length_slice hd]
    refine ⟨congrArg (d :: ·) hchunks, ?_, ?_⟩
    · rintro item (_ | ⟨_, hitem⟩)
      · exact hsize
      · exact hsizes item hitem
    · rw [← d.slice_append_drop]
      exact List.rel_append hvalues hscores

lemma measured_zipWith_record {problem : Problem} {individuals : List Individual}
    {values : List Fitness} (h : Scores problem individuals values) :
    Population.Measured problem ⟨List.zipWith Individual.record individuals values⟩ := by
  induction h with
  | nil => intro i hi; simp at hi
  | @cons i f is fs hscore _ ih =>
    intro j hj
    rcases List.mem_cons.1 hj with rfl | hj
    · exact ⟨f, rfl, hscore⟩
    · exact ih j hj

namespace Engine

lemma dispatch_result (e : Engine Backend) {P T : Type} (jobs : List (Chunk × P))
    (process : ChunkFunction P T) :
    (e.dispatch jobs process).result = Outcome.collect (jobs.map (Outcome.ofRun process)) := by
  rw [← e.executor.execute_eq_map]
  rfl

lemma dispatch_of_ok {e : Engine Backend} {P T : Type} {jobs : List (Chunk × P)}
    {process : ChunkFunction P T} {Q : Chunk × P → T → Prop}
    (h : ∀ job ∈ jobs, ∃ value, process job.1 job.2 = .ok value ∧ Q job value) :
    ∃ values, (e.dispatch jobs process).result = .ok values ∧
      values.map (·.1) = jobs.map (·.1) ∧
      ∀ v ∈ values, ∃ job ∈ jobs, v.1 = job.1 ∧ Q job v.2 := by
  simpa only [dispatch_result] using Outcome.exists_collect h

section Recording

variable {ε : Type} [Executor ε] {e : Engine ε} {chunks : List Chunk}
  {items : List (Chunk × List Fitness)} {q : Population}

lemma evaluate_of_recordChunks (hchunks : e.chunksFrom 0 e.population = .ok chunks)
    (hitems : (e.dispatch (chunks.map fun c => (c, ()))
      (scoreChunk e.problem e.population)).result = .ok items)
    (hrecord : e.population.recordChunks items = (.ok (), q)) :
    e.evaluate.result = .ok () ∧ e.evaluate.engine.population = q := by
  rw [evaluate_eq, hchunks]
  dsimp only
  rw [Turn.andThen_of_ok hitems]
  simp only [dispatch, hrecord, recorded, Turn.done, true_and]

lemma recordChunks_of_evaluate (h : e.evaluate.result = .ok ()) :
    ∃ chunks items, e.chunksFrom 0 e.population = .ok chunks ∧
      Outcome.collect (Executor.execute e.executor (chunks.map fun c => (c, ()))
        (scoreChunk e.problem e.population)).1 = .ok items ∧
      e.population.recordChunks items = (.ok (), e.evaluate.engine.population) := by
  rw [evaluate_eq] at h ⊢
  cases hchunks : e.chunksFrom 0 e.population with
  | error error => rw [hchunks] at h; cases h
  | ok chunks =>
    rw [hchunks] at h
    obtain ⟨items, hitems, hrecord⟩ := Turn.andThen_eq_ok h
    refine ⟨chunks, items, rfl, hitems, ?_⟩
    dsimp only
    rw [Turn.andThen_of_ok hitems]
    simp only [dispatch] at hrecord ⊢
    rcases hq : e.population.recordChunks items with ⟨error | _, q⟩
    · rw [hq] at hrecord
      cases hrecord
    · rfl

end Recording

section Evaluate

variable {e : Engine Backend} {chunks : List Chunk} {items : List (Chunk × List Fitness)}

/-- Scores that a backend gives for the chunks of the whole population are written into it. -/
lemma evaluate_of_dispatch (hchunks : e.chunksFrom 0 e.population = .ok chunks)
    (hitems : (e.dispatch (chunks.map fun c => (c, ()))
      (scoreChunk e.problem e.population)).result = .ok items) :
    e.evaluate.result = .ok () ∧ ∃ values, Scores e.problem e.population.individuals values ∧
      e.evaluate.engine.population =
        ⟨List.zipWith Individual.record e.population.individuals values⟩ := by
  have hcollect := hitems
  have htiles := (partition_eq_ok hchunks).1 (Nat.zero_le _)
  rw [dispatch_result, Outcome.collect_eq_ok_iff] at hcollect
  obtain ⟨rfl, hsizes, hscores⟩ := scores_of_tiles htiles rfl hcollect
  have hrecord := Population.recordChunks_of_tiles htiles rfl hsizes
  rw [List.drop_zero] at hscores hrecord
  rw [List.take_zero, List.nil_append] at hrecord
  obtain ⟨hresult, hpopulation⟩ := evaluate_of_recordChunks hchunks hitems hrecord
  exact ⟨hresult, items.flatMap (·.2), hscores, hpopulation⟩

/-- A population that a backend could measure is as if it had been measured in one go. -/
theorem evaluate_eq_ok (h : e.evaluate.result = .ok ()) :
    ∃ values, Scores e.problem e.population.individuals values ∧
      e.evaluate.engine.population =
        ⟨List.zipWith Individual.record e.population.individuals values⟩ := by
  have hevaluate := h
  rw [evaluate_eq] at hevaluate
  cases hchunks : e.chunksFrom 0 e.population with
  | error error => rw [hchunks] at hevaluate; cases hevaluate
  | ok chunks =>
    rw [hchunks] at hevaluate
    obtain ⟨items, hitems, -⟩ := Turn.andThen_eq_ok hevaluate
    exact (evaluate_of_dispatch hchunks hitems).2

/-- If a backend could not measure the population, nothing but the backend has changed. -/
theorem changesExecutor_evaluate_of_error {error : Error} (h : e.evaluate.result = .error error) :
    ChangesExecutor e e.evaluate.engine := by
  cases hchunks : e.chunksFrom 0 e.population with
  | error error =>
    rw [evaluate_eq, hchunks]
    exact ⟨e.executor, rfl⟩
  | ok chunks =>
    cases hitems : (e.dispatch (chunks.map fun c => (c, ()))
        (scoreChunk e.problem e.population)).result with
    | error error =>
      rw [evaluate_eq, hchunks]
      dsimp only
      rw [Turn.andThen_of_error hitems]
      exact ⟨_, rfl⟩
    | ok items =>
      rw [(evaluate_of_dispatch hchunks hitems).1] at h
      cases h

/-- If a backend could not measure the population, nothing is written into it. -/
lemma population_evaluate_of_error {error : Error} (h : e.evaluate.result = .error error) :
    e.evaluate.engine.population = e.population :=
  (changesExecutor_evaluate_of_error h).population

/-- A population in which everyone has a score can be measured. -/
theorem evaluate_of_scores (hscores : ∀ i ∈ e.population.individuals,
    ∃ f, e.problem.score i.genes = .ok f) (chunkSize_pos : 0 < e.options.chunkSize.toNat) :
    e.evaluate.result = .ok () := by
  obtain ⟨chunks, hchunks⟩ := partition_of_pos chunkSize_pos e.population.size 0
  have hjobs : ∀ job ∈ chunks.map fun c => (c, ()), ∃ values,
      scoreChunk e.problem e.population job.1 job.2 = .ok values ∧ True := by
    intro job _
    obtain ⟨values, hvalues⟩ := exists_scoreChunk hscores job.1 job.2
    exact ⟨values, hvalues, trivial⟩
  obtain ⟨items, hitems, -⟩ := dispatch_of_ok (e := e) hjobs
  exact (evaluate_of_dispatch hchunks hitems).1

/-- After measuring on a backend everyone has been measured. -/
theorem measured_evaluate (h : e.evaluate.result = .ok ()) :
    e.evaluate.engine.population.Measured e.problem := by
  obtain ⟨values, hscores, hpopulation⟩ := evaluate_eq_ok h
  rw [hpopulation]
  exact measured_zipWith_record hscores

end Evaluate

end Engine

end KnapsackEvolution
