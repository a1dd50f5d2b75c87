/-
# Runs one after the other

What a generation draws depends on how many generations were completed before it and not on the
call that asks for it, so runs compose: `a` generations and then `b` generations are `a + b`
generations.  A run stops at the first generation that fails and leaves the engine as that
generation found it.

Measuring is what every call begins with, and it writes every fitness anew.  So a run without
generations can be put between any two calls: it gives the fittest individual and leaves what comes
after it as it was.
-/
import KnapsackEvolution.Proofs.Failures

namespace KnapsackEvolution

variable {ε α β γ : Type}

namespace Turn

lemma andThen_assoc (t : Turn ε α) (next : Engine ε → α → Turn ε β)
    (last : Engine ε → β → Turn ε γ) :
    (t.andThen next).andThen last = t.andThen fun e a => (next e a).andThen last := by
  cases ht : t.result with
  | error error => rw [andThen_of_error ht, andThen_of_error ht, andThen_of_error rfl]
  | ok a =>
    rw [andThen_of_ok ht, andThen_of_ok ht]
    cases hnext : (next t.engine a).result with
    | error error => rw [andThen_of_error hnext, andThen_of_error rfl]
    | ok b => rw [andThen_of_ok hnext, andThen_of_ok rfl, List.append_assoc]

@[simp] lemma done_andThen (e : Engine ε) (a : α) (next : Engine ε → α → Turn ε β) :
    (done e a []).andThen next = next e a := rfl

end Turn

namespace Engine

/-! ## Runs of generations -/

section Runs

variable [Executor ε] {e : Engine ε} {error : Error} {k n : Nat}

lemma steps_add (e : Engine ε) (m n : Nat) :
    e.steps (m + 1 + n) = (e.steps m).andThen fun e _ => e.steps n := by
  -- the first generation is the same, and the rest is a shorter run of the next engine
  induction m generalizing e with
  | zero =>
    rw [Nat.zero_add, Nat.add_comm 1 n, steps_succ, steps_zero]
    simp only [Turn.andThen_assoc, Turn.done_andThen]
  | succ m ih =>
    rw [Nat.add_right_comm (m + 1) 1 n, steps_succ, steps_succ]
    simp only [Turn.andThen_assoc, ih]

/-- Two runs one after the other are one run. -/
theorem run_add (e : Engine ε) {a b : Nat} (ha : 0 < a) (hb : 0 < b) :
    e.run (a + b) = (e.run a).andThen fun e _ => e.run b := by
  obtain ⟨m, rfl⟩ := Nat.exists_eq_succ_of_ne_zero (Nat.ne_of_gt ha)
  obtain ⟨n, rfl⟩ := Nat.exists_eq_succ_of_ne_zero (Nat.ne_of_gt hb)
  exact e.steps_add m n

lemma afterSteps_succ (e : Engine ε) (n : Nat) :
    e.afterSteps (n + 1) = (e.afterSteps n).step.engine := by
  induction n generalizing e with
  | zero => rfl
  | succ n ih => exact ih e.step.engine

lemma run_of_steps_ok {reports : Nat → Report}
    (h : ∀ j ≤ n, (e.afterSteps j).step.result = .ok (reports j)) :
    (e.run (n + 1)).result = .ok (reports n).elite ∧
      (e.run (n + 1)).engine = e.afterSteps (n + 1) := by
  obtain ⟨k, hk, hengine, -, ⟨error, hlast, -⟩ | ⟨rfl, r, hlast, hresult⟩⟩ := e.runIsSteps n
  · rw [h k hk] at hlast
    cases hlast
  · obtain rfl : reports k = r := Except.ok.inj ((h k (Nat.le_refl k)).symm.trans hlast)
    exact ⟨hresult, hengine⟩

/-- A run fails with its first generation that fails, and goes no further. -/
lemma run_of_steps_error (hk : k < n) (hbefore : ∀ j < k, ∃ r, (e.afterSteps j).step.result = .ok r)
    (hfail : (e.afterSteps k).step.result = .error error) :
    (e.run n).result = .error error ∧ (e.run n).engine = (e.afterSteps k).step.engine := by
  obtain ⟨n, rfl⟩ := Nat.exists_eq_succ_of_ne_zero (Nat.ne_zero_of_lt hk)
  obtain ⟨l, hl, hengine, hfirst, hlast⟩ := e.runIsSteps n
  -- the run cannot end before generation `k`, and it cannot get past it
  have hle : k ≤ l := by
    by_contra hlt
    obtain ⟨r, hr⟩ := hbefore l (by omega)
    rcases hlast with ⟨error', herror, -⟩ | ⟨rfl, -⟩
    · rw [hr] at herror
      cases herror
    · omega
  have hge : l ≤ k := by
    by_contra hlt
    obtain ⟨r, hr⟩ := hfirst k (by omega)
    rw [hfail] at hr
    cases hr
  obtain rfl : k = l := Nat.le_antisymm hle hge
  rw [afterSteps_succ] at hengine
  rcases hlast with ⟨error', herror, hresult⟩ | ⟨-, r, hr, -⟩
  · obtain rfl : error = error' := Except.error.inj (hfail.symm.trans herror)
    exact ⟨hresult, hengine⟩
  · rw [hfail] at hr
    cases hr

end Runs

/-! ## Measuring between calls -/

section Measuring

variable {e f : Engine Backend}

lemma ChangesExecutor.alike (h : ChangesExecutor e f) : Alike e f := by
  obtain ⟨x, rfl⟩ := h
  exact ⟨⟨_, _, _, rfl⟩, rfl, rfl, rfl, rfl⟩

/-- Measuring twice is measuring once: the second time everyone has the same score. -/
theorem alike_evaluate_evaluate (chunkSize_pos : 0 < e.options.chunkSize.toNat) :
    Turn.Alike e.evaluate e.evaluate.engine.evaluate := by
  have hkeeps := e.keeps_evaluate
  cases h : e.evaluate.result with
  | error error =>
    -- nothing but the backend has changed, neither the first time nor the second
    have hagain := (changesExecutor_evaluate_of_error h).alike.evaluate
    exact ⟨hagain.result,
      (changesExecutor_evaluate_of_error (hagain.result.trans h)).alike⟩
  | ok u =>
    have hmeasured := measured_evaluate h
    have hscores : ∀ i ∈ e.evaluate.engine.population.individuals,
        ∃ f, e.evaluate.engine.problem.score i.genes = .ok f := by
      intro i hi
      obtain ⟨f, -, hf⟩ := hmeasured i hi
      exact ⟨f, hkeeps.problem ▸ hf⟩
    have hagain := evaluate_of_scores hscores (hkeeps.options ▸ chunkSize_pos)
    have hkeeps' := e.evaluate.engine.keeps_evaluate
    have hmeasured' := measured_evaluate hagain
    rw [hkeeps.problem] at hmeasured'
    exact ⟨hagain.trans h.symm, ⟨_, _, _, hkeeps'.options⟩, hkeeps'.problem, hkeeps'.generators,
      hmeasured'.eq_of_genes_eq hmeasured hkeeps'.genes, hkeeps'.generation⟩

/-- What a caller sees call by call, if each call draws from a source of generators of its own. -/
def observationsWith {ε : Type} [Executor ε] (e : Engine ε) : List (Factory × Call) →
    List Observation
  | [] => []
  | (generators, c) :: calls =>
    let t := (e.withGenerators generators).call c
    ⟨t.result, t.engine.population, t.engine.generation⟩ :: t.engine.observationsWith calls

lemma observationsWith_withGenerators {ε : Type} [Executor ε] (e : Engine ε) (generators : Factory)
    (calls : List (Factory × Call)) :
    (e.withGenerators generators).observationsWith calls = e.observationsWith calls := by
  cases calls <;> rfl

lemma observationsWith_append {ε : Type} [Executor ε] (e : Engine ε)
    (earlier later : List (Factory × Call)) :
    e.observationsWith (earlier ++ later) =
      e.observationsWith earlier ++ (e.afterCalls earlier).observationsWith later := by
  induction earlier generalizing e with
  | nil => rfl
  | cons c earlier ih =>
    simp only [List.cons_append, observationsWith, afterCalls, ih]

lemma Alike.withGenerators (h : Alike e f) (generators : Factory) :
    Alike (e.withGenerators generators) (f.withGenerators generators) :=
  ⟨h.options, h.problem, rfl, h.population, h.generation⟩

lemma Alike.observationsWith (h : Alike e f) (calls : List (Factory × Call)) :
    f.observationsWith calls = e.observationsWith calls := by
  induction calls generalizing e f with
  | nil => rfl
  | cons c calls ih =>
    have hcall := (h.withGenerators c.1).evaluate.call c.2
    simp only [Engine.observationsWith, hcall.result, hcall.engine.population,
      hcall.engine.generation, ih hcall.engine]

/-- A caller sees the same after measuring as without it. -/
theorem observationsWith_evaluate (chunkSize_pos : 0 < e.options.chunkSize.toNat)
    (calls : List (Factory × Call)) :
    e.evaluate.engine.observationsWith calls = e.observationsWith calls := by
  cases calls with
  | nil => rfl
  | cons c calls =>
    -- it does not matter whether the source of generators is replaced before or after measuring
    have hgenerators : e.evaluate.engine.withGenerators c.1 =
        (e.withGenerators c.1).evaluate.engine :=
      (congrArg Turn.engine (e.evaluate_withGenerators c.1)).symm
    have halike := alike_evaluate_evaluate (e := e.withGenerators c.1) chunkSize_pos
    have hcall := halike.call c.2
    simp only [observationsWith, hgenerators, hcall.result, hcall.engine.population,
      hcall.engine.generation, hcall.engine.observationsWith calls]

/-- Where a run without generations gives somebody, that is the first of the best, measured; it
does so whenever there is a first of the best. -/
theorem run_zero_eq_ok_iff {options : Options} {elite : Individual}
    (hvalid : options.validate = .ok ()) (hshaped : e.WellShaped options) :
    (e.run 0).result = .ok elite ↔
      ∃ slot f, Population.FirstMax e.problem.score? e.population.genes slot f ∧
        e.population.genes[slot]? = some elite.genes ∧ elite.fitness? = some f := by
  have hbest : ∀ {elite : Individual}, (e.run 0).result = .ok elite →
      ∃ slot f, Population.FirstMax e.problem.score? e.population.genes slot f ∧
        e.population.genes[slot]? = some elite.genes ∧ elite.fitness? = some f := by
    intro elite hrun
    rw [run_zero] at hrun
    obtain ⟨u, hevaluate, hbest⟩ := Turn.andThen_eq_ok hrun
    obtain ⟨slot, f, hmax, hslot⟩ := Population.best_eq_ok hbest
    obtain ⟨i, hi, hf⟩ := hmax.attained
    obtain rfl : elite = i := Option.some.inj (hslot.symm.trans hi)
    rw [← e.keeps_evaluate.genes]
    refine ⟨slot, f, (measured_evaluate hevaluate).firstMax hmax, ?_, hf⟩
    rw [Population.genes, List.getElem?_map, hslot]
    rfl
  refine ⟨hbest, ?_⟩
  rintro ⟨slot, f, hmax, hslot, hf⟩
  have hscores : ∀ i ∈ e.population.individuals, ∃ f, e.problem.score i.genes = .ok f := by
    intro i hi
    obtain ⟨t, ht⟩ := List.mem_iff_getElem?.1 (Population.mem_genes hi)
    obtain ⟨g, hg, -⟩ := hmax.le t i.genes ht
    exact ⟨g, Problem.score?_eq_some_iff.1 hg⟩
  have hchunkSize : 0 < e.options.chunkSize.toNat :=
    hshaped.options_eq ▸ (Options.counted hvalid).chunkSize
  obtain ⟨best, hrun⟩ :=
    run_zero_of_evaluate hvalid hshaped (evaluate_of_scores hscores hchunkSize)
  -- there is only one first of the best
  obtain ⟨slot', f', hmax', hslot', hf'⟩ := hbest hrun
  obtain ⟨rfl, rfl⟩ := hmax.unique hmax'
  have hgenes : best.genes = elite.genes := Option.some.inj (hslot'.symm.trans hslot)
  have heq : best = elite := by
    show Individual.mk best.genes best.fitness? = ⟨elite.genes, elite.fitness?⟩
    rw [hgenes, hf', hf]
  rw [hrun, heq]

end Measuring

/-! ## Composition -/

/-- How runs of the engine `e` compose. -/
structure Composes (problem : Problem) (e : Engine Backend) : Prop where
  /-- If a run succeeds, then the run that follows it ends where one run would have ended. -/
  add : ∀ a b elite, 0 < a → 0 < b → (e.run a).result = .ok elite →
    (e.run (a + b)).result = ((e.run a).engine.run b).result ∧
      (e.run (a + b)).engine = ((e.run a).engine.run b).engine
  /-- If all generations of a run succeed, the run gives the elite of the last one. -/
  ok : ∀ (n : Nat) (reports : Nat → Report),
    (∀ j ≤ n, (e.afterSteps j).step.result = .ok (reports j)) →
    (e.run (n + 1)).result = .ok (reports n).elite ∧
      (e.run (n + 1)).engine = e.afterSteps (n + 1)
  /-- If a generation fails after `k` that succeed, the run gives its error and leaves what those
  `k` generations have left. -/
  error : ∀ n k error, k < n → (∀ j < k, ∃ r, (e.afterSteps j).step.result = .ok r) →
    (e.afterSteps k).step.result = .error error →
    (e.run n).result = .error error ∧ ChangesExecutor (e.afterSteps k) (e.run n).engine
  /-- A run without generations gives the first of the best, measured. -/
  best : ∀ elite, (e.run 0).result = .ok elite ↔
    ∃ slot f, Population.FirstMax problem.score? e.population.genes slot f ∧
      e.population.genes[slot]? = some elite.genes ∧ elite.fitness? = some f
  /-- It changes no genes. -/
  genes : (e.run 0).engine.population.genes = e.population.genes
  /-- It completes no generation. -/
  generation : (e.run 0).engine.generation = e.generation

/-- An engine on a backend after any calls: two runs one after the other are one run, and a run
that fails leaves the engine as its last successful generation did.  A run without generations gives
the first of the best, and between any calls it changes nothing that a caller sees of the later
ones: their answers and errors, the populations after them and the generations completed. -/
theorem runs_compose (surroundings : Surroundings) (backend : Backend) (options : Options)
    (problem : Problem) {e : Engine Backend} {events : List Event}
    (hstart : onExecutor surroundings backend options problem = .ok (e, events))
    (calls : List (Factory × Call)) (generators : Factory) :
    let now := (e.afterCalls calls).withGenerators generators
    now.Composes problem ∧ ∀ later,
      e.observationsWith (calls ++ later) =
        e.observationsWith calls ++ (e.afterCalls calls).observationsWith later ∧
      e.observationsWith (calls ++ (generators, .run 0) :: later) =
        e.observationsWith calls ++
          ⟨(now.run 0).result.map .elite, (now.run 0).engine.population, now.generation⟩ ::
          (e.afterCalls calls).observationsWith later := by
  intro now
  obtain ⟨hvalid, -, rfl, -⟩ := onExecutor_eq_ok_iff.1 hstart
  have hshaped : now.WellShaped options :=
    ((WellShaped.first surroundings backend options problem).afterCalls calls).withGenerators _
  have hproblem : now.problem = problem := problem_afterCalls _ calls
  have hchunkSize : 0 < now.options.chunkSize.toNat :=
    hshaped.options_eq ▸ (Options.counted hvalid).chunkSize
  have hmeasure : (now.run 0).engine = now.evaluate.engine := now.run_zero_engine
  refine ⟨{
    add := ?_
    ok := fun n reports h => run_of_steps_ok h
    error := ?_
    best := fun elite => hproblem ▸ run_zero_eq_ok_iff hvalid hshaped
    genes := hmeasure ▸ now.keeps_evaluate.genes
    generation := hmeasure ▸ now.keeps_evaluate.generation }, ?_⟩
  · intro a b elite ha hb hrun
    rw [run_add now ha hb, Turn.andThen_of_ok hrun]
    exact ⟨rfl, rfl⟩
  · intro n k error hk hbefore hfail
    obtain ⟨hresult, hengine⟩ := run_of_steps_error hk hbefore hfail
    exact ⟨hresult, hengine ▸ changesExecutor_step_of_error hvalid (hshaped.afterSteps k) hfail⟩
  · intro later
    refine ⟨observationsWith_append _ calls later, ?_⟩
    rw [observationsWith_append]
    refine congrArg (_ ++ ·) ?_
    show ⟨(now.run 0).result.map .elite, (now.run 0).engine.population,
      (now.run 0).engine.generation⟩ :: (now.run 0).engine.observationsWith later = _
    rw [hmeasure, now.keeps_evaluate.generation, observationsWith_evaluate hchunkSize,
      observationsWith_withGenerators]

/-- The children of the first generation are too heavy to be weighed, so a run of three generations
fails with the second one and keeps the first; that the first population was measured before it,
from another source of generators, does not show. -/
theorem runs_compose_until_overflow :
    let options : Options := { Options.default with
      backend := .sequential, workers := 1, chunkSize := 2, populationSize := 3, geneCount := 2,
      mutationProbability := ⟨0⟩, tournamentSize := 1, seed? := some 1 }
    let problem : Problem :=
      ⟨#[5, 7], #[9223372036854775808, 9223372036854775808], 18446744073709551615⟩
    let surroundings : Surroundings := ⟨fun _ => 0, .inOrder⟩
    let e := first surroundings Backend.sequential options problem
    let generators : Factory := fun _ => ⟨Vector.replicate 8 0, 0,
      [0, 0xC000000000000000, 0x8000000000000000, 0, 0xC000000000000000, 0x8000000000000000]⟩
    let now := e.withGenerators generators
    (∃ events, onExecutor surroundings Backend.sequential options problem = .ok (e, events)) ∧
      (now.run 1).result = .ok ⟨[false, true], some 7⟩ ∧
      (now.run 3).result = ((now.run 1).engine.run 2).result ∧
      (now.run 3).result = .error (.dispatch 0 2 (.faulted .addOverflow)) ∧
      ChangesExecutor (now.afterSteps 1) (now.run 3).engine ∧
      e.observationsWith [(.fixed 8, .run 0), (generators, .run 3)] =
        ⟨.ok (.elite ⟨[false, true], some 7⟩), ⟨[⟨[true, false], some 5⟩, ⟨[false, false], some 0⟩,
          ⟨[false, true], some 7⟩]⟩, 0⟩ :: e.observationsWith [(generators, .run 3)] := by
  intro options problem surroundings e generators now
  have hstart : onExecutor surroundings Backend.sequential options problem = .ok (e,
      [.engineInitialized .sequential 1 (firstPopulation surroundings options).size 2]) :=
    onExecutor_eq_ok_iff.2 ⟨by decide +kernel, by decide, rfl, rfl⟩
  have hfirst : ∀ j < 1, ∃ r, (now.afterSteps j).step.result = .ok r := by
    intro j hj
    obtain rfl := Nat.lt_one_iff.1 hj
    exact ⟨⟨1, 7, ⟨[false, true], some 7⟩⟩, by decide +kernel⟩
  have hsecond :
      (now.afterSteps 1).step.result = .error (.dispatch 0 2 (.faulted .addOverflow)) := by
    decide +kernel
  have hrun : (now.run 1).result = .ok ⟨[false, true], some 7⟩ := by decide +kernel
  obtain ⟨hcomposes, -⟩ :=
    runs_compose surroundings .sequential options problem hstart [] generators
  obtain ⟨-, hmeasured⟩ :=
    runs_compose surroundings .sequential options problem hstart [] (.fixed 8)
  obtain ⟨hresult, hengine⟩ := hcomposes.error 3 1 _ (by decide) hfirst hsecond
  refine ⟨⟨_, hstart⟩, hrun, (hcomposes.add 1 2 _ (by decide) (by decide) hrun).1, hresult, hengine,
    (hmeasured [(generators, .run 3)]).2.trans ?_⟩
  show _ :: _ = _ :: _
  refine congrArg (· :: _) ?_
  decide +kernel

end Engine

end KnapsackEvolution
