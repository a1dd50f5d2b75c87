/-
# The best so far

On a backend every completed generation reports the fittest individual of the population that it
measured, the first one on ties, and puts it into slot zero of the next population.  So the elite of
a run is the best individual of all populations that were measured up to then: when a population
brings nothing better than the elite in its slot zero, that slot is the first of its fittest, and
the elite stays who it was.
-/
import KnapsackEvolution.Proofs.Evaluation
import KnapsackEvolution.Proofs.Starts

namespace KnapsackEvolution

lemma Population.Measured.firstMax {problem : Problem} {p : Population} {slot : Nat} {f : Fitness}
    (hp : p.Measured problem) (h : FirstMax (·.fitness?) p.individuals slot f) :
    FirstMax problem.score? p.genes slot f := by
  have hscore : ∀ i ∈ p.individuals, problem.score? i.genes = i.fitness? := by
    intro i hi
    obtain ⟨g, hfitness, hg⟩ := hp i hi
    rw [hfitness, Problem.score?_eq_some_iff.2 hg]
  refine ⟨?_, ?_, ?_⟩
  · obtain ⟨i, hi, hf⟩ := h.attained
    refine ⟨i.genes, by rw [genes, List.getElem?_map, hi]; rfl, ?_⟩
    rw [hscore i (List.mem_of_getElem? hi), hf]
  · intro t genes ht
    rw [Population.genes, List.getElem?_map, Option.map_eq_some_iff] at ht
    obtain ⟨i, hi, rfl⟩ := ht
    rw [hscore i (List.mem_of_getElem? hi)]
    exact h.le t i hi
  · intro t genes ht hslot
    rw [Population.genes, List.getElem?_map, Option.map_eq_some_iff] at ht
    obtain ⟨i, hi, rfl⟩ := ht
    rw [hscore i (List.mem_of_getElem? hi)]
    exact h.lt t i hi hslot

lemma Population.FirstMax.score_eq {problem : Problem} {row : List (List Bool)} {slot : Nat}
    {f : Fitness} (h : FirstMax problem.score? row slot f) {genes : List Bool}
    (hslot : row[slot]? = some genes) : problem.score genes = .ok f := by
  obtain ⟨best, hbest, hf⟩ := h.attained
  obtain rfl : genes = best := Option.some.inj (hslot.symm.trans hbest)
  exact Problem.score?_eq_some_iff.1 hf

namespace Engine

/-! ## One generation -/

/-- What a completed generation reports: the first of the best of the population that it measured,
who is then in slot zero. -/
theorem step_eq_ok {e : Engine Backend} {r : Report} (h : e.step.result = .ok r) :
    (∃ slot, Population.FirstMax e.problem.score? e.population.genes slot r.bestFitness ∧
      e.population.genes[slot]? = some r.elite.genes) ∧
    r.elite.fitness? = some r.bestFitness ∧
    e.step.engine.population.get? 0 = some r.elite ∧ e.step.engine.problem = e.problem := by
  obtain ⟨children, next, mutants, hcompletes⟩ := completes_of_ok h
  have hkeeps := e.keeps_evaluate
  have hmeasured := measured_evaluate hcompletes.evaluate
  obtain ⟨slot, hmax, hslot, hf⟩ := selectElite_eq_ok hcompletes.select
  refine ⟨⟨slot, ?_, ?_⟩, hf, hcompletes.get?_zero, e.problem_step⟩
  · rw [← hkeeps.genes]
    exact hmeasured.firstMax hmax
  · rw [← hkeeps.genes, Population.genes, List.getElem?_map, hslot]
    rfl

/-! ## Runs of generations -/

/-- A generation with a source of generators of its own. -/
def stepWith (e : Engine Backend) (generators : Factory) : Turn Backend Report :=
  (e.withGenerators generators).step

/-- The engine after `n` generations, of which generation `k` draws from `factories k`. -/
def after (e : Engine Backend) (factories : Nat → Factory) : Nat → Engine Backend
  | 0 => e
  | n + 1 => ((e.after factories n).stepWith (factories n)).engine

/-- Of all individuals of the populations `populations 0` to `populations n`, the elite has the
greatest score, and it sits in the first slot with that score of the first population with it. -/
structure BestEver (problem : Problem) (populations : Nat → Population) (n : Nat)
    (elite : Individual) (f : Fitness) : Prop where
  le : ∀ k ≤ n, ∀ genes ∈ (populations k).genes, ∃ g, problem.score genes = .ok g ∧ g ≤ f
  attained : ∃ k ≤ n, ∃ slot : Nat, (populations k).genes[slot]? = some elite.genes ∧
    problem.score elite.genes = .ok f ∧
    (∀ l < k, ∀ genes ∈ (populations l).genes, ∃ g, problem.score genes = .ok g ∧ g < f) ∧
    ∀ (t : Nat), t < slot → ∀ genes : List Bool, (populations k).genes[t]? = some genes →
      ∃ g, problem.score genes = .ok g ∧ g < f

section BestEver

variable {problem : Problem} {populations : Nat → Population} {n slot : Nat}
  {elite : Individual} {f f' : Fitness}

lemma BestEver.of_firstMax
    (hmax : Population.FirstMax problem.score? (populations n).genes slot f)
    (hslot : (populations n).genes[slot]? = some elite.genes)
    (hbefore : ∀ k < n, ∀ genes ∈ (populations k).genes,
      ∃ g, problem.score genes = .ok g ∧ g < f) :
    BestEver problem populations n elite f := by
  refine ⟨?_, n, Nat.le_refl n, slot, hslot, hmax.score_eq hslot, hbefore, ?_⟩
  · intro k hk genes hgenes
    rcases Nat.lt_or_eq_of_le hk with hk | rfl
    · obtain ⟨g, hg, hlt⟩ := hbefore k hk genes hgenes
      exact ⟨g, hg, Int64.le_of_lt hlt⟩
    · obtain ⟨t, ht⟩ := List.mem_iff_getElem?.1 hgenes
      obtain ⟨g, hg, hle⟩ := hmax.le t genes ht
      exact ⟨g, Problem.score?_eq_some_iff.1 hg, hle⟩
  · intro t ht genes hgenes
    obtain ⟨g, hg, hlt⟩ := hmax.lt t genes hgenes ht
    exact ⟨g, Problem.score?_eq_some_iff.1 hg, hlt⟩

lemma BestEver.succ (h : BestEver problem populations n elite f)
    (hnext : ∀ genes ∈ (populations (n + 1)).genes, ∃ g, problem.score genes = .ok g ∧ g ≤ f) :
    BestEver problem populations (n + 1) elite f := by
  obtain ⟨k, hk, hattained⟩ := h.attained
  refine ⟨?_, k, Nat.le_succ_of_le hk, hattained⟩
  intro l hl genes hgenes
  rcases Nat.lt_or_eq_of_le hl with hl | rfl
  · exact h.le l (Nat.le_of_lt_succ hl) genes hgenes
  · exact hnext genes hgenes

/-- If the elite sits in slot zero, a population has someone better, or the elite itself is the
first of its best. -/
lemma beaten_or_kept {p : Population} {best : List Bool}
    (hmax : Population.FirstMax problem.score? p.genes slot f')
    (hslot : p.genes[slot]? = some best) (hzero : p.genes[0]? = some elite.genes)
    (hscore : problem.score elite.genes = .ok f) : f < f' ∨ (f' = f ∧ best = elite.genes) := by
  have hscore? := Problem.score?_eq_some_iff.2 hscore
  obtain ⟨g, hg, hle⟩ := hmax.le 0 _ hzero
  obtain rfl : f = g := Option.some.inj (hscore?.symm.trans hg)
  rcases Int64.lt_or_eq_of_le hle with hlt | heq
  · exact .inl hlt
  · right
    refine ⟨heq.symm, ?_⟩
    rcases Nat.eq_zero_or_pos slot with rfl | hpos
    · exact Option.some.inj (hslot.symm.trans hzero)
    · -- a best slot behind slot zero would have to be better than the elite
      obtain ⟨g, hg, hlt⟩ := hmax.lt 0 _ hzero hpos
      obtain rfl : f = g := Option.some.inj (hscore?.symm.trans hg)
      rw [heq] at hlt
      exact absurd hlt Int64.lt_irrefl

end BestEver

section Run

variable {e : Engine Backend} {factories : Nat → Factory} {reports : Nat → Report} {n : Nat}

/-- What each report of a run says about the population that its generation measured. -/
lemma report_after
    (h : ((e.after factories n).stepWith (factories n)).result = .ok (reports n)) :
    (∃ slot, Population.FirstMax (e.after factories n).problem.score?
        (e.after factories n).population.genes slot (reports n).bestFitness ∧
      (e.after factories n).population.genes[slot]? = some (reports n).elite.genes) ∧
    (reports n).elite.fitness? = some (reports n).bestFitness ∧
    (e.after factories (n + 1)).population.get? 0 = some (reports n).elite ∧
    (e.after factories (n + 1)).problem = (e.after factories n).problem :=
  step_eq_ok h

lemma problem_after
    (h : ∀ k < n, ((e.after factories k).stepWith (factories k)).result = .ok (reports k)) :
    (e.after factories n).problem = e.problem := by
  induction n with
  | zero => rfl
  | succ n ih =>
    obtain ⟨-, -, -, hproblem⟩ := report_after (h n (Nat.lt_succ_self n))
    exact hproblem.trans (ih fun k hk => h k (Nat.lt_succ_of_lt hk))

lemma beaten_or_kept_after
    (h : ∀ k ≤ n + 1, ((e.after factories k).stepWith (factories k)).result = .ok (reports k)) :
    (reports n).bestFitness < (reports (n + 1)).bestFitness ∨
      ((reports (n + 1)).bestFitness = (reports n).bestFitness ∧
        (reports (n + 1)).elite.genes = (reports n).elite.genes) := by
  obtain ⟨⟨slot, hmax, hslot⟩, -, hzero, hproblem⟩ := report_after (h n (Nat.le_succ n))
  obtain ⟨⟨slot', hmax', hslot'⟩, -⟩ := report_after (h (n + 1) (Nat.le_refl _))
  refine beaten_or_kept hmax' hslot' ?_ ?_
  · rw [Population.genes, List.getElem?_map, ← Population.get?, hzero]
    rfl
  · rw [hproblem]
    exact hmax.score_eq hslot

/-- The elite that a run reports is the best individual of all populations it has measured. -/
theorem bestEver_after
    (h : ∀ k ≤ n, ((e.after factories k).stepWith (factories k)).result = .ok (reports k)) :
    BestEver e.problem (fun k => (e.after factories k).population) n (reports n).elite
      (reports n).bestFitness := by
  induction n with
  | zero =>
    obtain ⟨⟨slot, hmax, hslot⟩, -⟩ := report_after (h 0 (Nat.le_refl 0))
    exact .of_firstMax hmax hslot (fun k hk => absurd hk (Nat.not_lt_zero k))
  | succ n ih =>
    have hprev := ih fun k hk => h k (Nat.le_succ_of_le hk)
    obtain ⟨⟨slot, hmax, hslot⟩, -⟩ := report_after (h (n + 1) (Nat.le_refl _))
    rw [problem_after fun k hk => h k (Nat.le_of_lt hk)] at hmax
    rcases beaten_or_kept_after h with hlt | ⟨hf, hgenes⟩
    · -- the new elite beats the old one, and the old one beats everyone before
      refine .of_firstMax hmax hslot ?_
      intro k hk genes hmem
      obtain ⟨g, hg, hle⟩ := hprev.le k (Nat.le_of_lt_succ hk) genes hmem
      exact ⟨g, hg, Int64.lt_of_le_of_lt hle hlt⟩
    · -- nobody is better, so the earlier elite is still the best ever
      have hnext : ∀ genes ∈ (e.after factories (n + 1)).population.genes,
          ∃ g, e.problem.score genes = .ok g ∧ g ≤ (reports n).bestFitness := by
        intro genes hmem
        obtain ⟨t, ht⟩ := List.mem_iff_getElem?.1 hmem
        obtain ⟨g, hg, hle⟩ := hmax.le t genes ht
        exact ⟨g, Problem.score?_eq_some_iff.1 hg, hf ▸ hle⟩
      have hsucc := hprev.succ hnext
      rw [hf]
      obtain ⟨k, hk, hattained⟩ := hsucc.attained
      refine ⟨hsucc.le, k, hk, ?_⟩
      rw [hgenes]
      exact hattained

end Run

/-- An engine on a backend, with any source of generators in each generation, that completes
generations one after the other from its start: the report of each generation carries the best
individual that ever lived in the populations measured so far, the first one on ties; that
individual is then in slot zero, with its fitness.  So the best fitness never falls, and from one
report to the next the genes of the elite change only when it rises. -/
theorem elite_best_ever (surroundings : Surroundings) (backend : Backend) (options : Options)
    (problem : Problem) {e : Engine Backend} {events : List Event}
    (hstart : onExecutor surroundings backend options problem = .ok (e, events))
    (factories : Nat → Factory) (reports : Nat → Report) (n : Nat)
    (hsteps : ∀ k < n, ((e.after factories k).stepWith (factories k)).result = .ok (reports k)) :
    (∀ m < n,
      BestEver problem (fun k => (e.after factories k).population) m (reports m).elite
        (reports m).bestFitness ∧
      (reports m).elite.fitness? = some (reports m).bestFitness ∧
      (e.after factories (m + 1)).population.get? 0 = some (reports m).elite) ∧
    (∀ l m, l ≤ m → m < n → (reports l).bestFitness ≤ (reports m).bestFitness) ∧
    ∀ m, m + 1 < n → (reports (m + 1)).elite.genes ≠ (reports m).elite.genes →
      (reports m).bestFitness < (reports (m + 1)).bestFitness := by
  -- generations keep the problem that the engine was started with
  have hproblem : e.problem = problem := by
    obtain ⟨-, -, rfl, -⟩ := onExecutor_eq_ok_iff.1 hstart
    rfl
  have hupTo : ∀ m < n, ∀ k ≤ m,
      ((e.after factories k).stepWith (factories k)).result = .ok (reports k) :=
    fun m hm k hk => hsteps k (Nat.lt_of_le_of_lt hk hm)
  refine ⟨?_, ?_, ?_⟩
  · intro m hm
    obtain ⟨-, hfitness, hzero, -⟩ := report_after (hsteps m hm)
    have hbest := bestEver_after (hupTo m hm)
    rw [hproblem] at hbest
    exact ⟨hbest, hfitness, hzero⟩
  · intro l m hlm hm
    induction hlm with
    | refl => exact Int64.le_rfl
    | @step m hlm ih =>
      refine Int64.le_trans (ih (Nat.lt_of_succ_lt hm)) ?_
      rcases beaten_or_kept_after (hupTo (m + 1) hm) with hlt | ⟨heq, -⟩
      · exact Int64.le_of_lt hlt
      · exact Int64.le_of_eq heq.symm
  · intro m hm hne
    rcases beaten_or_kept_after (hupTo (m + 1) hm) with hlt | ⟨-, heq⟩
    · exact hlt
    · exact absurd heq hne

/-- Three selections of two items: a child that is bred in the first generation has both items, and
the second generation reports it as the new elite. -/
theorem elite_best_ever_two_generations :
    let options : Options := { Options.default with
      backend := .sequential, workers := 1, chunkSize := 2, populationSize := 3, geneCount := 2,
      mutationProbability := ⟨0⟩, tournamentSize := 1, seed? := some 1 }
    let problem : Problem := ⟨#[5, 7], #[1, 1], 2⟩
    let surroundings : Surroundings := ⟨fun _ => 0, .inOrder⟩
    let e := first surroundings Backend.sequential options problem
    let factories : Nat → Factory := fun _ _ =>
      ⟨Vector.replicate 8 0, 0, [0, 0xC000000000000000, 0x8000000000000000,
        0, 0xC000000000000000, 0x8000000000000000]⟩
    let reports : Nat → Report := fun k =>
      if k = 0 then ⟨1, 7, ⟨[false, true], some 7⟩⟩ else ⟨2, 12, ⟨[true, true], some 12⟩⟩
    (∃ events, onExecutor surroundings Backend.sequential options problem = .ok (e, events)) ∧
      (∀ k < 2, ((e.after factories k).stepWith (factories k)).result = .ok (reports k)) ∧
      BestEver problem (fun k => (e.after factories k).population) 1 ⟨[true, true], some 12⟩ 12 ∧
      (7 : Fitness) < 12 := by
  intro options problem surroundings e factories reports
  have hstart : onExecutor surroundings Backend.sequential options problem = .ok (e,
      [.engineInitialized .sequential 1 (firstPopulation surroundings options).size 2]) :=
    onExecutor_eq_ok_iff.2 ⟨by decide +kernel, by decide, rfl, rfl⟩
  have hsteps : ∀ k < 2,
      ((e.after factories k).stepWith (factories k)).result = .ok (reports k) := by
    decide +kernel
  obtain ⟨hbest, -, hrise⟩ := elite_best_ever surroundings .sequential options problem hstart
    factories reports 2 hsteps
  obtain ⟨hbest, -, -⟩ := hbest 1 (by decide)
  exact ⟨⟨_, hstart⟩, hsteps, hbest, hrise 0 (by decide) (by decide)⟩

end Engine

end KnapsackEvolution
