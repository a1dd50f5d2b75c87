/-
# The first engine

An engine starts exactly when its configuration makes sense and has one gene for each item of the
problem.  The first population then hangs on the configuration and on the clock, and with a seed on
the configuration alone; the backend that the configuration asks for is always up.
-/
import KnapsackEvolution.Engine.Basic
import KnapsackEvolution.Proofs.Backends
import KnapsackEvolution.Proofs.Totals

namespace KnapsackEvolution

lemma refuse_eq_none_iff {α : Type} {refused : Prop} [Decidable refused] {a : α} {rest : Option α} :
    (if refused then some a else rest) = none ↔ ¬refused ∧ rest = none := by
  split <;> simp_all

namespace Options

/-- No count of a configuration is zero. -/
structure Counted (o : Options) : Prop where
  workers : 0 < o.workers.toNat
  chunkSize : 0 < o.chunkSize.toNat
  populationSize : 0 < o.populationSize.toNat
  geneCount : 0 < o.geneCount.toNat
  tournamentSize : 0 < o.tournamentSize.toNat

/-- A configuration that makes sense has no count of zero. -/
lemma counted {o : Options} (h : o.validate = .ok ()) : o.Counted := by
  have hpos : ∀ {count : UInt64}, count ≠ 0 → 0 < count.toNat :=
    fun hne => UInt64.lt_iff_toNat_lt.1 (UInt64.pos_iff_ne_zero.2 hne)
  rw [validate_eq_ok_iff] at h
  simp only [misconfiguration?, refuse_eq_none_iff] at h
  obtain ⟨hworkers, hchunkSize, hpopulationSize, hgeneCount, -, htournamentSize, -⟩ := h
  exact ⟨hpos hworkers, hpos hchunkSize, hpos hpopulationSize, hpos hgeneCount,
    hpos htournamentSize⟩

lemma workers_pos {o : Options} (h : o.validate = .ok ()) : 0 < o.workers.toNat :=
  (counted h).workers

end Options

namespace Engine

/-- The first population of a configuration. -/
def firstPopulation (surroundings : Surroundings) (options : Options) : Population :=
  ((Population.random options.populationSize.toNat options.geneCount.toNat).run
    (factoryOf surroundings options ⟨.init, 0, 0⟩)).1

/-- The first engine around an executor. -/
def first {ε : Type} (surroundings : Surroundings) (executor : ε) (options : Options)
    (problem : Problem) : Engine ε :=
  ⟨executor, options, problem, factoryOf surroundings options,
    firstPopulation surroundings options, 0⟩

variable {ε : Type} [Executor ε] {surroundings : Surroundings} {executor : ε} {options : Options}
  {problem : Problem} {e : Engine ε} {events : List Event}

/-- An engine starts exactly on a configuration that makes sense and fits the problem. -/
theorem onExecutor_eq_ok_iff :
    onExecutor surroundings executor options problem = .ok (e, events) ↔
      options.validate = .ok () ∧ options.geneCount.toNat = problem.size ∧
      e = first surroundings executor options problem ∧
      events = [.engineInitialized (Executor.kind executor) (Executor.workers executor)
        (firstPopulation surroundings options).size problem.size] := by
  unfold onExecutor
  cases hvalid : options.validate with
  | error error => simp [bind, Except.bind]
  | ok u =>
    by_cases hsize : options.geneCount.toNat = problem.size
    · simp only [bind, Except.bind, hsize, ne_eq, not_true, if_false, pure, Except.pure,
        Except.ok.injEq, Prod.mk.injEq, true_and, first, firstPopulation, eq_comm]
    · simp [hsize, bind, Except.bind, throw, throwThe, MonadExceptOf.throw]

/-- The engine of a configuration that makes sense and fits the problem starts on its backend. -/
theorem start_eq_ok {backend : Backend} (hvalid : options.validate = .ok ())
    (hsize : options.geneCount.toNat = problem.size)
    (hbackend : Backend.start surroundings.arrival options.backend options.workers.toNat =
      .ok backend) :
    ∃ events, start surroundings options problem =
      .ok (first surroundings backend options problem, events) := by
  unfold start
  have hengine : onExecutor surroundings backend options problem = .ok
      (first surroundings backend options problem, [.engineInitialized backend.kind backend.workers
        (firstPopulation surroundings options).size problem.size]) :=
    onExecutor_eq_ok_iff.2 ⟨hvalid, hsize, rfl, rfl⟩
  rw [hvalid, hbackend]
  simp only [bind, Except.bind, hengine, pure, Except.pure]
  exact ⟨_, rfl⟩

/-- An engine that starts is the first one on some backend. -/
theorem exists_backend_of_start {e : Engine Backend}
    (h : start surroundings options problem = .ok (e, events)) :
    ∃ backend, options.validate = .ok () ∧ options.geneCount.toNat = problem.size ∧
      e = first surroundings backend options problem := by
  obtain ⟨u, hvalid, h⟩ := Except.bind_eq_ok h
  obtain ⟨backend, -, h⟩ := Except.bind_eq_ok h
  obtain ⟨result, hengine, h⟩ := Except.bind_eq_ok h
  obtain ⟨-, hsize, hfirst, -⟩ := onExecutor_eq_ok_iff.1 hengine
  obtain ⟨rfl, -⟩ := Prod.mk.inj (Except.ok.inj h)
  exact ⟨backend, hvalid, hsize, hfirst⟩

end Engine

end KnapsackEvolution
