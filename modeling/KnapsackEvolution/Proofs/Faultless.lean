/-
# No faults outside chunks

The checks of the population operations are exactly what their accesses need: a chunk that is
written lies in the population, the slot of the fittest individual is there, and chunks that are
moved out continue one another up to the end.  So wherever a check that holds does nothing
(`LawfulChecks`), a generation does what it does without checks.  Where one that does not hold is a
fault, there is none: whatever outcomes an executor hands back, the engine itself never faults
(`Engine.runOrFault_eq`).
-/
import KnapsackEvolution.Proofs.Exits

namespace KnapsackEvolution

/-- A check that holds does nothing. -/
class LawfulChecks (m : Type → Type) [Monad m] [Checks m] : Prop where
  check_true (fault : Fault) : check true fault = (pure () : m Unit)

instance : LawfulChecks (Except Fault) where
  check_true _ := rfl

variable {m : Type → Type} [Monad m] [LawfulMonad m]

/-- Turns that are all without effect are one without effect. -/
lemma Turn.andThenM_eq {ε α β : Type} {t : Turn ε α} {next : Engine ε → α → m (Turn ε β)}
    {next' : Engine ε → α → Turn ε β} (h : ∀ e a, next e a = pure (next' e a)) :
    t.andThenM next = pure (t.andThen next') := by
  unfold andThenM
  cases ht : t.result with
  | error error => rw [andThen_of_error ht]
  | ok a =>
    dsimp only
    rw [andThen_of_ok ht, h, pure_bind]

variable [Checks m] [LawfulChecks m]

lemma check_bind {α : Type} {allowed : Prop} [Decidable allowed] (h : allowed) (fault : Fault)
    (x : m α) : (check allowed fault >>= fun _ => x) = x := by
  rw [decide_eq_true h, LawfulChecks.check_true, pure_bind]

namespace Population

lemma recordFitnessM_eq (p : Population) (c : Chunk) (values : List Fitness) :
    p.recordFitnessM c values = (pure (p.recordFitness c values) : m _) := by
  unfold recordFitness recordFitnessM
  by_cases h : c.stop ≤ p.size ∧ c.size = values.length
  · rw [if_pos h, if_pos h, overwriteM, check_bind h.1, pure_bind]
    rfl
  · rw [if_neg h, if_neg h]
    rfl

lemma recordChunksM_eq (p : Population) (items : List (Chunk × List Fitness)) :
    p.recordChunksM items = (pure (p.recordChunks items) : m _) := by
  induction items generalizing p with
  | nil => rfl
  | cons item rest ih =>
    obtain ⟨c, values⟩ := item
    rw [recordChunksM, recordFitnessM_eq, pure_bind, recordChunks_cons]
    cases p.recordFitness c values with
    | error e => rfl
    | ok q => exact ih q

lemma bestM_eq (p : Population) : p.bestM = (pure p.best : m _) := by
  unfold bestM
  cases hslot : p.bestIndex with
  | error e => rw [best_of_bestIndex_error hslot]
  | ok slot =>
    -- the best slot has somebody in it
    obtain ⟨f, hmax⟩ := bestIndex_eq_ok hslot
    obtain ⟨i, hi, -⟩ := hmax.attained
    have hget : p.get? slot = some i := hi
    have hslot_lt : slot < p.size := hmax.lt_length
    dsimp only
    rw [readM, check_bind hslot_lt, pure_bind, hget, best_of_bestIndex hslot hi]

lemma takeChunksM_eq (p : Population) (chunks : List Chunk) :
    p.takeChunksM chunks = (pure (p.takeChunks chunks) : m _) := by
  cases chunks with
  | nil => rfl
  | cons first rest =>
    rw [takeChunks_cons, takeChunksM]
    cases hstop : contiguousEnd first.start (first :: rest) with
    | error e => rfl
    | ok stop =>
      dsimp only
      by_cases hsize : stop = p.size
      · -- chunks that end where the population ends start before its end
        have hfirst : first.start ≤ p.size := hsize ▸ (contiguousEnd_eq_ok_iff.1 hstop).le
        rw [if_pos hsize, if_pos hsize, splitAtM, check_bind hfirst, pure_bind]
      · rw [if_neg hsize, if_neg hsize]

end Population

namespace Engine

variable {ε : Type} [Executor ε]

/-! ## Phases -/

lemma evaluateM_eq (e : Engine ε) : e.evaluateM = (pure e.evaluate : m _) := by
  rw [evaluate_eq, evaluateM]
  cases e.chunksFrom 0 e.population with
  | error error => rfl
  | ok chunks =>
    refine Turn.andThenM_eq ?_
    intro e values
    rw [Population.recordChunksM_eq, pure_bind]

omit [Executor ε] in
lemma selectEliteM_eq (e : Engine ε) : e.selectEliteM = (pure e.selectElite : m _) := by
  rw [selectEliteM, Population.bestM_eq, pure_bind, selectElite_eq]

omit [Executor ε] in
lemma mutateJobsM_eq (e : Engine ε) (next : Population) :
    e.mutateJobsM next = (pure (e.mutateJobs next) : m _) := by
  rw [mutateJobs_eq, mutateJobsM]
  cases e.chunksFrom 1 next with
  | error error => rfl
  | ok chunks =>
    dsimp only
    rw [Population.takeChunksM_eq, pure_bind]

lemma mutateM_eq (e : Engine ε) (next : Population) :
    e.mutateM next = (pure (e.mutate next) : m _) := by
  rw [mutateM, mutateJobsM_eq, pure_bind, mutate_eq]

/-! ## Runs -/

lemma stepM_eq (e : Engine ε) : e.stepM = (pure e.step : m _) := by
  rw [stepM, evaluateM_eq, pure_bind, step_eq]
  refine Turn.andThenM_eq ?_
  intro e _
  rw [selectEliteM_eq, pure_bind]
  refine Turn.andThenM_eq ?_
  rintro e ⟨elite, f⟩
  refine Turn.andThenM_eq ?_
  intro e children
  rcases (Population.mk [elite]).restoreChunks children with ⟨error | _, next⟩
  · rfl
  · dsimp only
    rw [mutateM_eq, pure_bind]
    exact Turn.andThenM_eq fun e next => rfl

lemma stepsM_eq (e : Engine ε) (more : Nat) : e.stepsM more = (pure (e.steps more) : m _) := by
  induction more generalizing e with
  | zero =>
    rw [stepsM, stepM_eq, pure_bind, steps_zero]
    exact Turn.andThenM_eq fun e report => rfl
  | succ more ih =>
    rw [stepsM, stepM_eq, pure_bind, steps_succ]
    exact Turn.andThenM_eq fun e _ => ih e

lemma runM_eq (e : Engine ε) (n : Nat) : e.runM n = (pure (e.run n) : m _) := by
  cases n with
  | zero =>
    rw [runM, evaluateM_eq, pure_bind, run_zero]
    refine Turn.andThenM_eq ?_
    intro e _
    rw [Population.bestM_eq, pure_bind]
  | succ n => exact stepsM_eq e n

/-- A generation never faults outside of a chunk function. -/
theorem stepOrFault_eq (e : Engine ε) : e.stepOrFault = .ok e.step := stepM_eq e

/-- A run never faults outside of a chunk function. -/
theorem runOrFault_eq (e : Engine ε) (n : Nat) : e.runOrFault n = .ok (e.run n) := runM_eq e n

end Engine

end KnapsackEvolution
