/-
# Callers of an engine

A caller asks an engine for single generations and for runs, in any order, and sees what each call
answers and what the engine holds afterwards.  A run of generations is generations one after the
other, so an engine that has answered some calls has gone through single generations and, for runs
without generations, through measurements; what both of them keep holds after any calls
(`Engine.Invariant`).
-/
import KnapsackEvolution.Proofs.Exits

namespace KnapsackEvolution

/-- Something that a caller can ask of an engine. -/
inductive Call where
  /-- One generation. -/
  | step
  /-- A run of generations. -/
  | run (n : Nat)
deriving DecidableEq

/-- What an engine answers. -/
inductive Answer where
  /-- The report of a generation. -/
  | report (r : Report)
  /-- The elite of a run. -/
  | elite (i : Individual)
deriving DecidableEq

/-- What a caller sees of an engine after a call. -/
structure Observation where
  /-- What the call answered. -/
  result : Except Error Answer
  /-- The population after the call. -/
  population : Population
  /-- How many generations have been completed. -/
  generation : Nat
deriving DecidableEq

namespace Engine

variable {ε : Type} [Executor ε]

/-- The turn of an engine that is called. -/
def call (e : Engine ε) : Call → Turn ε Answer
  | .step => ⟨e.step.result.map .report, e.step.engine, e.step.events⟩
  | .run n => ⟨(e.run n).result.map .elite, (e.run n).engine, (e.run n).events⟩

/-- What a caller sees call by call. -/
def observations (e : Engine ε) : List Call → List Observation
  | [] => []
  | c :: calls =>
    let t := e.call c
    ⟨t.result, t.engine.population, t.engine.generation⟩ :: t.engine.observations calls

/-- The engine after some calls, each of which draws from a source of generators of its own. -/
def afterCalls (e : Engine ε) : List (Factory × Call) → Engine ε
  | [] => e
  | (generators, c) :: calls => ((e.withGenerators generators).call c).engine.afterCalls calls

/-- The engine after `n` generations, whether they succeed or not. -/
def afterSteps (e : Engine ε) : Nat → Engine ε
  | 0 => e
  | n + 1 => e.step.engine.afterSteps n

/-- A run of `n + 1` generations is `k + 1` generations one after the other, of which the first `k`
succeed.  The last one fails, and so does the run with its error, or it is generation `n + 1` and
succeeds, and the run gives its elite. -/
def RunIsSteps (e : Engine ε) (n : Nat) : Prop :=
  ∃ k ≤ n, (e.run (n + 1)).engine = e.afterSteps (k + 1) ∧
    (∀ j < k, ∃ r, (e.afterSteps j).step.result = .ok r) ∧
    ((∃ error, (e.afterSteps k).step.result = .error error ∧
        (e.run (n + 1)).result = .error error) ∨
      (k = n ∧ ∃ r, (e.afterSteps k).step.result = .ok r ∧
        (e.run (n + 1)).result = .ok r.elite))

/-- Every run is generations one after the other. -/
theorem runIsSteps (e : Engine ε) (n : Nat) : e.RunIsSteps n := by
  -- after the first generation the rest of the run is a shorter run of the next engine
  induction n generalizing e with
  | zero =>
    refine ⟨0, Nat.le_refl 0, ?_⟩
    rw [run_succ, steps_zero]
    cases hstep : e.step.result with
    | error error =>
      rw [Turn.andThen_of_error hstep]
      exact ⟨rfl, by simp, .inl ⟨error, hstep, rfl⟩⟩
    | ok r =>
      rw [Turn.andThen_of_ok hstep]
      exact ⟨rfl, by simp, .inr ⟨rfl, r, hstep, rfl⟩⟩
  | succ n ih =>
    have hsteps : e.run (n + 1 + 1) = e.step.andThen fun e _ => e.run (n + 1) := e.steps_succ n
    cases hstep : e.step.result with
    | error error =>
      rw [Turn.andThen_of_error hstep] at hsteps
      refine ⟨0, Nat.zero_le _, ?_⟩
      rw [hsteps]
      exact ⟨rfl, by simp, .inl ⟨error, hstep, rfl⟩⟩
    | ok r =>
      rw [Turn.andThen_of_ok hstep] at hsteps
      obtain ⟨k, hk, hengine, hbefore, hlast⟩ := ih e.step.engine
      refine ⟨k + 1, Nat.succ_le_succ hk, ?_⟩
      rw [hsteps]
      refine ⟨hengine, ?_, ?_⟩
      · rintro (_ | j) hj
        · exact ⟨r, hstep⟩
        · exact hbefore j (Nat.lt_of_succ_lt_succ hj)
      · rcases hlast with hlast | ⟨rfl, hlast⟩
        · exact .inl hlast
        · exact .inr ⟨rfl, hlast⟩

/-! ## What calls keep -/

lemma run_zero_engine (e : Engine ε) : (e.run 0).engine = e.evaluate.engine := by
  rw [run_zero]
  cases hevaluate : e.evaluate.result with
  | error error => rw [Turn.andThen_of_error hevaluate]
  | ok u => rw [Turn.andThen_of_ok hevaluate]

/-- Measuring, a generation and another source of generators keep the property. -/
structure Invariant (P : Engine ε → Prop) : Prop where
  withGenerators {e : Engine ε} (generators : Factory) : P e → P (e.withGenerators generators)
  evaluate {e : Engine ε} : P e → P e.evaluate.engine
  step {e : Engine ε} : P e → P e.step.engine

namespace Invariant

variable {P : Engine ε → Prop} {e : Engine ε}

lemma afterSteps (h : Invariant P) (he : P e) (n : Nat) : P (e.afterSteps n) := by
  induction n generalizing e with
  | zero => exact he
  | succ n ih => exact ih (h.step he)

lemma call (h : Invariant P) (he : P e) (c : Call) : P (e.call c).engine := by
  match c with
  | .step => exact h.step he
  | .run 0 =>
    show P (e.run 0).engine
    rw [run_zero_engine]
    exact h.evaluate he
  | .run (n + 1) =>
    -- a run is generations one after the other, each of which keeps the property
    show P (e.run (n + 1)).engine
    obtain ⟨k, -, hengine, -⟩ := e.runIsSteps n
    rw [hengine]
    exact h.afterSteps he (k + 1)

/-- What single generations and measurements keep is kept by all calls. -/
theorem afterCalls (h : Invariant P) (he : P e) (calls : List (Factory × Call)) :
    P (e.afterCalls calls) := by
  induction calls generalizing e with
  | nil => exact he
  | cons c calls ih => exact ih (h.call (h.withGenerators c.1 he) c.2)

end Invariant

lemma problem_afterCalls (e : Engine ε) (calls : List (Factory × Call)) :
    (e.afterCalls calls).problem = e.problem := by
  have hproblem : Invariant fun e' : Engine ε => e'.problem = e.problem := {
    withGenerators := fun _ h => h
    evaluate := fun {e} h => e.keeps_evaluate.problem.trans h
    step := fun {e} h => e.problem_step.trans h }
  exact hproblem.afterCalls rfl calls

end Engine

end KnapsackEvolution
