/-
# Runs that always succeed

When the values of all items add up to a word, and their weights to a word that is less than
`2 ^ 63` above the capacity, every selection can be scored (`Problem.Bounded`).  An engine on a
backend that can score every selection never fails: its population can always be measured, and from
then on a generation goes through.  Drawn problems of up to `2 ^ 56` items are bounded, since no
item is worth or weighs more than 99.
-/
import KnapsackEvolution.Proofs.Generations
import KnapsackEvolution.Proofs.Totals

namespace KnapsackEvolution

namespace Problem

/-! ## Bounded problems -/

/-- The sum of a table. -/
def total (table : List UInt64) : Nat := (table.map UInt64.toNat).sum

/-- All items together are worth a word and weigh a word, less than `2 ^ 63` above the capacity. -/
structure Bounded (p : Problem) : Prop where
  values_lt : total p.values.toList < UInt64.size
  weights_lt : total p.weights.toList < UInt64.size
  excess_lt : total p.weights.toList < p.capacity.toNat + UInt64.size / 2

/-- The problem was made from tables that were found to agree, or drawn. -/
inductive Built : Problem → Prop
  | ofTables {values weights : Array UInt64} {capacity : UInt64} {p : Problem} :
    ofTables values weights capacity = .ok p → Built p
  | ofSeed (seed : UInt64) (size : Nat) (capacity : UInt64) : Built (ofSeed seed size capacity)

variable {p : Problem} {genes : List Bool}

lemma Built.size_eq (h : p.Built) : p.values.size = p.weights.size := by
  cases h with
  | ofTables h =>
    unfold Problem.ofTables at h
    split at h
    · cases h
    · split at h
      · cases h
      · next heq =>
        obtain rfl := Except.ok.inj h
        exact Decidable.not_not.1 heq
  | ofSeed seed size capacity => simp [Problem.ofSeed]

/-- On a bounded problem every selection can be scored. -/
theorem Bounded.exists_score (h : p.Bounded) (htables : p.values.size = p.weights.size)
    (hgenes : genes.length ≤ p.size) : ∃ f, p.score genes = .ok f := by
  have hworth : p.worth genes ≤ total p.values.toList := selectedSum_le_sum _ _
  have hload : p.load genes ≤ total p.weights.toList := selectedSum_le_sum _ _
  have hexcess := h.excess_lt
  have hmiddle : 0 < UInt64.size / 2 := by decide
  refine Problem.exists_score hgenes (htables ▸ hgenes) (Nat.lt_of_le_of_lt hworth h.values_lt)
    (Nat.lt_of_le_of_lt hload h.weights_lt) ?_
  omega

lemma toNat_drawAmount (g : Generator) : (drawAmount.run g).1.toNat ≤ 99 := by
  have hlt := (Generator.below itemRange (by decide) g).1.isLt
  have hword : (drawAmount.run g).1.toNat = (Generator.below itemRange (by decide) g).1.val :=
    UInt64.toNat_ofNat_of_lt' (Nat.lt_trans hlt (by decide))
  rw [hword]
  exact Nat.le_of_lt_succ hlt

/-- The next item, its value and then its weight. -/
def drawItem : Sample (UInt64 × UInt64) := do
  let value ← drawAmount
  let weight ← drawAmount
  return (value, weight)

lemma drawItems_eq_times (n : Nat) : drawItems n = Sample.times drawItem n := by
  induction n with
  | zero => rfl
  | succ n ih => simp only [drawItems, Sample.times, drawItem, ih, bind_assoc, pure_bind]

/-- Drawn items are worth and weigh at most 99 each. -/
lemma le_of_mem_drawItems (n : Nat) (g : Generator) :
    ∀ item ∈ ((drawItems n).run g).1, item.1.toNat ≤ 99 ∧ item.2.toNat ≤ 99 := by
  rw [drawItems_eq_times]
  exact Sample.forall_mem_times
    (fun g => ⟨toNat_drawAmount g, toNat_drawAmount (drawAmount.run g).2⟩) n g

lemma length_drawItems (n : Nat) (g : Generator) : ((drawItems n).run g).1.length = n := by
  rw [drawItems_eq_times]
  exact Sample.length_times drawItem n g

lemma total_map_le {α : Type} {row : List α} {amount : α → UInt64} {most : Nat}
    (h : ∀ a ∈ row, (amount a).toNat ≤ most) : total (row.map amount) ≤ most * row.length := by
  induction row with
  | nil => exact Nat.zero_le _
  | cons a row ih =>
    have hfirst : (amount a).toNat ≤ most := h a List.mem_cons_self
    have hrest := ih fun b hb => h b (List.mem_cons_of_mem a hb)
    have htotal : total ((a :: row).map amount) = (amount a).toNat + total (row.map amount) := rfl
    rw [htotal, List.length_cons, Nat.mul_succ, Nat.add_comm]
    exact Nat.add_le_add hrest hfirst

/-- Drawn problems are bounded unless they are huge. -/
theorem bounded_ofSeed (seed : UInt64) {size : Nat} (capacity : UInt64) (h : size ≤ Nat.pow 2 56) :
    (ofSeed seed size capacity).Bounded := by
  have hitems := le_of_mem_drawItems size (.ofSeed seed)
  have hvalues := total_map_le fun item hitem => (hitems item hitem).1
  have hweights := total_map_le fun item hitem => (hitems item hitem).2
  rw [length_drawItems] at hvalues hweights
  have hmax : 99 * Nat.pow 2 56 < UInt64.size / 2 := by decide
  have hhalf : UInt64.size / 2 < UInt64.size := by decide
  have hsize := Nat.lt_of_le_of_lt (Nat.mul_le_mul_left 99 h) hmax
  have hvalues := Nat.lt_of_le_of_lt hvalues hsize
  have hweights := Nat.lt_of_le_of_lt hweights hsize
  exact ⟨Nat.lt_trans hvalues hhalf, Nat.lt_trans hweights hhalf,
    Nat.lt_of_lt_of_le hweights (Nat.le_add_left _ _)⟩

end Problem

namespace Engine

/-! ## Engines that can score every selection -/

/-- The engine is well shaped and can score every selection of its size. -/
structure Ready (options : Options) (e : Engine Backend) : Prop where
  shaped : e.WellShaped options
  scores : ∀ genes : List Bool, genes.length = options.geneCount.toNat →
    ∃ f, e.problem.score genes = .ok f

namespace Ready

variable {options : Options} {e : Engine Backend}

lemma invariant : Invariant fun e : Engine Backend => e.Ready options where
  withGenerators generators h := ⟨h.shaped.withGenerators generators, h.scores⟩
  evaluate {e} h := ⟨h.shaped.of_keeps e.keeps_evaluate, e.keeps_evaluate.problem ▸ h.scores⟩
  step {e} h := ⟨h.shaped.step, e.problem_step ▸ h.scores⟩

lemma evaluate (hvalid : options.validate = .ok ()) (h : e.Ready options) :
    e.evaluate.result = .ok () := by
  refine evaluate_of_scores ?_ ?_
  · intro i hi
    exact h.scores i.genes (h.shaped.shaped.genes_eq i hi)
  · rw [h.shaped.options_eq]
    exact (Options.counted hvalid).chunkSize

/-- A generation goes through. -/
theorem step (hvalid : options.validate = .ok ()) (h : e.Ready options) :
    ∃ r, e.step.result = .ok r := by
  obtain ⟨r, -, hstep, -⟩ := step_of_evaluate hvalid h.shaped (h.evaluate hvalid)
  exact ⟨r, hstep⟩

/-- So do any number of them. -/
theorem steps (hvalid : options.validate = .ok ()) (h : e.Ready options) (more : Nat) :
    ∃ elite, (e.steps more).result = .ok elite ∧
      (e.steps more).engine.generation = e.generation + (more + 1) := by
  induction more generalizing e with
  | zero =>
    obtain ⟨r, hstep⟩ := h.step hvalid
    obtain ⟨hgeneration, -⟩ := step_of_ok hstep
    rw [Engine.steps_zero, Turn.andThen_of_ok hstep]
    exact ⟨r.elite, rfl, hgeneration⟩
  | succ more ih =>
    obtain ⟨r, hstep⟩ := h.step hvalid
    obtain ⟨hgeneration, -⟩ := step_of_ok hstep
    obtain ⟨elite, helite, hlast⟩ := ih (invariant.step h)
    rw [Engine.steps_succ, Turn.andThen_of_ok hstep]
    refine ⟨elite, helite, ?_⟩
    rw [hlast, hgeneration, Nat.add_assoc, Nat.add_comm 1]

/-- A run succeeds and completes as many generations as it was asked for. -/
theorem run (hvalid : options.validate = .ok ()) (h : e.Ready options) (n : Nat) :
    ∃ elite, (e.run n).result = .ok elite ∧ (e.run n).engine.generation = e.generation + n := by
  cases n with
  | zero =>
    obtain ⟨elite, helite⟩ := run_zero_of_evaluate hvalid h.shaped (h.evaluate hvalid)
    exact ⟨elite, helite, (congrArg Engine.generation e.run_zero_engine).trans
      e.keeps_evaluate.generation⟩
  | succ n => exact h.steps hvalid n

end Ready

/-- An engine on a backend with a sensible configuration and a bounded problem that fits it starts.
After any calls, each with its own source of generators, a run of `n` generations succeeds and
completes all of them, and nothing faults on the way.  Drawn problems of at most `2 ^ 56` items are
bounded. -/
theorem run_succeeds (surroundings : Surroundings) (backend : Backend) (options : Options)
    (problem : Problem) (hvalid : options.validate = .ok ())
    (hsize : options.geneCount.toNat = problem.size) (hbuilt : problem.Built)
    (hbounded : problem.Bounded) :
    (∃ e events, onExecutor surroundings backend options problem = .ok (e, events) ∧
      ∀ (calls : List (Factory × Call)) (generators : Factory) (n : Nat),
        let now := (e.afterCalls calls).withGenerators generators
        now.runOrFault n = .ok (now.run n) ∧ ∃ elite, (now.run n).result = .ok elite ∧
          (now.run n).engine.generation = now.generation + n) ∧
    ∀ (seed : UInt64) (size : Nat) (capacity : UInt64), size ≤ Nat.pow 2 56 →
      (Problem.ofSeed seed size capacity).Bounded := by
  refine ⟨⟨_, _, onExecutor_eq_ok_iff.2 ⟨hvalid, hsize, rfl, rfl⟩, ?_⟩,
    fun seed _ capacity h => Problem.bounded_ofSeed seed capacity h⟩
  intro calls generators n now
  have hfirst : (first surroundings backend options problem).Ready options := {
    shaped := .first surroundings backend options problem
    scores := fun genes hgenes =>
      hbounded.exists_score hbuilt.size_eq (Nat.le_of_eq (hgenes.trans hsize)) }
  have hready : now.Ready options :=
    Ready.invariant.withGenerators generators (Ready.invariant.afterCalls hfirst calls)
  exact ⟨runOrFault_eq now n, hready.run hvalid n⟩

/-- Two items that are together worth the greatest word and weigh it, under the least capacity for
that: a thousand generations after the first one, on two workers. -/
theorem run_succeeds_thousand :
    let options : Options := { Options.default with
      backend := .workerPool, workers := 2, chunkSize := 2, populationSize := 4, geneCount := 2,
      seed? := some 1 }
    let problem : Problem := ⟨#[9223372036854775808, 9223372036854775807],
      #[9223372036854775807, 9223372036854775808], 9223372036854775808⟩
    let surroundings : Surroundings := ⟨fun _ => 0, .inOrder⟩
    let backend : Backend := .workerPool ⟨2, by decide, .inOrder, 0⟩
    let generators : Factory := .fixed 7
    options.validate = .ok () ∧ options.geneCount.toNat = problem.size ∧ problem.Built ∧
      problem.Bounded ∧
      ∃ e events, onExecutor surroundings backend options problem = .ok (e, events) ∧
        let now := (e.afterCalls [(generators, .step)]).withGenerators generators
        ∃ elite, (now.run 1000).result = .ok elite ∧
          (now.run 1000).engine.generation = now.generation + 1000 := by
  intro options problem surroundings backend generators
  have hvalid : options.validate = .ok () := by decide +kernel
  have htables : Problem.ofTables problem.values problem.weights problem.capacity = .ok problem :=
    rfl
  have hbounded : problem.Bounded := ⟨by decide, by decide, by decide⟩
  obtain ⟨⟨e, events, hstart, hrun⟩, -⟩ :=
    run_succeeds surroundings backend options problem hvalid rfl (.ofTables htables) hbounded
  obtain ⟨-, hthousand⟩ := hrun [(generators, .step)] generators 1000
  exact ⟨hvalid, rfl, .ofTables htables, hbounded, e, events, hstart, hthousand⟩

end Engine

end KnapsackEvolution
