/-
# Staying inside the tables

Scoring looks up the value and the weight of every selected item.  An engine starts only on a
problem with one value for each gene, and calls keep the count of genes, so nobody in a population
ever selects an item without a value.  About weights nothing is checked when an engine starts.  A
problem that was made from tables or drawn has one for each item.  A problem that was read from
stored data may be short of weights, and then scoring stays inside the tables just for those who
select no item without a weight (`Engine.scores_stay_inside`).
-/
import KnapsackEvolution.Json.Stored
import KnapsackEvolution.Proofs.Failures
import KnapsackEvolution.Proofs.Overflows
import KnapsackEvolution.Proofs.Progress

namespace KnapsackEvolution

namespace Problem

variable {p : Problem} {genes : List Bool} {length index : Nat}

/-- Scoring the selection looks up no entry outside the tables. -/
def StaysInside (p : Problem) (genes : List Bool) : Prop :=
  ∀ length index, p.score genes ≠ .error (.indexOutOfBounds length index)

/-- Where every selected item has a value, the addition leaves the tables only at the weight of a
selected item that has none. -/
lemma totalsFrom_eq_indexOutOfBounds {item : Nat} {sums : Totals}
    (hvalues : item + genes.length ≤ p.values.size)
    (h : p.totalsFrom item sums genes = .error (.indexOutOfBounds length index)) :
    length = p.weights.size ∧ p.weights.size ≤ index ∧
      ∃ place, index = item + place ∧ genes[place]? = some true := by
  induction genes generalizing item sums with
  | nil => cases h
  | cons gene genes ih =>
    have hlength : (gene :: genes).length = genes.length + 1 := rfl
    have hvalue : item < p.values.size := by omega
    have hrest : ∀ {sums : Totals},
        p.totalsFrom (item + 1) sums genes = .error (.indexOutOfBounds length index) →
        length = p.weights.size ∧ p.weights.size ≤ index ∧
          ∃ place, index = item + place ∧ (gene :: genes)[place]? = some true := by
      intro sums h
      obtain ⟨hlength, hle, place, hindex, hplace⟩ := ih (by omega) h
      exact ⟨hlength, hle, place + 1, by omega, hplace⟩
    cases gene with
    | false => exact hrest h
    | true =>
      -- the value is looked up and added, and then the weight
      rcases Except.bind_eq_error h with hv | ⟨value, -, h⟩
      · exact absurd hvalue (Nat.not_lt.2 (entry_eq_error hv).1)
      rcases Except.bind_eq_error h with hsum | ⟨sum, -, h⟩
      · cases addWords_eq_error hsum
      rcases Except.bind_eq_error h with hw | ⟨weight, -, h⟩
      · obtain ⟨hle, hfault⟩ := entry_eq_error hw
        injection hfault with hlength hindex
        exact ⟨hlength, hindex ▸ hle, 0, hindex, rfl⟩
      rcases Except.bind_eq_error h with hsum | ⟨sum, -, h⟩
      · cases addWords_eq_error hsum
      · exact hrest h

/-- So does scoring. -/
theorem score_eq_indexOutOfBounds (hvalues : genes.length ≤ p.values.size)
    (h : p.score genes = .error (.indexOutOfBounds length index)) :
    length = p.weights.size ∧ p.weights.size ≤ index ∧ genes[index]? = some true := by
  rcases Except.bind_eq_error h with ht | ⟨sums, -, h⟩
  · obtain ⟨hlength, hle, place, hindex, hplace⟩ :=
      totalsFrom_eq_indexOutOfBounds (by rwa [Nat.zero_add]) ht
    rw [Nat.zero_add] at hindex
    exact ⟨hlength, hle, hindex ▸ hplace⟩
  · cases (scoreOf_eq_error_iff.1 h).2

lemma staysInside_of_size_le (hweights : p.values.size ≤ p.weights.size)
    (hgenes : genes.length ≤ p.values.size) : p.StaysInside genes := by
  intro length index h
  obtain ⟨-, hle, hselected⟩ := score_eq_indexOutOfBounds hgenes h
  have hindex := (List.getElem?_eq_some_iff.1 hselected).1
  omega

lemma totalsFrom_replicate_false (p : Problem) (item n : Nat) (sums : Totals) (genes : List Bool) :
    p.totalsFrom item sums (List.replicate n false ++ genes) =
      p.totalsFrom (item + n) sums genes := by
  induction n generalizing item with
  | zero => rfl
  | succ n ih =>
    rw [List.replicate_succ, List.cons_append, totalsFrom, ih, Nat.add_right_comm, Nat.add_assoc]

/-- Only that keeps all selections inside: the first item without a weight may be selected alone. -/
theorem staysInside_iff :
    (∀ genes : List Bool, genes.length = p.values.size → p.StaysInside genes) ↔
      p.values.size ≤ p.weights.size := by
  constructor
  · intro h
    by_contra hweights
    have hvalue : p.weights.size < p.values.size := Nat.not_le.1 hweights
    let lone := List.replicate p.weights.size false ++
      true :: List.replicate (p.values.size - p.weights.size - 1) false
    have hlone : lone.length = p.values.size := by
      simp only [lone, List.length_append, List.length_cons, List.length_replicate]
      omega
    refine h lone hlone p.weights.size p.weights.size ?_
    have hsum : addWords 0 p.values[p.weights.size] = .ok p.values[p.weights.size] :=
      addWords_eq_ok_iff.2 (Nat.zero_add _).symm
    have hweight : entry p.weights p.weights.size =
        .error (.indexOutOfBounds p.weights.size p.weights.size) := dif_neg (Nat.lt_irrefl _)
    rw [score, totals, totalsFrom_replicate_false, Nat.zero_add]
    simp only [totalsFrom, value, weight, entry_eq hvalue, hsum, hweight, bind, Except.bind]
  · intro hweights genes hgenes
    exact staysInside_of_size_le hweights (Nat.le_of_eq hgenes)

end Problem

namespace Engine

variable {e : Engine Backend} {options : Options} {error : Error}

/-- A call fails only where a population cannot be measured: that of the engine, or in a run that of
a later generation. -/
lemma exists_evaluate_of_call_error (hvalid : options.validate = .ok ())
    (hshaped : e.WellShaped options) {c : Call} (h : (e.call c).result = .error error) :
    ∃ n, (e.afterSteps n).evaluate.result = .error error := by
  match c with
  | .step => exact ⟨0, (step_eq_error_iff hvalid hshaped).1 (Except.map_eq_error h)⟩
  | .run 0 => exact ⟨0, (run_zero_eq_error_iff hvalid hshaped).1 (Except.map_eq_error h)⟩
  | .run (n + 1) =>
    have hrun : (e.run (n + 1)).result = .error error := Except.map_eq_error h
    obtain ⟨k, -, -, -, ⟨error', hstep, hlast⟩ | ⟨-, r, -, hlast⟩⟩ := e.runIsSteps n
    · obtain rfl := Except.error.inj (hlast.symm.trans hrun)
      exact ⟨k, (step_eq_error_iff hvalid (hshaped.afterSteps k)).1 hstep⟩
    · rw [hlast] at hrun
      cases hrun

/-- The engine has the configuration, and everyone in it has one gene for each item of the
problem. -/
structure Sized (options : Options) (problem : Problem) (e : Engine Backend) : Prop where
  shaped : e.WellShaped options
  problem_eq : e.problem = problem
  size_eq : options.geneCount.toNat = problem.size

namespace Sized

variable {problem : Problem}

theorem invariant : Invariant fun e : Engine Backend => e.Sized options problem where
  withGenerators generators h := ⟨h.shaped.withGenerators generators, h.problem_eq, h.size_eq⟩
  evaluate {e} h :=
    ⟨h.shaped.of_keeps e.keeps_evaluate, e.keeps_evaluate.problem.trans h.problem_eq, h.size_eq⟩
  step {e} h := ⟨h.shaped.step, e.problem_step.trans h.problem_eq, h.size_eq⟩

lemma length_genes (h : e.Sized options problem) {i : Individual}
    (hi : i ∈ e.population.individuals) : i.genes.length = problem.values.size :=
  (h.shaped.shaped.genes_eq i hi).trans h.size_eq

lemma call_ne_error (hvalid : options.validate = .ok ()) (h : e.Sized options problem)
    (hweights : problem.values.size ≤ problem.weights.size) (c : Call)
    {start stop length index : Nat} :
    (e.call c).result ≠
      .error (.dispatch start stop (.faulted (.indexOutOfBounds length index))) := by
  intro hcall
  obtain ⟨n, hevaluate⟩ := exists_evaluate_of_call_error hvalid h.shaped hcall
  have hsized : (e.afterSteps n).Sized options problem := invariant.afterSteps h n
  have hchunkSize : 0 < (e.afterSteps n).options.chunkSize.toNat :=
    hsized.shaped.options_eq ▸ (Options.counted hvalid).chunkSize
  -- the error is the fault of somebody in that population
  obtain ⟨chunks, d, fault, -, hfirst, herror⟩ := evaluate_eq_error hevaluate hchunkSize
  obtain ⟨slot, -, ⟨i, hi, hfault⟩, -⟩ := hfirst.slot
  injection herror with _ _ hloss
  injection hloss with hloss
  rw [hsized.problem_eq, ← hloss] at hfault
  have hlength := hsized.length_genes (List.mem_of_getElem? hi)
  exact Problem.staysInside_of_size_le hweights (Nat.le_of_eq hlength) length index hfault

end Sized

/-- An engine that starts on a problem has, after any calls, one value for each gene of everybody in
its population.  So scoring leaves the tables only at an item that somebody selects and that has no
weight.  There is no such item in a problem that was made from tables or drawn.  With a weight for
every item nobody is ever scored outside the tables, and no call fails so; and without one for every
item there is a selection of that size that is. -/
theorem scores_stay_inside (surroundings : Surroundings) (options : Options) (problem : Problem)
    {e : Engine Backend} {events : List Event}
    (hstart : start surroundings options problem = .ok (e, events))
    (calls : List (Factory × Call)) (generators : Factory) :
    let now := (e.afterCalls calls).withGenerators generators
    (∀ i ∈ now.population.individuals, i.genes.length = problem.values.size ∧
      ∀ length index, problem.score i.genes = .error (.indexOutOfBounds length index) →
        length = problem.weights.size ∧ problem.weights.size ≤ index ∧
          i.genes[index]? = some true) ∧
    (problem.Built → problem.values.size ≤ problem.weights.size) ∧
    (problem.values.size ≤ problem.weights.size →
      (∀ i ∈ now.population.individuals, problem.StaysInside i.genes) ∧
      ∀ c start stop length index, (now.call c).result ≠
        .error (.dispatch start stop (.faulted (.indexOutOfBounds length index)))) ∧
    ((∀ genes : List Bool, genes.length = problem.values.size → problem.StaysInside genes) ↔
      problem.values.size ≤ problem.weights.size) := by
  intro now
  obtain ⟨backend, hvalid, hsize, rfl⟩ := exists_backend_of_start hstart
  have hfirst : (first surroundings backend options problem).Sized options problem :=
    ⟨.first surroundings backend options problem, rfl, hsize⟩
  have hnow : now.Sized options problem :=
    Sized.invariant.withGenerators generators (Sized.invariant.afterCalls hfirst calls)
  refine ⟨?_, fun hbuilt => Nat.le_of_eq hbuilt.size_eq, ?_, Problem.staysInside_iff⟩
  · intro i hi
    have hlength := hnow.length_genes hi
    exact ⟨hlength, fun length index =>
      Problem.score_eq_indexOutOfBounds (Nat.le_of_eq hlength)⟩
  · intro hweights
    refine ⟨?_, fun c start stop length index => hnow.call_ne_error hvalid hweights c⟩
    intro i hi
    exact Problem.staysInside_of_size_le hweights (Nat.le_of_eq (hnow.length_genes hi))

/-- A problem whose two items are together too heavy for a word: a generation fails, but not at a
look-up. -/
theorem scores_stay_inside_overflow :
    let surroundings : Surroundings := ⟨fun _ => 0, .inOrder⟩
    let options : Options := { Options.default with
      backend := .sequential, workers := 1, chunkSize := 2, populationSize := 5, geneCount := 2,
      seed? := some 1 }
    let problem : Problem :=
      ⟨#[5, 7], #[9223372036854775808, 9223372036854775808], 18446744073709551615⟩
    let generators : Factory := .fixed 7
    problem.Built ∧ ∃ e events, start surroundings options problem = .ok (e, events) ∧
      let now := (e.afterCalls [(generators, .run 3)]).withGenerators generators
      (∀ i ∈ now.population.individuals, problem.StaysInside i.genes) ∧
        (now.call .step).result = .error (.dispatch 2 4 (.faulted .addOverflow)) ∧
        (now.call .step).result ≠ .error (.dispatch 2 4 (.faulted (.indexOutOfBounds 2 1))) := by
  intro surroundings options problem generators
  have htables : Problem.ofTables problem.values problem.weights problem.capacity = .ok problem :=
    rfl
  have hvalid : options.validate = .ok () := by decide +kernel
  have hsize : options.geneCount.toNat = problem.size := rfl
  have hbackend : Backend.start surroundings.arrival options.backend options.workers.toNat =
      .ok .sequential := rfl
  obtain ⟨events, hstart⟩ := start_eq_ok hvalid hsize hbackend
  obtain ⟨-, hbuilt, hinside, -⟩ :=
    scores_stay_inside surroundings options problem hstart [(generators, .run 3)] generators
  obtain ⟨hscores, hcalls⟩ := hinside (hbuilt (.ofTables htables))
  exact ⟨.ofTables htables, _, events, hstart, hscores, by decide +kernel, hcalls .step 2 4 2 1⟩

/-- A stored problem with two values and one weight is read, an engine starts on it, and somebody in
the first population selects the item without a weight: the first generation fails at the
look-up. -/
theorem stored_problem_short_of_weights :
    let text := "\x7b\"values\":[5,7],\"weights\":[3],\"capacity\":10\x7d"
    let surroundings : Surroundings := ⟨fun _ => 0, .inOrder⟩
    let options : Options := { Options.default with
      backend := .sequential, workers := 1, chunkSize := 2, populationSize := 5, geneCount := 2,
      seed? := some 1 }
    let problem : Problem := ⟨#[5, 7], #[3], 10⟩
    (Json.ofText? text).bind Problem.ofJson? = some problem ∧
      ∃ e events, start surroundings options problem = .ok (e, events) ∧
        (∃ i ∈ e.population.individuals,
          problem.score i.genes = .error (.indexOutOfBounds 1 1)) ∧
        (e.call .step).result = .error (.dispatch 2 4 (.faulted (.indexOutOfBounds 1 1))) := by
  intro text surroundings options problem
  have hvalid : options.validate = .ok () := by decide +kernel
  have hsize : options.geneCount.toNat = problem.size := rfl
  have hbackend : Backend.start surroundings.arrival options.backend options.workers.toNat =
      .ok .sequential := rfl
  obtain ⟨events, hstart⟩ := start_eq_ok hvalid hsize hbackend
  refine ⟨by decide +kernel, _, events, hstart, by decide +kernel, by decide +kernel⟩

end Engine

end KnapsackEvolution
