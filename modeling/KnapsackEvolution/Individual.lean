/-
# Individuals

An individual is a selection of items, one gene an item, together with its fitness if that has
been measured.  Whatever makes new genes leaves the fitness out, so a stored fitness is never the
fitness of other genes.
-/
import KnapsackEvolution.Problem

namespace KnapsackEvolution

/-- A selection of items and, once measured, its fitness. -/
structure Individual where
  /-- For each item, whether it is selected. -/
  genes : List Bool
  /-- The fitness of these genes, if it has been measured. -/
  fitness? : Option Fitness
deriving DecidableEq

namespace Individual

/-- A selection that has not been measured. -/
def ofGenes (genes : List Bool) : Individual := ⟨genes, none⟩

/-- A selection that takes each of `n` items at the toss of a coin. -/
def random (n : Nat) : Sample Individual := do
  let genes ← Generator.coins n
  return ofGenes genes

/-- How many genes there are. -/
def size (i : Individual) : Nat := i.genes.length

/-- How many items are selected. -/
def selectedCount (i : Individual) : Nat := i.genes.count true

/-- The item is selected. -/
def selects (i : Individual) (item : Nat) : Except Fault Bool :=
  match i.genes[item]? with
  | some gene => .ok gene
  | none => .error (.indexOutOfBounds i.size item)

/-! ## Fitness -/

/-- The fitness has been measured. -/
def isMeasured (i : Individual) : Bool := i.fitness?.isSome

/-- The measured fitness. -/
def fitness (i : Individual) : Except Error Fitness :=
  match i.fitness? with
  | some f => .ok f
  | none => .error (.fitness .unmeasured)

/-- The individual with a fitness that was measured elsewhere. -/
def record (i : Individual) (f : Fitness) : Individual := { i with fitness? := some f }

/-- The individual with its fitness on a problem. -/
def measure (i : Individual) (p : Problem) : Except Fault Individual := do
  let f ← p.score i.genes
  return i.record f

/-! ## Variation -/

/-- The child with the genes of `a` before `point` and those of `b` from there on; a point past
the end of `a` counts as its end. -/
def crossAt (a b : Individual) (point : Nat) : Except Fault Individual :=
  let point := min point a.size
  if point ≤ b.size then .ok (ofGenes (a.genes.take point ++ b.genes.drop point))
  else .error (.tailOutOfRange point b.size)

/-- The child of two parents, crossed at a point drawn below the gene count of the first. -/
def cross (a b : Individual) : Draw Individual := do
  let point ← Generator.index a.size
  a.crossAt b point

/-- The individual with one gene turned over. -/
def flip (i : Individual) (item : Nat) : Except Fault Individual :=
  if item < i.size then .ok (ofGenes (i.genes.modify item not))
  else .error (.indexOutOfBounds i.size item)

/-- The individual with one drawn gene turned over. -/
def mutate (i : Individual) : Draw Individual := do
  let item ← Generator.index i.size
  i.flip item

/-- At how many places two selections differ, as far as both go. -/
def hammingDistance (a b : Individual) : Nat :=
  (List.zipWith (fun g h => g != h) a.genes b.genes).count true

/-! ## What the operations keep -/

@[simp] theorem genes_ofGenes (genes : List Bool) : (ofGenes genes).genes = genes := rfl

@[simp] theorem fitness?_ofGenes (genes : List Bool) : (ofGenes genes).fitness? = none := rfl

@[simp] theorem genes_record (i : Individual) (f : Fitness) : (i.record f).genes = i.genes := rfl

@[simp] theorem fitness?_record (i : Individual) (f : Fitness) :
    (i.record f).fitness? = some f := rfl

theorem fitness_eq_ok_iff {i : Individual} {f : Fitness} :
    i.fitness = .ok f ↔ i.fitness? = some f := by
  unfold fitness
  split <;> simp_all

/-- A child has the gene count of its second parent. -/
theorem size_crossAt {a b child : Individual} {point : Nat} (h : a.crossAt b point = .ok child) :
    child.size = b.size := by
  simp only [crossAt] at h
  split at h
  · obtain rfl := Except.ok.inj h
    simp only [size, genes_ofGenes, List.length_append, List.length_take, List.length_drop] at *
    omega
  · cases h

/-- A mutation keeps the gene count. -/
theorem size_flip {i mutant : Individual} {item : Nat} (h : i.flip item = .ok mutant) :
    mutant.size = i.size := by
  unfold flip at h
  split at h
  · obtain rfl := Except.ok.inj h
    simp [size]
  · cases h

end Individual

end KnapsackEvolution
