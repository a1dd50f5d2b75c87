/-
# Where children come from

A child is bred from two winners of tournaments over the whole population and a crossover point
(`Population.Bred`), and mutation turns over at most one of its genes (`Mutated`).  In a population
where everyone has been measured and has the same number of genes, breeding and mutating never fail,
and the children of a chunk are drawn one after the other from the stream of the chunk
(`Successive`).
-/
import KnapsackEvolution.Proofs.Evaluation
import KnapsackEvolution.Proofs.Shapes
import KnapsackEvolution.Proofs.Tournaments

namespace KnapsackEvolution

/-! ## Chances -/

namespace Binary64

variable {p : Binary64}

lemma exceeds_of_zero (h : p.sameNumber zero = true) (k : Nat) : p.exceeds k = false := by
  have hzero : p.magnitude = 0 := by
    simp only [sameNumber, Bool.and_eq_true, Bool.or_eq_true, beq_iff_eq] at h
    rcases h.2 with rfl | ⟨hp, -⟩
    · decide +kernel
    · simpa [isZero] using hp
  rw [exceeds, hzero, decide_eq_false (Nat.not_lt_zero _), Bool.and_false]

/-- A fraction of `2 ^ 53` is below one. -/
lemma exceeds_of_one (h : p.sameNumber one = true) {k : Nat} (hk : k < Nat.pow 2 53) :
    p.exceeds k = true := by
  have hone : p = one := by
    simp only [sameNumber, Bool.and_eq_true, Bool.or_eq_true, beq_iff_eq] at h
    rcases h.2 with hp | ⟨-, hp⟩
    · exact hp
    · exact absurd hp (by decide +kernel)
  have hmagnitude : one.magnitude = Nat.pow 2 53 * Nat.pow 2 1021 := by decide +kernel
  have hpos : 0 < Nat.pow 2 1021 := by decide +kernel
  have hsign : (!one.isNaN && !one.isNegative) = true := by decide +kernel
  rw [hone, exceeds, hsign, hmagnitude, Bool.true_and, decide_eq_true_eq]
  generalize Nat.pow 2 1021 = unit at hpos ⊢
  exact Nat.mul_lt_mul_of_pos_right hk hpos

end Binary64

namespace Generator

lemma chance_of_zero {p : Binary64} (h : p.sameNumber .zero = true) (g : Generator) :
    (chance p g).1 = false := Binary64.exceeds_of_zero h _

lemma chance_of_one {p : Binary64} (h : p.sameNumber .one = true) (g : Generator) :
    (chance p g).1 = true := by
  refine Binary64.exceeds_of_one h ?_
  -- a word without its lowest eleven bits
  have hword := (nextWord g).1.toNat_lt
  rw [UInt64.toNat_shiftRight, Nat.shiftRight_eq_div_pow]
  exact Nat.div_lt_of_lt_mul hword

end Generator

/-! ## Single individuals -/

namespace Individual

variable {a b i child mutant : Individual} {g : Generator}

lemma crossAt_eq (hsize : a.size = b.size) {point : Nat} (hpoint : point < a.size) :
    a.crossAt b point = .ok (ofGenes (a.genes.take point ++ b.genes.drop point)) := by
  have hmin : min point a.size = point := Nat.min_eq_left (Nat.le_of_lt hpoint)
  simp only [crossAt, hmin]
  exact if_pos (hsize ▸ Nat.le_of_lt hpoint)

lemma fitness?_crossAt {point : Nat} (h : a.crossAt b point = .ok child) :
    child.fitness? = none := by
  simp only [crossAt] at h
  split at h
  · obtain rfl := Except.ok.inj h
    rfl
  · cases h

/-- The child hangs on the genes of its parents alone. -/
lemma crossAt_congr {a' b' : Individual} (ha : a'.genes = a.genes) (hb : b'.genes = b.genes)
    (point : Nat) : a'.crossAt b' point = a.crossAt b point := by
  unfold crossAt size
  rw [ha, hb]

/-- Crossing draws a point below the gene count. -/
lemma run_cross (hsize : a.size = b.size) (size_pos : 0 < a.size) (g : Generator) :
    ∃ point child g', (a.cross b).run g = (.ok child, g') ∧
      (Generator.index a.size).run g = (.ok point, g') ∧ point < a.size ∧
      a.crossAt b point = .ok child := by
  obtain ⟨point, g', hindex, hpoint⟩ := Generator.run_index size_pos g
  have hcross := crossAt_eq hsize hpoint
  refine ⟨point, _, g', ?_, hindex, hpoint, hcross⟩
  rw [cross, Draw.run_bind hindex, Draw.run_lift_fault hcross]

@[simp] lemma hammingDistance_self (i : Individual) : i.hammingDistance i = 0 := by
  simp [hammingDistance, List.zipWith_self, List.count_replicate]

/-- A selection and the one with one gene turned over differ in that gene alone. -/
lemma count_ne_modify_not {genes : List Bool} {item : Nat} (h : item < genes.length) :
    (List.zipWith (fun g h => g != h) genes (genes.modify item not)).count true = 1 := by
  induction genes generalizing item with
  | nil => simp at h
  | cons gene genes ih =>
    cases item with
    | zero =>
      have hrest := (ofGenes genes).hammingDistance_self
      rw [hammingDistance] at hrest
      cases gene <;> simpa using hrest
    | succ item =>
      have hitem : item < genes.length := by simpa using h
      simpa using ih hitem

lemma hammingDistance_flip {item : Nat} (h : i.flip item = .ok mutant) :
    i.hammingDistance mutant = 1 := by
  unfold flip at h
  split at h
  · next hitem =>
    obtain rfl := Except.ok.inj h
    exact count_ne_modify_not hitem
  · cases h

lemma fitness?_flip {item : Nat} (h : i.flip item = .ok mutant) : mutant.fitness? = none := by
  unfold flip at h
  split at h
  · obtain rfl := Except.ok.inj h
    rfl
  · cases h

lemma run_mutate (size_pos : 0 < i.size) (g : Generator) :
    ∃ item mutant g', i.mutate.run g = (.ok mutant, g') ∧ i.flip item = .ok mutant := by
  obtain ⟨item, g', hindex, hitem⟩ := Generator.run_index size_pos g
  have hflip : i.flip item = .ok (ofGenes (i.genes.modify item not)) := if_pos hitem
  refine ⟨item, _, g', ?_, hflip⟩
  rw [mutate, Draw.run_bind hindex, Draw.run_lift_fault hflip]

end Individual

/-! ## Children -/

namespace Population

/-- The score in a slot of a population. -/
def scoreIn? (p : Population) (problem : Problem) (slot : Nat) : Option Fitness :=
  (p.get? slot).bind fun i => problem.score? i.genes

variable {p q : Population} (hgenes : q.genes = p.genes)

include hgenes

lemma get?_of_genes_eq {slot : Nat} {i : Individual} (hi : p.get? slot = some i) :
    ∃ j, q.get? slot = some j ∧ j.genes = i.genes := by
  have hslot : q.genes[slot]? = some i.genes := by
    rw [hgenes, genes, List.getElem?_map, ← get?, hi]
    rfl
  rw [genes, List.getElem?_map, Option.map_eq_some_iff] at hslot
  exact hslot

lemma scoreIn?_congr (problem : Problem) : q.scoreIn? problem = p.scoreIn? problem := by
  have hscore : ∀ (p : Population) slot,
      p.scoreIn? problem slot = p.genes[slot]?.bind problem.score? := by
    intro p slot
    rw [scoreIn?, get?, genes, List.getElem?_map, Option.bind_map]
    rfl
  funext slot
  rw [hscore, hscore, hgenes]

end Population

/-- A child that is bred from a population by draws from `g` on. -/
inductive Population.Bred (p : Population) (problem : Problem) (t : Tournament) (g : Generator) :
    Individual → Generator → Prop
  /-- Two tournaments over the whole population are held one after the other, and then a point is
  drawn at which the winner of the second one continues the winner of the first one. -/
  | intro {contestants contestants' : List Nat} {first second : Nat} {a b child : Individual}
    {g₁ g₂ g' : Generator} {point : Nat}
    (hfirst : t.Held (p.scoreIn? problem) p.size g contestants first g₁)
    (hsecond : t.Held (p.scoreIn? problem) p.size g₁ contestants' second g₂)
    (ha : p.get? first = some a) (hb : p.get? second = some b)
    (hdrawn : (Generator.index a.size).run g₂ = (.ok point, g')) (hpoint : point < a.size)
    (hchild : a.crossAt b point = .ok child) : Bred p problem t g child g'

namespace Population.Bred

variable {p q : Population} {problem : Problem} {t : Tournament} {g g' : Generator}
  {child : Individual}

lemma unmeasured (h : p.Bred problem t g child g') : child.fitness? = none := by
  obtain ⟨-, -, -, -, -, -, hchild⟩ := h
  exact Individual.fitness?_crossAt hchild

lemma size_eq {genes : Nat} (hgenes : ∀ i ∈ p.individuals, i.size = genes)
    (h : p.Bred problem t g child g') : child.size = genes := by
  obtain ⟨-, -, -, hb, -, -, hchild⟩ := h
  exact (Individual.size_crossAt hchild).trans (hgenes _ (List.mem_of_getElem? hb))

/-- Fitness has no part in breeding, only scores have. -/
lemma of_genes_eq (hgenes : q.genes = p.genes) (h : p.Bred problem t g child g') :
    q.Bred problem t g child g' := by
  obtain ⟨hfirst, hsecond, ha, hb, hdrawn, hpoint, hchild⟩ := h
  obtain ⟨a', ha', hagenes⟩ := get?_of_genes_eq hgenes ha
  obtain ⟨b', hb', hbgenes⟩ := get?_of_genes_eq hgenes hb
  have hsize : a'.size = _ := congrArg List.length hagenes
  rw [← scoreIn?_congr hgenes problem, ← size_eq_of_genes_eq hgenes] at hfirst hsecond
  exact ⟨hfirst, hsecond, ha', hb', hsize ▸ hdrawn, hsize ▸ hpoint,
    (Individual.crossAt_congr hagenes hbgenes _).trans hchild⟩

end Population.Bred

/-- What mutation with probability `p` may make of an individual. -/
structure Mutated (p : Binary64) (i mutant : Individual) : Prop where
  unmeasured : mutant.fitness? = none
  size_eq : mutant.size = i.size
  distance_le : i.hammingDistance mutant ≤ 1
  genes_eq_of_zero : p.sameNumber .zero = true → mutant.genes = i.genes
  distance_of_one : p.sameNumber .one = true → i.hammingDistance mutant = 1

/-- The values are drawn one after the other, the first one from `g` on, and leave the generator at
`g'`; `R` tells what a single draw does. -/
inductive Successive {α : Type} (R : Generator → α → Generator → Prop) :
    Generator → List α → Generator → Prop
  | nil (g : Generator) : Successive R g [] g
  | cons {a : α} {rest : List α} {g g₁ g' : Generator} :
    R g a g₁ → Successive R g₁ rest g' → Successive R g (a :: rest) g'

lemma Successive.exists_of_mem {α : Type} {R : Generator → α → Generator → Prop} {g g' : Generator}
    {values : List α} (h : Successive R g values g') {a : α} (ha : a ∈ values) :
    ∃ g₁ g₂, R g₁ a g₂ := by
  induction h with
  | nil => cases ha
  | cons hR _ ih =>
    rcases List.mem_cons.1 ha with rfl | ha
    · exact ⟨_, _, hR⟩
    · exact ih ha

lemma Successive.imp {α : Type} {R S : Generator → α → Generator → Prop} {g g' : Generator}
    {values : List α} (himp : ∀ g a g', R g a g' → S g a g') (h : Successive R g values g') :
    Successive S g values g' := by
  induction h with
  | nil g => exact .nil g
  | cons hR _ ih => exact .cons (himp _ _ _ hR) ih

namespace Mutated

variable {p : Binary64} {i mutant : Individual}

lemma of_not_chosen {g : Generator} (hchosen : (Generator.chance p g).1 = false)
    (hi : i.fitness? = none) : Mutated p i i where
  unmeasured := hi
  size_eq := rfl
  distance_le := by simp
  genes_eq_of_zero _ := rfl
  distance_of_one hone := by
    rw [Generator.chance_of_one hone] at hchosen
    cases hchosen

lemma of_chosen {g : Generator} (hchosen : (Generator.chance p g).1 = true) {item : Nat}
    (hflip : i.flip item = .ok mutant) : Mutated p i mutant where
  unmeasured := Individual.fitness?_flip hflip
  size_eq := Individual.size_flip hflip
  distance_le := Nat.le_of_eq (Individual.hammingDistance_flip hflip)
  genes_eq_of_zero hzero := by
    rw [Generator.chance_of_zero hzero] at hchosen
    cases hchosen
  distance_of_one _ := Individual.hammingDistance_flip hflip

end Mutated

/-- Mutating individuals with genes never fails. -/
theorem run_mutateEach {p : Binary64} {individuals : List Individual}
    (hsize : ∀ i ∈ individuals, 0 < i.size) (hunmeasured : ∀ i ∈ individuals, i.fitness? = none)
    (g : Generator) :
    ∃ mutants g', (mutateEach p individuals).run g = (.ok mutants, g') ∧
      List.Forall₂ (Mutated p) individuals mutants := by
  induction individuals generalizing g with
  | nil => exact ⟨[], g, rfl, .nil⟩
  | cons i rest ih =>
    have ih := ih (fun j hj => hsize j (by simp [hj])) (fun j hj => hunmeasured j (by simp [hj]))
    have hchance : (liftM (Generator.chance p) : Draw Bool).run g =
        (.ok (Generator.chance p g).1, (Generator.chance p g).2) := rfl
    unfold mutateEach
    rw [Draw.run_bind hchance]
    cases hchosen : (Generator.chance p g).1 with
    | false =>
      obtain ⟨mutants, g', hrest, hmutants⟩ := ih (Generator.chance p g).2
      have hi : Mutated p i i := .of_not_chosen hchosen (hunmeasured i (by simp))
      refine ⟨i :: mutants, g', ?_, .cons hi hmutants⟩
      dsimp only
      rw [if_neg Bool.false_ne_true, Draw.run_bind (Draw.run_pure i _), Draw.run_bind hrest]
      rfl
    | true =>
      obtain ⟨item, mutant, g₁, hmutate, hflip⟩ :=
        i.run_mutate (hsize i (by simp)) (Generator.chance p g).2
      obtain ⟨mutants, g', hrest, hmutants⟩ := ih g₁
      refine ⟨mutant :: mutants, g', ?_, .cons (.of_chosen hchosen hflip) hmutants⟩
      dsimp only
      rw [if_pos rfl, Draw.run_bind hmutate, Draw.run_bind hrest]
      rfl

/-! ## Breeding in a measured population -/

section Breeding

variable {q : Population} {problem : Problem} {genes : Nat} {t : Tournament}

lemma Population.Measured.fitnessIn?_eq (hmeasured : q.Measured problem) :
    Tournament.fitnessIn? q.individuals.toArray = q.scoreIn? problem := by
  funext slot
  rw [Tournament.fitnessIn?, Population.scoreIn?, Population.get?, List.getElem?_toArray]
  cases hi : q.individuals[slot]? with
  | none => rfl
  | some i =>
    obtain ⟨f, hfitness, hscore⟩ := hmeasured i (List.mem_of_getElem? hi)
    exact hfitness.trans (Problem.score?_eq_some_iff.2 hscore).symm

variable (hmeasured : q.Measured problem) (hgenes : ∀ i ∈ q.individuals, i.size = genes)
  (size_pos : 0 < q.size) (genes_pos : 0 < genes) (contestants_pos : 0 < t.size.toNat)

include hmeasured size_pos contestants_pos

lemma run_select_individuals (g : Generator) :
    ∃ contestants slot a g', (t.select q.individuals.toArray).run g = (.ok a, g') ∧
      t.Held (q.scoreIn? problem) q.size g contestants slot g' ∧ q.get? slot = some a := by
  have hpool : ∀ i ∈ q.individuals.toArray, i.fitness?.isSome := by
    intro i hi
    obtain ⟨f, hf, -⟩ := hmeasured i (by simpa using hi)
    rw [hf]
    rfl
  have pool_pos : 0 < q.individuals.toArray.size := size_pos
  obtain ⟨contestants, winner, g', hselect, hheld⟩ :=
    Tournament.run_select pool_pos hpool contestants_pos g
  rw [hmeasured.fitnessIn?_eq] at hheld
  refine ⟨contestants, winner, _, g', hselect, hheld, ?_⟩
  simp [Population.get?]

include hgenes genes_pos

/-- Breeding in a population where everyone has been measured never fails. -/
theorem run_breed (n : Nat) (g : Generator) :
    ∃ children g', (breed t q.individuals.toArray n).run g = (.ok children, g') ∧
      children.length = n ∧ Successive (q.Bred problem t) g children g' := by
  induction n generalizing g with
  | zero => exact ⟨[], g, rfl, rfl, .nil g⟩
  | succ n ih =>
    obtain ⟨contestants, first, a, g₁, hselect, hheld, ha⟩ :=
      run_select_individuals hmeasured size_pos contestants_pos g
    obtain ⟨contestants', second, b, g₂, hselect', hheld', hb⟩ :=
      run_select_individuals hmeasured size_pos contestants_pos g₁
    have hasize := hgenes a (List.mem_of_getElem? ha)
    have hbsize := hgenes b (List.mem_of_getElem? hb)
    obtain ⟨point, child, g₃, hcross, hdrawn, hpoint, hchild⟩ :=
      Individual.run_cross (hasize.trans hbsize.symm) (hasize ▸ genes_pos) g₂
    obtain ⟨children, g', hrest, hlength, hsuccessive⟩ := ih g₃
    refine ⟨child :: children, g', ?_, congrArg (· + 1) hlength,
      .cons (.intro hheld hheld' ha hb hdrawn hpoint hchild) hsuccessive⟩
    rw [breed, Draw.run_bind hselect, Draw.run_bind hselect', Draw.run_bind hcross,
      Draw.run_bind hrest]
    rfl

end Breeding

end KnapsackEvolution
