/-
# What crossing conserves

A child has the genes of one parent up to a point and those of the other from there on.  So it lies
between its parents: wherever they differ it differs from one of them only.  The two children that
the same parents have at the same point share out the genes of both, place by place, so whatever is
counted or added up over the selected items comes to the same for the children as for the parents
(`Individual.Shares`).

Sums of words need not exist.  A selection has totals if all of its items are in the tables of the
problem (`Problem.Lists`), unless a sum is not a word; the children select no item that no parent
selects.
-/
import KnapsackEvolution.Proofs.Offspring
import KnapsackEvolution.Proofs.Overflows

namespace KnapsackEvolution

namespace Problem

variable {p : Problem} {genes front back : List Bool} {item : Nat}

/-! ## Selections in parts -/

lemma selectedSum_append (table : List UInt64) (front back : List Bool) :
    selectedSum table (front ++ back) =
      selectedSum table front + selectedSum (table.drop front.length) back := by
  induction front generalizing table with
  | nil => simp
  | cons gene front ih =>
    cases table with
    | nil => simp [selectedSum]
    | cons entry table =>
      rw [List.cons_append, selectedSum, selectedSum, ih, List.length_cons, List.drop_succ_cons,
        Nat.add_assoc]

lemma lists_append_iff :
    p.Lists item (front ++ back) ↔ p.Lists item front ∧ p.Lists (item + front.length) back := by
  induction front generalizing item with
  | nil => simp [Lists]
  | cons gene front ih =>
    rw [List.cons_append, lists_cons_iff, lists_cons_iff, ih, and_assoc, List.length_cons,
      Nat.add_assoc item 1, Nat.add_comm 1]

/-! ## Totals on any tables -/

lemma lt_size_of_entry {table : Array UInt64} {word : UInt64} (h : entry table item = .ok word) :
    item < table.size := by
  unfold entry at h
  split at h
  · assumption
  · cases h

lemma totalsFrom_eq_ok {sums t : Totals} (h : p.totalsFrom item sums genes = .ok t) :
    p.Lists item genes ∧
      t.value.toNat = sums.value.toNat + selectedSum (p.values.toList.drop item) genes ∧
      t.weight.toNat = sums.weight.toNat + selectedSum (p.weights.toList.drop item) genes := by
  induction genes generalizing item sums with
  | nil =>
    obtain rfl := Except.ok.inj h
    simp [Lists]
  | cons gene genes ih =>
    cases gene with
    | false =>
      -- an item that is not selected adds nothing, whether it is in the tables or not
      have hskip : ∀ table : List UInt64, selectedSum (table.drop item) (false :: genes) =
          selectedSum (table.drop (item + 1)) genes := by
        intro table
        have happend := selectedSum_append (table.drop item) [false] genes
        have hnone : selectedSum (table.drop item) [false] = 0 := by
          cases table.drop item <;> simp [selectedSum]
        rwa [hnone, Nat.zero_add, List.length_singleton, List.drop_drop] at happend
      rw [hskip, hskip, lists_cons_iff]
      simpa using ih h
    | true =>
      -- the item is looked up in one table and then in the other
      obtain ⟨entry, hentry, h'⟩ := Except.bind_eq_ok h
      obtain ⟨_, -, h'⟩ := Except.bind_eq_ok h'
      obtain ⟨entry', hentry', -⟩ := Except.bind_eq_ok h'
      have hvalue : item < p.values.size := lt_size_of_entry hentry
      have hweight : item < p.weights.size := lt_size_of_entry hentry'
      obtain ⟨value, weight, hv, hw, h⟩ := (totalsFrom_true_eq_ok_iff hvalue hweight).1 h
      obtain ⟨hrest, htvalue, htweight⟩ := ih h
      rw [addWords_eq_ok_iff] at hv hw
      rw [drop_eq_entry_cons hvalue, drop_eq_entry_cons hweight, lists_cons_iff, selectedSum,
        selectedSum]
      simp only [if_true]
      refine ⟨⟨fun _ => ⟨hvalue, hweight⟩, hrest⟩, ?_, ?_⟩
      · rw [htvalue, hv, Nat.add_assoc]
      · rw [htweight, hw, Nat.add_assoc]

lemma totals_eq_ok {t : Totals} (h : p.totals genes = .ok t) :
    p.Lists 0 genes ∧ t.value.toNat = p.worth genes ∧ t.weight.toNat = p.load genes := by
  obtain ⟨hlists, hvalue, hweight⟩ := totalsFrom_eq_ok h
  exact ⟨hlists, by simpa [worth] using hvalue, by simpa [load] using hweight⟩

/-- Items in the tables have totals unless a sum is not a word. -/
lemma exists_totals (hlists : p.Lists 0 genes) (hwords : p.totals genes ≠ .error .addOverflow) :
    ∃ t, p.totals genes = .ok t := by
  cases ht : p.totals genes with
  | ok t => exact ⟨t, rfl⟩
  | error fault =>
    rw [ht, totalsFrom_eq_error hlists ht] at hwords
    exact absurd rfl hwords

end Problem

namespace Individual

variable {a b child child' : Individual} {front front' back back' : List Bool}

/-! ## Distances -/

lemma hammingDistance_comm (a b : Individual) : a.hammingDistance b = b.hammingDistance a := by
  unfold hammingDistance
  rw [List.zipWith_comm]
  congr 2
  funext g h
  exact bne_comm

lemma hammingDistance_append (h : front.length = front'.length) :
    (ofGenes (front ++ back)).hammingDistance (ofGenes (front' ++ back')) =
      (ofGenes front).hammingDistance (ofGenes front') +
        (ofGenes back).hammingDistance (ofGenes back') := by
  unfold hammingDistance
  simp only [genes_ofGenes]
  rw [List.zipWith_append h, List.count_append]

/-! ## Children -/

/-- The children share out what the parents have. -/
structure Shares (a b child child' : Individual) : Prop where
  /-- A child lies between its parents. -/
  between : child.hammingDistance a + child.hammingDistance b = a.hammingDistance b
  selectedCount : child.selectedCount + child'.selectedCount = a.selectedCount + b.selectedCount
  /-- If the parents have totals on a problem, so have the children unless one of their sums is not
  a word, and the totals add up to those of the parents. -/
  totals : ∀ (p : Problem) (ta tb : Problem.Totals),
    p.totals a.genes = .ok ta → p.totals b.genes = .ok tb →
    p.totals child.genes ≠ .error .addOverflow → p.totals child'.genes ≠ .error .addOverflow →
    ∃ t t', p.totals child.genes = .ok t ∧ p.totals child'.genes = .ok t' ∧
      t.value.toNat + t'.value.toNat = ta.value.toNat + tb.value.toNat ∧
      t.weight.toNat + t'.weight.toNat = ta.weight.toNat + tb.weight.toNat

/-- Selections that swap their backs share out what they had. -/
theorem shares_append (h : front.length = front'.length) :
    Shares (ofGenes (front ++ back)) (ofGenes (front' ++ back')) (ofGenes (front ++ back'))
      (ofGenes (front' ++ back)) where
  between := by
    rw [hammingDistance_append rfl, hammingDistance_append h, hammingDistance_append h,
      hammingDistance_self, hammingDistance_self, hammingDistance_comm (ofGenes back')]
    omega
  selectedCount := by
    simp only [Individual.selectedCount, genes_ofGenes, List.count_append]
    omega
  totals := by
    intro p ta tb ha hb hwords hwords'
    obtain ⟨hlists, hvalue, hweight⟩ := Problem.totals_eq_ok ha
    obtain ⟨hlists', hvalue', hweight'⟩ := Problem.totals_eq_ok hb
    -- an item that a child selects has been selected by a parent
    obtain ⟨hfront, hback⟩ := Problem.lists_append_iff.1 hlists
    obtain ⟨hfront', hback'⟩ := Problem.lists_append_iff.1 hlists'
    obtain ⟨t, ht⟩ := Problem.exists_totals (Problem.lists_append_iff.2 ⟨hfront, h ▸ hback'⟩) hwords
    obtain ⟨t', ht'⟩ :=
      Problem.exists_totals (Problem.lists_append_iff.2 ⟨hfront', h ▸ hback⟩) hwords'
    obtain ⟨-, htvalue, htweight⟩ := Problem.totals_eq_ok ht
    obtain ⟨-, htvalue', htweight'⟩ := Problem.totals_eq_ok ht'
    simp only [genes_ofGenes, Problem.worth, Problem.load, Problem.selectedSum_append, h] at *
    exact ⟨t, t', ht, ht', by omega, by omega⟩

/-- The two children of parents with equally many genes share out what the parents have. -/
lemma shares_cut (hsize : a.size = b.size) (point : Nat) :
    Shares a b (ofGenes (a.genes.take point ++ b.genes.drop point))
      (ofGenes (b.genes.take point ++ a.genes.drop point)) := by
  have hfront : (a.genes.take point).length = (b.genes.take point).length := by
    rw [List.length_take, List.length_take]
    exact congrArg (min point) hsize
  have hshares : Shares (ofGenes (a.genes.take point ++ a.genes.drop point))
      (ofGenes (b.genes.take point ++ b.genes.drop point)) _ _ := shares_append hfront
  rw [List.take_append_drop, List.take_append_drop] at hshares
  -- a fitness that a parent has does not count
  exact ⟨hshares.between, hshares.selectedCount, hshares.totals⟩

/-- Two selections cross at a point, cut off at the end of the first one, unless that is past the
end of the second one, which is a fault.  The child has the gene count of the second one and has not
been measured.  If the two have equally many genes, they can be crossed at any point and both ways
round, the child lies between them, and the two children share out what their parents have: the
selected items and, on any problem on which no sum overflows, values and weights. -/
theorem crossing_conserves (a b : Individual) (point : Nat) :
    (b.size < min point a.size →
      a.crossAt b point = .error (.tailOutOfRange (min point a.size) b.size)) ∧
    (min point a.size ≤ b.size → ∃ child, a.crossAt b point = .ok child ∧
      child.size = b.size ∧ child.fitness? = none) ∧
    (a.size = b.size → ∃ child child', a.crossAt b point = .ok child ∧
      b.crossAt a point = .ok child' ∧ child.size = a.size ∧ child.fitness? = none ∧
      Shares a b child child') := by
  refine ⟨?_, ?_, ?_⟩
  · intro hpast
    exact if_neg (Nat.not_le.2 hpast)
  · intro hpoint
    have hcross : a.crossAt b point = .ok
        (ofGenes (a.genes.take (min point a.size) ++ b.genes.drop (min point a.size))) :=
      if_pos hpoint
    exact ⟨_, hcross, size_crossAt hcross, rfl⟩
  · intro hsize
    have hcross : a.crossAt b point = .ok
        (ofGenes (a.genes.take (min point a.size) ++ b.genes.drop (min point a.size))) :=
      if_pos (hsize ▸ Nat.min_le_right point a.size)
    have hcross' : b.crossAt a point = .ok
        (ofGenes (b.genes.take (min point a.size) ++ a.genes.drop (min point a.size))) := by
      rw [hsize]
      exact if_pos (hsize.symm ▸ Nat.min_le_right point b.size)
    exact ⟨_, _, hcross, hcross', (size_crossAt hcross).trans hsize.symm, rfl, shares_cut hsize _⟩

/-- Three genes on each side, crossed behind the first one: values and weights of the children add
up to those of the parents.  A mate with one gene is too short for the second point; the other way
round every point is cut off in time. -/
theorem crossing_conserves_three :
    let a : Individual := ⟨[true, true, false], some 12⟩
    let b : Individual := .ofGenes [false, false, true]
    let short : Individual := .ofGenes [true]
    let p : Problem := ⟨#[5, 7, 9], #[1, 2, 3], 4⟩
    a.size = b.size ∧
    (∃ child child' t t', a.crossAt b 1 = .ok child ∧ b.crossAt a 1 = .ok child' ∧
      child.hammingDistance a + child.hammingDistance b = 3 ∧
      p.totals child.genes = .ok t ∧ p.totals child'.genes = .ok t' ∧
      t.value.toNat + t'.value.toNat = 21 ∧ t.weight.toNat + t'.weight.toNat = 6) ∧
    a.crossAt short 2 = .error (.tailOutOfRange 2 1) ∧
    ∃ child, short.crossAt a 7 = .ok child ∧ child.size = 3 := by
  intro a b short p
  obtain ⟨-, -, hequal⟩ := crossing_conserves a b 1
  obtain ⟨child, child', hcross, hcross', -, -, hshares⟩ := hequal rfl
  have ha : p.totals a.genes = .ok ⟨12, 3⟩ := by decide
  have hb : p.totals b.genes = .ok ⟨9, 3⟩ := by decide
  obtain rfl : ofGenes [true, false, true] = child := Except.ok.inj hcross
  obtain rfl : ofGenes [false, true, false] = child' := Except.ok.inj hcross'
  obtain ⟨t, t', ht, ht', hvalue, hweight⟩ :=
    hshares.totals p _ _ ha hb (by decide) (by decide)
  obtain ⟨hpast, -, -⟩ := crossing_conserves a short 2
  obtain ⟨-, hshort, -⟩ := crossing_conserves short a 7
  obtain ⟨child, hchild, hsize, -⟩ := hshort (by decide)
  exact ⟨rfl, ⟨_, _, t, t', hcross, hcross', hshares.between, ht, ht', hvalue, hweight⟩,
    hpast (by decide), child, hchild, hsize⟩

end Individual

end KnapsackEvolution
