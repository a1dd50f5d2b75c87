/-
# Where totals and scores exist

Totals are added up in words, one item after the other, and a sum on the way that is not a word ends
the addition.  As sums only grow, that happens just when the worth or the load of the selection is
not a word, so the order of the items does not matter.  A score that comes of totals is a fault in
one case, when the selection is too heavy by the word in the middle, whose signed reading has no
negation.  Everywhere else the score is known from the worth, the load and the capacity.
-/
import KnapsackEvolution.Proofs.Totals
import Mathlib.Algebra.Ring.Int.Defs

namespace KnapsackEvolution

namespace Problem

variable {p q : Problem} {genes genes' : List Bool} {fault : Fault}

/-! ## Faults of totals -/

lemma addWords_eq_error {a b : UInt64} (h : addWords a b = .error fault) :
    fault = .addOverflow := by
  unfold addWords at h
  split at h
  · cases h
  · exact (Except.error.inj h).symm

/-- The items that the genes select, the first gene standing for `item`, are in both tables. -/
def Lists (p : Problem) (item : Nat) (genes : List Bool) : Prop :=
  ∀ place, genes[place]? = some true →
    item + place < p.values.size ∧ item + place < p.weights.size

lemma lists_of_length_le {item : Nat} (hvalues : item + genes.length ≤ p.values.size)
    (hweights : item + genes.length ≤ p.weights.size) : p.Lists item genes := by
  intro place h
  have hplace := (List.getElem?_eq_some_iff.1 h).1
  omega

lemma lists_cons_iff {item : Nat} {gene : Bool} :
    p.Lists item (gene :: genes) ↔
      (gene = true → item < p.values.size ∧ item < p.weights.size) ∧ p.Lists (item + 1) genes := by
  constructor
  · intro h
    refine ⟨?_, ?_⟩
    · rintro rfl
      exact h 0 rfl
    · intro place hplace
      have hnext := h (place + 1) hplace
      rwa [← Nat.add_assoc, Nat.add_right_comm] at hnext
  · rintro ⟨hfirst, hrest⟩ (_ | place) hplace
    · exact hfirst (Option.some.inj hplace)
    · have hnext := hrest place hplace
      rwa [Nat.add_right_comm, Nat.add_assoc] at hnext

/-- Within its tables the addition runs into nothing but sums that are not words. -/
lemma totalsFrom_eq_error {item : Nat} {sums : Totals} (hlists : p.Lists item genes)
    (h : p.totalsFrom item sums genes = .error fault) : fault = .addOverflow := by
  induction genes generalizing item sums with
  | nil => cases h
  | cons gene genes ih =>
    obtain ⟨hitem, hrest⟩ := lists_cons_iff.1 hlists
    cases gene with
    | false => exact ih hrest h
    | true =>
      -- both look-ups succeed, so it is one of the two additions or the rest
      obtain ⟨hvalue, hweight⟩ := hitem rfl
      rw [totalsFrom_true hvalue hweight] at h
      rcases Except.bind_eq_error h with hv | ⟨value, -, h⟩
      · exact addWords_eq_error hv
      rcases Except.bind_eq_error h with hw | ⟨weight, -, h⟩
      · exact addWords_eq_error hw
      · exact ih hrest h

/-- The addition overflows just when the worth or the load is not a word. -/
theorem totals_eq_error_iff (hvalues : genes.length ≤ p.values.size)
    (hweights : genes.length ≤ p.weights.size) :
    p.totals genes = .error fault ↔
      fault = .addOverflow ∧ (UInt64.size ≤ p.worth genes ∨ UInt64.size ≤ p.load genes) := by
  have hlists : p.Lists 0 genes :=
    lists_of_length_le (by rwa [Nat.zero_add]) (by rwa [Nat.zero_add])
  constructor
  · intro h
    refine ⟨totalsFrom_eq_error hlists h, ?_⟩
    by_contra hwords
    rw [totals_of_words hvalues hweights (by omega) (by omega)] at h
    cases h
  · rintro ⟨rfl, hsum⟩
    cases ht : p.totals genes with
    | error fault =>
      rw [totalsFrom_eq_error hlists ht]
    | ok t =>
      -- the totals would be words
      obtain ⟨hvalue, hweight⟩ := (totals_eq_ok_iff hvalues hweights).1 ht
      have hv : t.value.toNat < UInt64.size := t.value.toNat_lt
      have hw : t.weight.toNat < UInt64.size := t.weight.toNat_lt
      omega

/-! ## The order of the items -/

/-- The selected ones of a list of items. -/
def picked (items : List (UInt64 × UInt64)) (genes : List Bool) : List (UInt64 × UInt64) :=
  ((items.zip genes).filter (·.2)).map (·.1)

/-- The selected items, each with its value and its weight. -/
def taken (p : Problem) (genes : List Bool) : List (UInt64 × UInt64) :=
  picked (p.values.toList.zip p.weights.toList) genes

lemma selectedSum_map (items : List (UInt64 × UInt64)) (f : UInt64 × UInt64 → UInt64)
    (genes : List Bool) :
    selectedSum (items.map f) genes =
      ((picked items genes).map fun item => (f item).toNat).sum := by
  induction items generalizing genes with
  | nil => cases genes <;> rfl
  | cons item items ih =>
    cases genes with
    | nil => rfl
    | cons gene genes =>
      rw [List.map_cons, selectedSum, ih]
      cases gene <;> simp [picked]

lemma worth_load_eq_sum (htables : p.values.size = p.weights.size) (genes : List Bool) :
    p.worth genes = ((p.taken genes).map fun item => item.1.toNat).sum ∧
      p.load genes = ((p.taken genes).map fun item => item.2.toNat).sum := by
  have hlength : p.values.toList.length = p.weights.toList.length := by simpa using htables
  have hvalues := selectedSum_map (p.values.toList.zip p.weights.toList) Prod.fst genes
  have hweights := selectedSum_map (p.values.toList.zip p.weights.toList) Prod.snd genes
  rw [List.map_fst_zip (Nat.le_of_eq hlength)] at hvalues
  rw [List.map_snd_zip (Nat.le_of_eq hlength.symm)] at hweights
  exact ⟨hvalues, hweights⟩

/-- The totals do not hang on the order in which the items stand. -/
theorem totals_perm (hp : p.values.size = p.weights.size) (hq : q.values.size = q.weights.size)
    (hgenes : genes.length ≤ p.values.size) (hgenes' : genes'.length ≤ q.values.size)
    (h : (q.taken genes').Perm (p.taken genes)) : q.totals genes' = p.totals genes := by
  obtain ⟨hworth, hload⟩ := worth_load_eq_sum hp genes
  obtain ⟨hworth', hload'⟩ := worth_load_eq_sum hq genes'
  rw [(h.map fun item => item.1.toNat).sum_nat, ← hworth] at hworth'
  rw [(h.map fun item => item.2.toNat).sum_nat, ← hload] at hload'
  cases ht : p.totals genes with
  | error fault =>
    rw [totals_eq_error_iff hgenes (hp ▸ hgenes), ← hworth', ← hload'] at ht
    exact (totals_eq_error_iff hgenes' (hq ▸ hgenes')).2 ht
  | ok t =>
    rw [totals_eq_ok_iff hgenes (hp ▸ hgenes), ← hworth', ← hload'] at ht
    exact (totals_eq_ok_iff hgenes' (hq ▸ hgenes')).2 ht

/-! ## Faults of scores -/

lemma negate_eq_error_iff {n : Int64} :
    negate n = .error fault ↔ n = Int64.minValue ∧ fault = .negOverflow := by
  unfold negate
  split
  · simp [*, eq_comm]
  · simp [*]

lemma scoreOf_eq_error_iff {sums : Totals} :
    p.scoreOf sums = .error fault ↔
      sums.weight.toNat = p.capacity.toNat + UInt64.size / 2 ∧ fault = .negOverflow := by
  have hhalf : 0 < UInt64.size / 2 := by decide
  unfold scoreOf
  by_cases hweight : p.capacity < sums.weight
  · have hlt := UInt64.lt_iff_toNat_lt.1 hweight
    rw [if_pos hweight, negate_eq_error_iff, toInt64_eq_minValue_iff,
      UInt64.toNat_sub_of_le _ _ (UInt64.le_of_lt hweight),
      Nat.sub_eq_iff_eq_add' (Nat.le_of_lt hlt)]
  · have hle := Nat.not_lt.1 (mt UInt64.lt_iff_toNat_lt.2 hweight)
    rw [if_neg hweight]
    simp only [reduceCtorEq, false_iff]
    omega

/-- Scoring runs into the faults of the totals, and into one of its own if the selection is too
heavy by the word in the middle. -/
theorem score_eq_error_iff (hvalues : genes.length ≤ p.values.size)
    (hweights : genes.length ≤ p.weights.size) :
    p.score genes = .error fault ↔
      p.totals genes = .error fault ∨
        ((∃ sums, p.totals genes = .ok sums) ∧
          p.load genes = p.capacity.toNat + UInt64.size / 2 ∧ fault = .negOverflow) := by
  unfold score
  cases ht : p.totals genes with
  | error f => simp [bind, Except.bind]
  | ok sums =>
    obtain ⟨-, hweight⟩ := (totals_eq_ok_iff hvalues hweights).1 ht
    show p.scoreOf sums = .error fault ↔ _
    rw [scoreOf_eq_error_iff, hweight]
    simp

/-! ## The domain of the arithmetic -/

/-- Totals exist just when worth and load are words, whatever the order of the items, and then they
are worth and load.  A score exists just when totals do and the selection is not too heavy by
`2 ^ 63`.  It is minus the excess weight, as long as that is less, and otherwise `2 ^ 64` above
that; for a selection that fits it is the worth below `2 ^ 63`, and from there on `2 ^ 64` less. -/
theorem score_domain (p : Problem) (htables : p.values.size = p.weights.size) (genes : List Bool)
    (hgenes : genes.length ≤ p.values.size) :
    (p.totals genes = .error .addOverflow ↔ 2 ^ 64 ≤ p.worth genes ∨ 2 ^ 64 ≤ p.load genes) ∧
    (p.worth genes < 2 ^ 64 → p.load genes < 2 ^ 64 →
      p.totals genes = .ok ⟨.ofNat (p.worth genes), .ofNat (p.load genes)⟩) ∧
    (∀ (q : Problem) (genes' : List Bool), q.values.size = q.weights.size →
      genes'.length ≤ q.values.size → (q.taken genes').Perm (p.taken genes) →
      q.totals genes' = p.totals genes) ∧
    (∀ fault, p.score genes = .error fault ↔
      p.totals genes = .error fault ∨
        ((∃ sums, p.totals genes = .ok sums) ∧ p.load genes = p.capacity.toNat + 2 ^ 63 ∧
          fault = .negOverflow)) ∧
    (p.worth genes < 2 ^ 64 → p.load genes < 2 ^ 64 →
      p.load genes ≠ p.capacity.toNat + 2 ^ 63 →
      ∃ f, p.score genes = .ok f ∧
        (p.capacity.toNat < p.load genes → p.load genes < p.capacity.toNat + 2 ^ 63 →
          f.toInt = -((p.load genes : Int) - p.capacity.toNat)) ∧
        (p.capacity.toNat + 2 ^ 63 < p.load genes →
          f.toInt = 2 ^ 64 - ((p.load genes : Int) - p.capacity.toNat)) ∧
        (p.load genes ≤ p.capacity.toNat → p.worth genes < 2 ^ 63 →
          f.toInt = p.worth genes) ∧
        (p.load genes ≤ p.capacity.toNat → 2 ^ 63 ≤ p.worth genes →
          f.toInt = (p.worth genes : Int) - 2 ^ 64)) := by
  have hgenes' : genes.length ≤ p.weights.size := htables ▸ hgenes
  refine ⟨?_, totals_of_words hgenes hgenes', ?_,
    fun fault => score_eq_error_iff hgenes hgenes', ?_⟩
  · rw [totals_eq_error_iff hgenes hgenes', and_iff_right rfl]
    rfl
  · intro q genes'' hq hlength hperm
    exact totals_perm htables hq hgenes hlength hperm
  · intro hworth hload hexcess
    have hmiddle : p.load genes - p.capacity.toNat ≠ UInt64.size / 2 := by
      simp only [UInt64.size]
      omega
    obtain ⟨f, hf⟩ := exists_score hgenes hgenes' hworth hload hmiddle
    obtain ⟨-, -, hscore⟩ := (score_eq_ok_iff hgenes hgenes').1 hf
    simp only [signed, UInt64.size] at hscore
    refine ⟨f, hf, ?_, ?_, ?_, ?_⟩
    · intro hover hless
      rw [if_neg (Nat.not_le.2 hover), if_pos (by omega)] at hscore
      omega
    · intro hmore
      rw [if_neg (by omega), if_neg (by omega)] at hscore
      omega
    · intro hfits hless
      rwa [if_pos hfits, if_pos (by omega)] at hscore
    · intro hfits hmore
      rwa [if_pos hfits, if_neg (by omega)] at hscore

/-- Two values that add up to the first number that is not a word, in either order; a load that is
too heavy by `2 ^ 63`, one that is too heavy by one more, and a worth of `2 ^ 63` that fits. -/
theorem score_domain_boundary :
    let p : Problem := ⟨#[0x8000000000000000, 0x8000000000000000, 7],
      #[0x8000000000000001, 1, 1], 1⟩
    let q : Problem := ⟨#[0x8000000000000000, 0x8000000000000000], #[1, 0x8000000000000001], 5⟩
    p.totals [true, true] = .error .addOverflow ∧
      q.totals [true, true] = .error .addOverflow ∧
      p.score [true] = .error .negOverflow ∧
      (∃ f, p.score [true, false, true] = .ok f ∧ f.toInt = 0x7FFFFFFFFFFFFFFF) ∧
      ∃ f, p.score [false, true] = .ok f ∧ f.toInt = -0x8000000000000000 := by
  intro p q
  obtain ⟨htotals, -, horder, -, -⟩ := score_domain p rfl [true, true] (by decide)
  obtain ⟨-, hwords, -, hfault, -⟩ := score_domain p rfl [true] (by decide)
  obtain ⟨-, -, -, -, hheavy⟩ := score_domain p rfl [true, false, true] (by decide)
  obtain ⟨-, -, -, -, hfits⟩ := score_domain p rfl [false, true] (by decide)
  have hoverflow : p.totals [true, true] = .error .addOverflow := htotals.2 (by decide)
  refine ⟨hoverflow, ?_, ?_, ?_, ?_⟩
  · have hswap : (q.taken [true, true]).Perm (p.taken [true, true]) := by decide
    rw [horder q [true, true] rfl (by decide) hswap, hoverflow]
  · exact (hfault .negOverflow).2
      (.inr ⟨⟨_, hwords (by decide) (by decide)⟩, by decide, rfl⟩)
  · obtain ⟨f, hf, -, hmore, -, -⟩ := hheavy (by decide) (by decide) (by decide)
    exact ⟨f, hf, (hmore (by decide)).trans (by decide)⟩
  · obtain ⟨f, hf, -, -, -, hmore⟩ := hfits (by decide) (by decide) (by decide)
    exact ⟨f, hf, (hmore (by decide) (by decide)).trans (by decide)⟩

end Problem

end KnapsackEvolution
