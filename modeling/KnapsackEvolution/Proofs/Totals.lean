/-
# Totals and scores as integers

The worth and the load of a selection are sums of table entries and exist as natural numbers
whatever the tables hold.  The totals that are added up in 64-bit words exist exactly when both sums
fit into a word, and then they are these sums.  The score reads one word as a signed one, which is
right for words below `2 ^ 63` only: the score says what the selection is worth, or how much too
heavy it is, exactly when that number is a signed word (`Problem.InRange`).  Within that range every
selection that is too heavy scores below every one that fits; outside of it the signs are swapped.
-/
import KnapsackEvolution.Problem
import Mathlib.Algebra.GroupWithZero.Nat
import Mathlib.Data.List.Basic
import Mathlib.Tactic.Lemma

namespace KnapsackEvolution

/-! ## Computations that may end early -/

namespace Except

variable {ε α β : Type} {x : Except ε α} {f : α → Except ε β}

lemma bind_eq_ok {b : β} (h : x >>= f = .ok b) : ∃ a, x = .ok a ∧ f a = .ok b := by
  cases x with
  | error e => cases h
  | ok a => exact ⟨a, rfl, h⟩

lemma bind_eq_error {e : ε} (h : x >>= f = .error e) :
    x = .error e ∨ ∃ a, x = .ok a ∧ f a = .error e := by
  cases x with
  | error e' =>
    cases h
    exact .inl rfl
  | ok a => exact .inr ⟨a, rfl, h⟩

lemma map_eq_error {g : α → β} {e : ε} (h : x.map g = .error e) : x = .error e := by
  cases x with
  | error e' =>
    cases h
    rfl
  | ok a => cases h

end Except

namespace Problem

variable {p : Problem} {genes : List Bool}

/-! ## Sums of words -/

/-- The sum of the entries of a table that a selection takes. -/
def selectedSum : List UInt64 → List Bool → Nat
  | entry :: table, gene :: genes => (if gene then entry.toNat else 0) + selectedSum table genes
  | _, _ => 0

/-- What the selected items are worth together. -/
def worth (p : Problem) (genes : List Bool) : Nat := selectedSum p.values.toList genes

/-- What the selected items weigh together. -/
def load (p : Problem) (genes : List Bool) : Nat := selectedSum p.weights.toList genes

@[simp] lemma selectedSum_nil (table : List UInt64) : selectedSum table [] = 0 := by
  cases table <;> rfl

lemma selectedSum_le_sum (table : List UInt64) (genes : List Bool) :
    selectedSum table genes ≤ (table.map UInt64.toNat).sum := by
  induction table generalizing genes with
  | nil => cases genes <;> simp [selectedSum]
  | cons entry table ih =>
    cases genes with
    | nil => simp
    | cons gene genes =>
      have h := ih genes
      simp only [selectedSum, List.map_cons, List.sum_cons]
      split <;> omega

lemma addWords_eq_ok_iff {a b c : UInt64} :
    addWords a b = .ok c ↔ c.toNat = a.toNat + b.toNat := by
  have hc := c.toNat_lt
  unfold addWords
  constructor
  · intro h
    split at h
    · next hsum =>
      obtain rfl := Except.ok.inj h
      rw [UInt64.toNat_add]
      exact Nat.mod_eq_of_lt hsum
    · cases h
  · intro h
    have hsum : a.toNat + b.toNat < UInt64.size := h ▸ hc
    rw [if_pos hsum]
    refine congrArg Except.ok (UInt64.toNat_inj.1 ?_)
    rw [UInt64.toNat_add, h]
    exact Nat.mod_eq_of_lt hsum

lemma entry_eq {table : Array UInt64} {item : Nat} (h : item < table.size) :
    entry table item = .ok table[item] := dif_pos h

lemma entry_eq_error {table : Array UInt64} {item : Nat} {fault : Fault}
    (h : entry table item = .error fault) :
    table.size ≤ item ∧ fault = .indexOutOfBounds table.size item := by
  unfold entry at h
  split at h
  · cases h
  · next hitem => exact ⟨Nat.not_lt.1 hitem, (Except.error.inj h).symm⟩

lemma drop_eq_entry_cons {table : Array UInt64} {item : Nat} (h : item < table.size) :
    table.toList.drop item = table[item] :: table.toList.drop (item + 1) :=
  List.drop_eq_getElem_cons (by simpa using h)

/-- Adding an item: its value and then its weight are added, and then the other items. -/
lemma totalsFrom_true {item : Nat} {sums : Totals} (hvalue : item < p.values.size)
    (hweight : item < p.weights.size) :
    p.totalsFrom item sums (true :: genes) = (do
      let value ← addWords sums.value p.values[item]
      let weight ← addWords sums.weight p.weights[item]
      p.totalsFrom (item + 1) ⟨value, weight⟩ genes) := by
  simp only [totalsFrom, value, weight, entry_eq hvalue, entry_eq hweight, bind, Except.bind]

lemma totalsFrom_true_eq_ok_iff {item : Nat} {sums t : Totals} (hvalue : item < p.values.size)
    (hweight : item < p.weights.size) :
    p.totalsFrom item sums (true :: genes) = .ok t ↔
      ∃ value weight, addWords sums.value p.values[item] = .ok value ∧
        addWords sums.weight p.weights[item] = .ok weight ∧
        p.totalsFrom (item + 1) ⟨value, weight⟩ genes = .ok t := by
  rw [totalsFrom_true hvalue hweight]
  cases addWords sums.value p.values[item] with
  | error f => simp [bind, Except.bind]
  | ok v =>
    cases addWords sums.weight p.weights[item] with
    | error f => simp [bind, Except.bind]
    | ok w => simp [bind, Except.bind]

/-- The totals exist just when both sums are words, and then they are the sums. -/
lemma totalsFrom_eq_ok_iff {item : Nat} {sums t : Totals}
    (hvalues : item + genes.length ≤ p.values.size)
    (hweights : item + genes.length ≤ p.weights.size) :
    p.totalsFrom item sums genes = .ok t ↔
      t.value.toNat = sums.value.toNat + selectedSum (p.values.toList.drop item) genes ∧
      t.weight.toNat = sums.weight.toNat + selectedSum (p.weights.toList.drop item) genes := by
  induction genes generalizing item sums with
  | nil =>
    cases sums
    cases t
    simp [totalsFrom, UInt64.toNat_inj, eq_comm]
  | cons gene genes ih =>
    have hlength : (gene :: genes).length = genes.length + 1 := rfl
    have hvalue : item < p.values.size := by omega
    have hweight : item < p.weights.size := by omega
    have ih {sums : Totals} := @ih (item + 1) sums (by omega) (by omega)
    rw [drop_eq_entry_cons hvalue, drop_eq_entry_cons hweight]
    cases gene with
    | false => simpa [totalsFrom, selectedSum] using ih
    | true =>
      have hv := t.value.toNat_lt
      have hw := t.weight.toNat_lt
      simp only [totalsFrom_true_eq_ok_iff hvalue hweight, addWords_eq_ok_iff, ih, selectedSum,
        if_true]
      constructor
      · rintro ⟨value, weight, hvalue, hweight, htvalue, htweight⟩
        omega
      · rintro ⟨htvalue, htweight⟩
        -- the sums so far are words because the sums in the end are
        refine ⟨.ofNat (sums.value.toNat + p.values[item].toNat),
          .ofNat (sums.weight.toNat + p.weights[item].toNat), ?_, ?_, ?_⟩
        · exact UInt64.toNat_ofNat_of_lt' (Nat.lt_of_le_of_lt (by omega) hv)
        · exact UInt64.toNat_ofNat_of_lt' (Nat.lt_of_le_of_lt (by omega) hw)
        · rw [UInt64.toNat_ofNat_of_lt' (Nat.lt_of_le_of_lt (by omega) hv),
            UInt64.toNat_ofNat_of_lt' (Nat.lt_of_le_of_lt (by omega) hw)]
          omega

/-- The totals exist just when worth and load are words, and then they are worth and load. -/
theorem totals_eq_ok_iff {t : Totals} (hvalues : genes.length ≤ p.values.size)
    (hweights : genes.length ≤ p.weights.size) :
    p.totals genes = .ok t ↔ t.value.toNat = p.worth genes ∧ t.weight.toNat = p.load genes := by
  have hvalues : 0 + genes.length ≤ p.values.size := by simpa using hvalues
  have hweights : 0 + genes.length ≤ p.weights.size := by simpa using hweights
  rw [totals, totalsFrom_eq_ok_iff hvalues hweights]
  simp [worth, load]

lemma totals_of_words (hvalues : genes.length ≤ p.values.size)
    (hweights : genes.length ≤ p.weights.size) (hworth : p.worth genes < UInt64.size)
    (hload : p.load genes < UInt64.size) :
    p.totals genes = .ok ⟨.ofNat (p.worth genes), .ofNat (p.load genes)⟩ :=
  (totals_eq_ok_iff hvalues hweights).2
    ⟨UInt64.toNat_ofNat_of_lt' hworth, UInt64.toNat_ofNat_of_lt' hload⟩

/-! ## Words as signed words -/

/-- The signed word with the bits of the word `n`. -/
def signed (n : Nat) : Int := if n < UInt64.size / 2 then n else n - UInt64.size

lemma toInt_toInt64 (x : UInt64) : x.toInt64.toInt = signed x.toNat := by
  have h : x.toInt64.toInt = x.toBitVec.toInt := rfl
  rw [h, BitVec.toInt_eq_toNat_cond, UInt64.toNat_toBitVec]
  simp only [signed, UInt64.size]
  split <;> split <;> omega

lemma toInt_neg_of_ne {n : Int64} (h : n ≠ Int64.minValue) : (-n).toInt = -n.toInt := by
  have hmin : n.toInt ≠ Int64.minValue.toInt := fun heq => h (Int64.toInt_inj.1 heq)
  have hle := n.le_toInt
  have hlt := n.toInt_lt
  rw [Int64.toInt_minValue] at hmin
  rw [Int64.toInt_neg]
  exact Int.bmod_eq_of_le (by omega) (by omega)

lemma negate_eq_ok_iff {n m : Int64} :
    negate n = .ok m ↔ n ≠ Int64.minValue ∧ m.toInt = -n.toInt := by
  unfold negate
  by_cases h : n = Int64.minValue
  · simp [h]
  · rw [if_neg h, ← toInt_neg_of_ne h, Int64.toInt_inj]
    simp [h, eq_comm]

lemma toInt64_eq_minValue_iff {x : UInt64} :
    x.toInt64 = Int64.minValue ↔ x.toNat = UInt64.size / 2 := by
  have hx := x.toNat_lt
  rw [← Int64.toInt_inj, toInt_toInt64, Int64.toInt_minValue, signed]
  simp only [UInt64.size]
  split <;> omega

/-! ## Scores -/

/-- The score of totals: a selection that fits has one, and one that is too heavy has one unless
the weight above the capacity is the word in the middle. -/
lemma scoreOf_eq_ok_iff {sums : Totals} {f : Fitness} :
    p.scoreOf sums = .ok f ↔
      if sums.weight.toNat ≤ p.capacity.toNat then f.toInt = signed sums.value.toNat
      else sums.weight.toNat - p.capacity.toNat ≠ UInt64.size / 2 ∧
        f.toInt = -signed (sums.weight.toNat - p.capacity.toNat) := by
  unfold scoreOf
  by_cases hweight : p.capacity < sums.weight
  · have hlt := UInt64.lt_iff_toNat_lt.1 hweight
    rw [if_pos hweight, if_neg (Nat.not_le.2 hlt), negate_eq_ok_iff, toInt_toInt64, ne_eq,
      toInt64_eq_minValue_iff, UInt64.toNat_sub_of_le _ _ (UInt64.le_of_lt hweight)]
  · have hle := Nat.not_lt.1 (mt UInt64.lt_iff_toNat_lt.2 hweight)
    rw [if_neg hweight, if_pos hle, ← toInt_toInt64, Int64.toInt_inj]
    simp [eq_comm]

/-- The score exists just when the totals do and the weight above the capacity is not the word in
the middle. -/
theorem score_eq_ok_iff {f : Fitness} (hvalues : genes.length ≤ p.values.size)
    (hweights : genes.length ≤ p.weights.size) :
    p.score genes = .ok f ↔
      p.worth genes < UInt64.size ∧ p.load genes < UInt64.size ∧
      if p.load genes ≤ p.capacity.toNat then f.toInt = signed (p.worth genes)
      else p.load genes - p.capacity.toNat ≠ UInt64.size / 2 ∧
        f.toInt = -signed (p.load genes - p.capacity.toNat) := by
  unfold score
  constructor
  · intro h
    cases ht : p.totals genes with
    | error fault => rw [ht] at h; cases h
    | ok t =>
      rw [ht] at h
      obtain ⟨hvalue, hweight⟩ := (totals_eq_ok_iff hvalues hweights).1 ht
      have hscore : p.scoreOf t = .ok f := h
      rw [scoreOf_eq_ok_iff, hvalue, hweight] at hscore
      exact ⟨hvalue ▸ t.value.toNat_lt, hweight ▸ t.weight.toNat_lt, hscore⟩
  · rintro ⟨hworth, hload, hscore⟩
    rw [totals_of_words hvalues hweights hworth hload]
    refine scoreOf_eq_ok_iff.2 ?_
    rwa [UInt64.toNat_ofNat_of_lt' hworth, UInt64.toNat_ofNat_of_lt' hload]

/-- A selection can be scored when its sums are words and it is not too heavy by the word in the
middle. -/
lemma exists_score (hvalues : genes.length ≤ p.values.size)
    (hweights : genes.length ≤ p.weights.size)
    (hworth : p.worth genes < UInt64.size) (hload : p.load genes < UInt64.size)
    (hexcess : p.load genes - p.capacity.toNat ≠ UInt64.size / 2) :
    ∃ f, p.score genes = .ok f := by
  by_cases hfits : p.load genes ≤ p.capacity.toNat
  · refine ⟨(UInt64.ofNat (p.worth genes)).toInt64,
      (score_eq_ok_iff hvalues hweights).2 ⟨hworth, hload, ?_⟩⟩
    rw [if_pos hfits, toInt_toInt64, UInt64.toNat_ofNat_of_lt' hworth]
  · have hlt := Nat.lt_of_le_of_lt (Nat.sub_le _ p.capacity.toNat) hload
    have hword := UInt64.toNat_ofNat_of_lt' hlt
    refine ⟨-(UInt64.ofNat (p.load genes - p.capacity.toNat)).toInt64,
      (score_eq_ok_iff hvalues hweights).2 ⟨hworth, hload, ?_⟩⟩
    have hne := mt toInt64_eq_minValue_iff.1 (hword.symm ▸ hexcess)
    rw [if_neg hfits, toInt_neg_of_ne hne, toInt_toInt64, hword]
    exact ⟨hexcess, rfl⟩

/-- The score as an integer: what the selection is worth if it fits, and otherwise minus the weight
above the capacity. -/
def exactScore (p : Problem) (genes : List Bool) : Int :=
  if p.load genes ≤ p.capacity.toNat then p.worth genes else p.capacity.toNat - p.load genes

/-- The exact score is a signed word. -/
def InRange (p : Problem) (genes : List Bool) : Prop :=
  Int64.minValue.toInt ≤ p.exactScore genes ∧ p.exactScore genes ≤ Int64.maxValue.toInt

lemma exactScore_of_fits (h : p.load genes ≤ p.capacity.toNat) :
    p.exactScore genes = p.worth genes := if_pos h

lemma exactScore_of_overweight (h : p.capacity.toNat < p.load genes) :
    p.exactScore genes = -((p.load genes - p.capacity.toNat : Nat) : Int) := by
  rw [exactScore, if_neg (Nat.not_le.2 h)]
  omega

lemma inRange_of_fits (h : p.load genes ≤ p.capacity.toNat) :
    p.InRange genes ↔ p.worth genes < UInt64.size / 2 := by
  rw [InRange, exactScore_of_fits h, Int64.toInt_minValue, Int64.toInt_maxValue]
  simp only [UInt64.size]
  omega

lemma inRange_of_overweight (h : p.capacity.toNat < p.load genes) :
    p.InRange genes ↔ p.load genes - p.capacity.toNat ≤ UInt64.size / 2 := by
  rw [InRange, exactScore_of_overweight h, Int64.toInt_minValue, Int64.toInt_maxValue]
  simp only [UInt64.size]
  omega

section Range

variable {f : Fitness} (hvalues : genes.length ≤ p.values.size)
  (hweights : genes.length ≤ p.weights.size) (h : p.score genes = .ok f)

include hvalues hweights h

/-- A score in range is the exact score. -/
theorem toInt_score_of_inRange (hrange : p.InRange genes) : f.toInt = p.exactScore genes := by
  obtain ⟨-, -, hscore⟩ := (score_eq_ok_iff hvalues hweights).1 h
  rcases Nat.lt_or_ge p.capacity.toNat (p.load genes) with hover | hfits
  · rw [if_neg (Nat.not_le.2 hover)] at hscore
    obtain ⟨hne, hf⟩ := hscore
    have hlt := Nat.lt_of_le_of_ne ((inRange_of_overweight hover).1 hrange) hne
    rw [hf, signed, if_pos hlt, exactScore_of_overweight hover]
  · rw [if_pos hfits] at hscore
    rw [hscore, signed, if_pos ((inRange_of_fits hfits).1 hrange), exactScore_of_fits hfits]

/-- A score out of range has the wrong sign. -/
theorem sign_score_of_not_inRange (hrange : ¬ p.InRange genes) :
    0 ≤ f.toInt ↔ p.capacity.toNat < p.load genes := by
  obtain ⟨hworth, hload, hscore⟩ := (score_eq_ok_iff hvalues hweights).1 h
  rcases Nat.lt_or_ge p.capacity.toNat (p.load genes) with hover | hfits
  · rw [if_neg (Nat.not_le.2 hover)] at hscore
    obtain ⟨-, hf⟩ := hscore
    have hgt := mt (inRange_of_overweight hover).2 hrange
    rw [signed, if_neg (by omega)] at hf
    omega
  · rw [if_pos hfits] at hscore
    have hge := mt (inRange_of_fits hfits).2 hrange
    rw [signed, if_neg hge] at hscore
    omega

/-- The sign of a score tells whether the selection fits, exactly in range. -/
theorem sign_score_iff : (0 ≤ f ↔ p.load genes ≤ p.capacity.toNat) ↔ p.InRange genes := by
  have hzero : 0 ≤ f ↔ 0 ≤ f.toInt := Int64.le_iff_toInt_le
  by_cases hrange : p.InRange genes
  · have hf := toInt_score_of_inRange hvalues hweights h hrange
    rw [exactScore] at hf
    rw [hzero]
    split at hf
    · simp [*]
    · simp [*]
  · have hsign := sign_score_of_not_inRange hvalues hweights h hrange
    rw [hzero, hsign]
    simp only [hrange, iff_false]
    omega

end Range

/-! ## The order of scores -/

/-- The sign of a score tells whether the selection fits exactly when the score is in range.  Of two
selections with scores in range, one that fits scores at least zero and one that is too heavy below
zero; of two that fit the one that is worth more scores higher, and of two that are too heavy the
heavier one scores lower. -/
theorem score_ranks (p : Problem) (htables : p.values.size = p.weights.size) {a b : List Bool}
    (ha : a.length ≤ p.values.size) (hb : b.length ≤ p.values.size) {f g : Fitness}
    (hf : p.score a = .ok f) (hg : p.score b = .ok g) :
    ((0 ≤ f ↔ p.load a ≤ p.capacity.toNat) ↔ p.InRange a) ∧
    (p.InRange a → p.InRange b →
      (p.load a ≤ p.capacity.toNat → p.capacity.toNat < p.load b → g < 0 ∧ 0 ≤ f) ∧
      (p.load a ≤ p.capacity.toNat → p.load b ≤ p.capacity.toNat → p.worth a < p.worth b →
        f < g) ∧
      (p.capacity.toNat < p.load a → p.capacity.toNat < p.load b → p.load a < p.load b →
        g < f)) := by
  have ha' : a.length ≤ p.weights.size := htables ▸ ha
  have hb' : b.length ≤ p.weights.size := htables ▸ hb
  refine ⟨sign_score_iff ha ha' hf, fun hrangeA hrangeB => ?_⟩
  have hfExact := toInt_score_of_inRange ha ha' hf hrangeA
  have hgExact := toInt_score_of_inRange hb hb' hg hrangeB
  rw [Int64.lt_iff_toInt_lt, Int64.lt_iff_toInt_lt, Int64.lt_iff_toInt_lt, Int64.le_iff_toInt_le,
    Int64.toInt_zero]
  refine ⟨?_, ?_, ?_⟩
  · intro hfits hover
    rw [exactScore_of_fits hfits] at hfExact
    rw [exactScore_of_overweight hover] at hgExact
    omega
  · intro hfitsA hfitsB hworth
    rw [exactScore_of_fits hfitsA] at hfExact
    rw [exactScore_of_fits hfitsB] at hgExact
    omega
  · intro hoverA hoverB hload
    rw [exactScore_of_overweight hoverA] at hfExact
    rw [exactScore_of_overweight hoverB] at hgExact
    omega

/-- A weight above the capacity and the largest value that is in range. -/
theorem score_ranks_largest :
    let p : Problem := ⟨#[0x7FFFFFFFFFFFFFFF, 0], #[3, 0x8000000000000000], 3⟩
    p.values.size = p.weights.size ∧ [true, false].length ≤ p.values.size ∧
      [false, true].length ≤ p.values.size ∧
      p.score [true, false] = .ok 0x7FFFFFFFFFFFFFFF ∧
      p.score [false, true] = .ok (-0x7FFFFFFFFFFFFFFD) ∧
      p.InRange [true, false] ∧ p.InRange [false, true] ∧
      (-0x7FFFFFFFFFFFFFFD : Fitness) < 0 ∧ (0 : Fitness) ≤ 0x7FFFFFFFFFFFFFFF := by
  intro p
  have hf : p.score [true, false] = .ok 0x7FFFFFFFFFFFFFFF := by decide +kernel
  have hg : p.score [false, true] = .ok (-0x7FFFFFFFFFFFFFFD) := by decide +kernel
  have hrangeA : p.InRange [true, false] := ⟨by decide, by decide⟩
  have hrangeB : p.InRange [false, true] := ⟨by decide, by decide⟩
  obtain ⟨-, hranks⟩ := score_ranks p rfl (by decide) (by decide) hf hg
  obtain ⟨hsigns, -, -⟩ := hranks hrangeA hrangeB
  exact ⟨rfl, by decide, by decide, hf, hg, hrangeA, hrangeB, hsigns (by decide) (by decide)⟩

/-- Out of range the law fails: a weight far above the capacity gives the greatest score of all. -/
theorem overweight_above_fitting :
    let p : Problem := ⟨#[5], #[0x8000000000000001], 0⟩
    ofTables p.values p.weights p.capacity = .ok p ∧
      p.load [false] ≤ p.capacity.toNat ∧ p.capacity.toNat < p.load [true] ∧
      p.score [false] = .ok 0 ∧ p.score [true] = .ok Int64.maxValue ∧ ¬ Int64.maxValue < 0 := by
  decide +kernel

end Problem

end KnapsackEvolution
