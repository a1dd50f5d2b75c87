/-
# Gene counts

Every individual of a population has one gene for each item of the problem.  Drawing makes such
individuals, and crossing two of them or mutating one gives such individuals again, so the chunk
functions of a generation give no others.  Draws are looked at through `Draw.Ensures`: whatever
value a draw gives, it is of the stated kind.  A draw that is repeated (`Sample.times`) gives the
same values first, however often it is repeated.
-/
import KnapsackEvolution.Proofs.Populations
import Mathlib.Tactic.Lemma

namespace KnapsackEvolution

/-! ## What draws ensure -/

/-- Every value that the draw can give satisfies `P`. -/
def Draw.Ensures {α : Type} (x : Draw α) (P : α → Prop) : Prop :=
  ∀ (g : Generator) (a : α), (x.run g).1 = .ok a → P a

namespace Draw.Ensures

variable {α β : Type} {P : α → Prop} {Q : β → Prop}

lemma pure {a : α} (h : P a) : Ensures (Pure.pure a) P := by
  intro g b hb
  obtain rfl : a = b := Except.ok.inj hb
  exact h

lemma bind {x : Draw α} {f : α → Draw β} (hx : x.Ensures P)
    (hf : ∀ a, P a → (f a).Ensures Q) : Ensures (x >>= f) Q := by
  intro g b hb
  have hstep : (x >>= f).run g = ExceptT.bindCont f (x.run g).1 (x.run g).2 := rfl
  rw [hstep] at hb
  cases hr : (x.run g).1 with
  | error e => rw [hr] at hb; cases hb
  | ok a =>
    rw [hr] at hb
    exact hf a (hx g a hr) _ b hb

lemma trivial (x : Draw α) : x.Ensures fun _ => True := by
  intro g a _
  exact True.intro

lemma lift (x : Except Fault α) : Ensures (liftM x) fun a => x = .ok a := by
  intro g a ha
  cases x with
  | error e => cases ha
  | ok b =>
    obtain rfl : b = a := Except.ok.inj ha
    rfl

end Draw.Ensures

/-! ## Repeated draws -/

namespace Sample

variable {α : Type}

/-- The results of drawing `n` times, one after the other. -/
def times (x : Sample α) : Nat → Sample (List α)
  | 0 => pure []
  | n + 1 => do
    let first ← x
    let rest ← times x n
    return first :: rest

/-- After `m` draws the next `n` go on where the generator was left. -/
lemma run_times_add (x : Sample α) (m n : Nat) (g : Generator) :
    (times x (m + n)).run g =
      (((times x m).run g).1 ++ ((times x n).run ((times x m).run g).2).1,
        ((times x n).run ((times x m).run g).2).2) := by
  induction m generalizing g with
  | zero =>
    rw [Nat.zero_add]
    rfl
  | succ m ih =>
    rw [Nat.succ_add]
    show (((x.run g).1 :: ((times x (m + n)).run (x.run g).2).1,
      ((times x (m + n)).run (x.run g).2).2) : List α × Generator) = _
    rw [ih]
    rfl

lemma length_times (x : Sample α) (n : Nat) (g : Generator) :
    ((times x n).run g).1.length = n := by
  induction n generalizing g with
  | zero => rfl
  | succ n ih => exact congrArg (· + 1) (ih _)

lemma take_times (x : Sample α) {m n : Nat} (h : m ≤ n) (g : Generator) :
    ((times x n).run g).1.take m = ((times x m).run g).1 := by
  obtain ⟨k, rfl⟩ := Nat.exists_eq_add_of_le h
  rw [run_times_add]
  exact List.take_left' (length_times x m g)

lemma forall_mem_times {x : Sample α} {P : α → Prop} (h : ∀ g, P (x.run g).1) (n : Nat)
    (g : Generator) : ∀ a ∈ ((times x n).run g).1, P a := by
  induction n generalizing g with
  | zero => exact fun a ha => absurd ha List.not_mem_nil
  | succ n ih => exact List.forall_mem_cons.2 ⟨h g, ih _⟩

end Sample

open Draw (Ensures)

/-! ## Individuals -/

lemma Tournament.ensures_select (t : Tournament) (pool : Array Individual) :
    (t.select pool).Ensures fun i => i ∈ pool := by
  refine .bind (.trivial _) ?_
  intro slot _
  exact .pure (Array.getElem_mem slot.isLt)

namespace Individual

lemma ensures_cross (a b : Individual) : (a.cross b).Ensures fun child => child.size = b.size := by
  refine .bind (.trivial _) ?_
  intro point _ g child h
  exact size_crossAt (Draw.Ensures.lift _ g child h)

lemma ensures_mutate (i : Individual) : i.mutate.Ensures fun mutant => mutant.size = i.size := by
  refine .bind (.trivial _) ?_
  intro item _ g mutant h
  exact size_flip (Draw.Ensures.lift _ g mutant h)

lemma size_random (n : Nat) (g : Generator) : ((random n).run g).1.size = n := by
  show (Generator.coins n g).1.length = n
  induction n generalizing g with
  | zero => rfl
  | succ n ih => exact congrArg (· + 1) (ih _)

end Individual

variable {genes : Nat}

/-- A pool with so many genes each breeds children with so many genes. -/
theorem ensures_breed {t : Tournament} {pool : Array Individual}
    (hpool : ∀ i ∈ pool, i.size = genes) (n : Nat) :
    (breed t pool n).Ensures fun children => ∀ child ∈ children, child.size = genes := by
  induction n with
  | zero => exact .pure (by simp)
  | succ n ih =>
    -- a child has as many genes as its second parent, who is from the pool
    unfold breed
    refine .bind (t.ensures_select pool) ?_
    intro first _
    refine .bind (t.ensures_select pool) ?_
    intro second hsecond
    refine .bind (first.ensures_cross second) ?_
    intro child hchild
    refine .bind ih ?_
    intro rest hrest
    refine .pure ?_
    rintro i (_ | ⟨_, hi⟩)
    · exact hchild.trans (hpool second hsecond)
    · exact hrest i hi

/-- Individuals with so many genes each mutate into such individuals. -/
theorem ensures_mutateEach {p : Binary64} {individuals : List Individual}
    (h : ∀ i ∈ individuals, i.size = genes) :
    (mutateEach p individuals).Ensures fun mutants => ∀ i ∈ mutants, i.size = genes := by
  induction individuals with
  | nil => exact .pure (by simp)
  | cons i rest ih =>
    have hi : i.size = genes := h i (by simp)
    have hrest : ∀ first : Individual, first.size = genes →
        Ensures (do
          let mutants ← mutateEach p rest
          return first :: mutants) fun mutants => ∀ j ∈ mutants, j.size = genes := by
      intro first hfirst
      refine .bind (ih fun j hj => h j (by simp [hj])) ?_
      intro mutants hmutants
      refine .pure ?_
      rintro j (_ | ⟨_, hj⟩)
      · exact hfirst
      · exact hmutants j hj
    unfold mutateEach
    -- whether the individual is chosen does not matter to its gene count
    refine .bind (.trivial _) ?_
    intro chosen _
    dsimp only
    split
    · refine .bind i.ensures_mutate ?_
      intro first hfirst
      exact hrest first (hfirst.trans hi)
    · exact .bind (.pure hi) hrest

/-! ## Populations -/

/-- There are `size` individuals with `genes` genes each. -/
structure Population.Shaped (size genes : Nat) (p : Population) : Prop where
  size_eq : p.size = size
  genes_eq : ∀ i ∈ p.individuals, i.size = genes

namespace Population

variable {size : Nat}

lemma Shaped.of_genes_eq {p q : Population} (h : p.Shaped size genes) (hgenes : q.genes = p.genes) :
    q.Shaped size genes := by
  refine ⟨(size_eq_of_genes_eq hgenes).trans h.size_eq, ?_⟩
  intro i hi
  have hmem : i.genes ∈ p.genes := hgenes ▸ mem_genes hi
  obtain ⟨j, hj, hji⟩ := List.mem_map.1 hmem
  rw [Individual.size, ← hji]
  exact h.genes_eq j hj

lemma individuals_random (size genes : Nat) (g : Generator) :
    ((random size genes).run g).1.individuals =
      ((Sample.times (Individual.random genes) size).run g).1 := by
  have htimes : drawIndividuals genes size = Sample.times (Individual.random genes) size := by
    induction size with
    | zero => rfl
    | succ size ih => rw [drawIndividuals, Sample.times, ih]
  rw [← htimes]
  rfl

/-- A drawn population has the shape that was asked for. -/
theorem shaped_random (size genes : Nat) (g : Generator) :
    ((random size genes).run g).1.Shaped size genes := by
  constructor
  · rw [Population.size, individuals_random]
    exact Sample.length_times _ size g
  · rw [individuals_random]
    exact Sample.forall_mem_times (Individual.size_random genes) size g

lemma fitness?_random (size genes : Nat) (g : Generator) :
    ∀ i ∈ ((random size genes).run g).1.individuals, i.fitness? = none := by
  rw [individuals_random]
  exact Sample.forall_mem_times (fun _ => rfl) size g

end Population

end KnapsackEvolution
