/-
# Draws and tournaments

A draw is followed from one place of the stream to the next: `x.run g = (.ok a, g')` says that from
`g` on it gives `a` and leaves the generator at `g'`.

A tournament draws the slots of its contestants and nothing else.  If all of them have been measured
the first of the fittest wins (`Tournament.Held`); otherwise the draw of the first one who has not
been measured is the last (`Tournament.BrokenOff`).
-/
import KnapsackEvolution.Proofs.Populations
import Mathlib.Tactic.Lemma

namespace KnapsackEvolution

/-! ## Draws -/

section Draws

variable {α β : Type} {g g' : Generator}

lemma Draw.run_bind {x : Draw α} {a : α} (h : x.run g = (.ok a, g')) (f : α → Draw β) :
    (x >>= f).run g = (f a).run g' := by
  have hbind : (x >>= f).run g = ExceptT.bindCont f (x.run g).1 (x.run g).2 := rfl
  rw [hbind, h]
  rfl

/-- A draw that fails ends what was to come after it. -/
lemma Draw.run_bind_error {x : Draw α} {e : Failure} (h : x.run g = (.error e, g'))
    (f : α → Draw β) : (x >>= f).run g = (.error e, g') := by
  have hbind : (x >>= f).run g = ExceptT.bindCont f (x.run g).1 (x.run g).2 := rfl
  rw [hbind, h]
  rfl

lemma Draw.run_pure (a : α) (g : Generator) : (pure a : Draw α).run g = (.ok a, g) := rfl

/-- What does not draw leaves the generator where it is. -/
lemma Draw.run_lift_fault {x : Except Fault α} {a : α} (h : x = .ok a) (g : Generator) :
    (liftM x : Draw α).run g = (.ok a, g) := by
  rw [h]
  rfl

lemma Draw.run_lift_error {x : Except Error α} {a : α} (h : x = .ok a) (g : Generator) :
    (liftM x : Draw α).run g = (.ok a, g) := by
  rw [h]
  rfl

lemma Draw.run_lift_of_error {x : Except Error α} {e : Error} (h : x = .error e) (g : Generator) :
    (liftM x : Draw α).run g = (.error (.error e), g) := by
  rw [h]
  rfl

end Draws

namespace Generator

variable {n : Nat}

lemma run_below (n_pos : 0 < n) (g : Generator) :
    (liftM (below n n_pos) : Draw (Fin n)).run g =
      (.ok (below n n_pos g).1, (below n n_pos g).2) := rfl

lemma run_index_eq (n_pos : 0 < n) (g : Generator) :
    (index n).run g = (.ok (below n n_pos g).1.val, (below n n_pos g).2) := by
  rw [index, dif_pos n_pos, Draw.run_bind (run_below n_pos g)]
  rfl

lemma run_index (n_pos : 0 < n) (g : Generator) :
    ∃ i g', (index n).run g = (.ok i, g') ∧ i < n :=
  ⟨_, _, run_index_eq n_pos g, (below n n_pos g).1.isLt⟩

lemma run_indices_succ {count first : Nat} {rest : List Nat} {g g₁ g' : Generator}
    (hfirst : (index n).run g = (.ok first, g₁))
    (hrest : (indices n count).run g₁ = (.ok rest, g')) :
    (indices n (count + 1)).run g = (.ok (first :: rest), g') := by
  rw [indices, Draw.run_bind hfirst, Draw.run_bind hrest]
  rfl

lemma run_indices (n_pos : 0 < n) (count : Nat) (g : Generator) :
    ∃ draws g', (indices n count).run g = (.ok draws, g') ∧ draws.length = count ∧
      ∀ i ∈ draws, i < n := by
  induction count generalizing g with
  | zero => exact ⟨[], g, rfl, rfl, by simp⟩
  | succ count ih =>
    obtain ⟨first, g₁, hfirst, hlt⟩ := run_index n_pos g
    obtain ⟨rest, g', hrest, hlength, hrestlt⟩ := ih g₁
    exact ⟨first :: rest, g', run_indices_succ hfirst hrest, congrArg (· + 1) hlength,
      List.forall_mem_cons.2 ⟨hlt, hrestlt⟩⟩

lemma of_run_indices (n_pos : 0 < n) {count : Nat} {draws : List Nat} {g g' : Generator}
    (h : (indices n count).run g = (.ok draws, g')) :
    draws.length = count ∧ ∀ i ∈ draws, i < n := by
  obtain ⟨draws', g'', h', hdraws⟩ := run_indices n_pos count g
  obtain ⟨hresult, -⟩ := Prod.mk.inj (h'.symm.trans h)
  exact Except.ok.inj hresult ▸ hdraws

end Generator

namespace Tournament

open Population (FirstMax)

/-- The fitness in a slot of a pool, if someone measured is there. -/
def fitnessIn? (pool : Array Individual) (slot : Nat) : Option Fitness :=
  pool[slot]?.bind (·.fitness?)

/-- A tournament that is drawn from `g` on and leaves the generator at `g'`: the contestants are the
next slots drawn, as many as the tournament has, and the first of the best of them wins. -/
structure Held (t : Tournament) (score : Nat → Option Fitness) (slots : Nat) (g : Generator)
    (contestants : List Nat) (winner : Nat) (g' : Generator) : Prop where
  drawn : (Generator.indices slots t.size.toNat).run g = (.ok contestants, g')
  length_eq : contestants.length = t.size.toNat
  wins : ∃ place f, contestants[place]? = some winner ∧ FirstMax score contestants place f

/-- A tournament that breaks off: of the slots that would be drawn from `g` on the one at `place` is
the first in which nobody has been measured, and the generator is left where its draw leaves it. -/
structure BrokenOff (score : Nat → Option Fitness) (slots : Nat) (g : Generator)
    (contestants : List Nat) (place : Nat) (g' : Generator) : Prop where
  drawn : (Generator.indices slots (place + 1)).run g = (.ok (contestants.take (place + 1)), g')
  unmeasured : ∃ slot, contestants[place]? = some slot ∧ score slot = none
  first : ∀ earlier < place, ∃ slot f, contestants[earlier]? = some slot ∧ score slot = some f

section BrokenOff

variable {score : Nat → Option Fitness} {slots slot place : Nat} {f : Fitness}
  {contestants : List Nat} {g g₁ g' : Generator}

lemma BrokenOff.here (hdrawn : (Generator.index slots).run g = (.ok slot, g₁))
    (hnone : score slot = none) : BrokenOff score slots g (slot :: contestants) 0 g₁ := by
  refine ⟨?_, ⟨slot, rfl, hnone⟩, by simp⟩
  have hnothing : (Generator.indices slots 0).run g₁ = (.ok [], g₁) := rfl
  exact Generator.run_indices_succ hdrawn hnothing

lemma BrokenOff.later (hdrawn : (Generator.index slots).run g = (.ok slot, g₁))
    (hsome : score slot = some f) (h : BrokenOff score slots g₁ contestants place g') :
    BrokenOff score slots g (slot :: contestants) (place + 1) g' := by
  refine ⟨Generator.run_indices_succ hdrawn h.drawn, h.unmeasured, ?_⟩
  rintro (_ | earlier) hlt
  · exact ⟨slot, f, rfl, hsome⟩
  · exact h.first earlier (Nat.lt_of_succ_lt_succ hlt)

end BrokenOff

variable {pool : Array Individual} (pool_pos : 0 < pool.size)

include pool_pos

/-- A contestant costs one draw, also one who has not been measured. -/
lemma run_contestant (g : Generator) :
    ∃ (slot : Fin pool.size) (g' : Generator),
      (Generator.index pool.size).run g = (.ok slot.val, g') ∧
      (∀ f, fitnessIn? pool slot.val = some f →
        (contestant pool pool_pos).run g = (.ok (slot, f), g')) ∧
      (fitnessIn? pool slot.val = none →
        (contestant pool pool_pos).run g = (.error (.error (.fitness .unmeasured)), g')) := by
  have hbelow := Generator.run_below pool_pos g
  have hindex := Generator.run_index_eq pool_pos g
  generalize Generator.below pool.size pool_pos g = drawn at hbelow hindex
  obtain ⟨slot, g'⟩ := drawn
  have hfitness : fitnessIn? pool slot.val = pool[slot].fitness? := by simp [fitnessIn?]
  refine ⟨slot, g', hindex, ?_, ?_⟩
  · intro f hf
    rw [hfitness] at hf
    rw [contestant, Draw.run_bind hbelow,
      Draw.run_bind (Draw.run_lift_error (Individual.fitness_eq_ok_iff.2 hf) g')]
    rfl
  · intro hnone
    rw [hfitness] at hnone
    have herror : pool[slot].fitness = .error (.fitness .unmeasured) := by
      rw [Individual.fitness, hnone]
    rw [contestant, Draw.run_bind hbelow,
      Draw.run_bind_error (Draw.run_lift_of_error herror g')]

/-- Further contestants cost one draw each.  While they have been measured the best one so far stays
the first of the best among all that have been drawn, and the first who has not been measured ends
the contest. -/
lemma run_contest (rounds : Nat) {best : Fin pool.size × Fitness} {seen : List Nat} {place : Nat}
    (hbest : seen[place]? = some best.1.val) (hmax : FirstMax (fitnessIn? pool) seen place best.2)
    (g : Generator) :
    ∃ (others : List Nat) (g' : Generator),
      (Generator.indices pool.size rounds).run g = (.ok others, g') ∧
      ((∃ winner : Fin pool.size, (contest pool pool_pos rounds best).run g = (.ok winner, g') ∧
          ∃ place f, (seen ++ others)[place]? = some winner.val ∧
            FirstMax (fitnessIn? pool) (seen ++ others) place f) ∨
        ∃ place g'', BrokenOff (fitnessIn? pool) pool.size g others place g'' ∧
          (contest pool pool_pos rounds best).run g =
            (.error (.error (.fitness .unmeasured)), g'')) := by
  induction rounds generalizing best seen place g with
  | zero =>
    exact ⟨[], g, rfl, .inl ⟨best.1, rfl, place, best.2, by simpa using ⟨hbest, hmax⟩⟩⟩
  | succ rounds ih =>
    obtain ⟨slot, g₁, hindex, hmeasured, hunmeasured⟩ := run_contestant pool_pos g
    cases hf : fitnessIn? pool slot.val with
    | none =>
      -- the others are not drawn any more, but could be
      obtain ⟨others, g', hothers, -⟩ := Generator.run_indices pool_pos rounds g₁
      refine ⟨slot :: others, g', Generator.run_indices_succ hindex hothers,
        .inr ⟨0, g₁, .here hindex hf, ?_⟩⟩
      rw [contest, Draw.run_bind_error (hunmeasured hf)]
    | some f =>
      -- whoever is the best now is in some place of the slots drawn so far
      have hnext : ∃ (next : Fin pool.size × Fitness) (place' : Nat),
          (seen ++ [slot.val])[place']? = some next.1.val ∧
          FirstMax (fitnessIn? pool) (seen ++ [slot.val]) place' next.2 ∧
          (contest pool pool_pos (rounds + 1) best).run g =
            (contest pool pool_pos rounds next).run g₁ := by
        by_cases hlt : best.2 < f
        · refine ⟨(slot, f), seen.length, by simp, hmax.snoc_gt hf hlt, ?_⟩
          rw [contest, Draw.run_bind (hmeasured f hf), if_pos hlt]
        · refine ⟨best, place, ?_, hmax.snoc_old hf (Int64.not_lt.1 hlt), ?_⟩
          · rw [List.getElem?_append_left hmax.lt_length, hbest]
          · rw [contest, Draw.run_bind (hmeasured f hf), if_neg hlt]
      obtain ⟨next, place', hplace, hnextMax, hcontest⟩ := hnext
      obtain ⟨others, g', hothers, hend⟩ := ih hplace hnextMax g₁
      refine ⟨slot :: others, g', Generator.run_indices_succ hindex hothers, ?_⟩
      rw [hcontest]
      rcases hend with ⟨winner, hwinner, hwins⟩ | ⟨stop, g'', hbroken, herror⟩
      · exact .inl ⟨winner, hwinner, by simpa using hwins⟩
      · exact .inr ⟨stop + 1, g'', hbroken.later hindex hf, herror⟩

/-- A tournament is held, or it breaks off. -/
theorem run_winner_or {t : Tournament} (size_pos : 0 < t.size.toNat) (g : Generator) :
    ∃ (contestants : List Nat) (g' : Generator),
      (Generator.indices pool.size t.size.toNat).run g = (.ok contestants, g') ∧
      ((∃ winner : Fin pool.size, (t.winner pool).run g = (.ok winner, g') ∧
          t.Held (fitnessIn? pool) pool.size g contestants winner g') ∨
        ∃ place g'', BrokenOff (fitnessIn? pool) pool.size g contestants place g'' ∧
          (t.winner pool).run g = (.error (.error (.fitness .unmeasured)), g'')) := by
  obtain ⟨rounds, hsize⟩ := Nat.exists_eq_add_one.2 size_pos
  obtain ⟨slot, g₁, hindex, hmeasured, hunmeasured⟩ := run_contestant pool_pos g
  have hwinner : t.winner pool = (contestant pool pool_pos >>= contest pool pool_pos rounds) := by
    rw [winner, dif_pos pool_pos]
    simp only [hsize]
  cases hf : fitnessIn? pool slot.val with
  | none =>
    obtain ⟨others, g', hothers, -⟩ := Generator.run_indices pool_pos rounds g₁
    rw [hsize, hwinner]
    exact ⟨slot :: others, g', Generator.run_indices_succ hindex hothers,
      .inr ⟨0, g₁, .here hindex hf, Draw.run_bind_error (hunmeasured hf) _⟩⟩
  | some f =>
    have hslot : ([] ++ [slot.val])[0]? = some (slot, f).1.val := rfl
    have hfirst : FirstMax (fitnessIn? pool) ([] ++ [slot.val]) 0 (slot, f).2 :=
      FirstMax.snoc_new hf (by simp)
    obtain ⟨others, g', hothers, hend⟩ := run_contest pool_pos rounds hslot hfirst g₁
    have hdrawn := Generator.run_indices_succ hindex hothers
    rw [← hsize] at hdrawn
    refine ⟨slot :: others, g', hdrawn, ?_⟩
    rw [hwinner, Draw.run_bind (hmeasured f hf)]
    rcases hend with ⟨winner, hcontest, hwins⟩ | ⟨place, g'', hbroken, herror⟩
    · exact .inl ⟨winner, hcontest, hdrawn, (Generator.of_run_indices pool_pos hdrawn).1,
        by simpa using hwins⟩
    · exact .inr ⟨place + 1, g'', hbroken.later hindex hf, herror⟩

variable (hmeasured : ∀ i ∈ pool, i.fitness?.isSome)

include hmeasured

/-- A tournament in a pool where everyone has been measured is held. -/
theorem run_winner {t : Tournament} (size_pos : 0 < t.size.toNat) (g : Generator) :
    ∃ (contestants : List Nat) (winner : Fin pool.size) (g' : Generator),
      (t.winner pool).run g = (.ok winner, g') ∧
      t.Held (fitnessIn? pool) pool.size g contestants winner g' := by
  obtain ⟨contestants, g', hdrawn, hend⟩ := run_winner_or pool_pos size_pos g
  rcases hend with ⟨winner, hwinner, hheld⟩ | ⟨place, g'', hbroken, -⟩
  · exact ⟨contestants, winner, g', hwinner, hheld⟩
  · -- whoever would break it off has been measured
    obtain ⟨slot, hslot, hnone⟩ := hbroken.unmeasured
    have hlt := (Generator.of_run_indices pool_pos hdrawn).2 slot (List.mem_of_getElem? hslot)
    have hsome := hmeasured pool[slot] (Array.getElem_mem hlt)
    simp only [fitnessIn?, Array.getElem?_eq_getElem hlt, Option.bind_some] at hnone
    rw [hnone] at hsome
    cases hsome

lemma run_select {t : Tournament} (size_pos : 0 < t.size.toNat) (g : Generator) :
    ∃ (contestants : List Nat) (winner : Fin pool.size) (g' : Generator),
      (t.select pool).run g = (.ok pool[winner], g') ∧
      t.Held (fitnessIn? pool) pool.size g contestants winner g' := by
  obtain ⟨contestants, winner, g', hwinner, hheld⟩ := run_winner pool_pos hmeasured size_pos g
  refine ⟨contestants, winner, g', ?_, hheld⟩
  rw [select, Draw.run_bind hwinner]
  rfl

end Tournament

end KnapsackEvolution
