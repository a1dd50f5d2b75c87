/-
# Replays of tournaments

What a tournament comes to is known from the slots that a copy of its generator draws.  If all of
them hold somebody with a fitness, the first of the fittest wins, and the generator has made all the
draws.  If not, the first draw of somebody without a fitness is the last one, and the generator is
left there for whatever is drawn next.
-/
import KnapsackEvolution.Proofs.Tournaments

namespace KnapsackEvolution

namespace Tournament

open Population (FirstMax)

variable {t : Tournament} {pool : Array Individual} {g : Generator}

lemma select_of_empty (h : pool.size = 0) (g : Generator) :
    (t.select pool).run g = (.error (.error .emptyPopulation), g) := by
  have hwinner : (t.winner pool).run g = (.error (.error .emptyPopulation), g) := by
    rw [winner, dif_neg (by omega)]
    rfl
  rw [select, Draw.run_bind_error hwinner]

lemma select_of_size_zero (pool_pos : 0 < pool.size) (h : t.size.toNat = 0) (g : Generator) :
    (t.select pool).run g = (.error (.error (.configuration .emptyTournament)), g) := by
  have hwinner : (t.winner pool).run g =
      (.error (.error (.configuration .emptyTournament)), g) := by
    rw [winner, dif_pos pool_pos]
    simp only [h]
    rfl
  rw [select, Draw.run_bind_error hwinner]

/-- Nobody wins against the best slot of the pool. -/
theorem fitness_le_best (pool_pos : 0 < pool.size) (size_pos : 0 < t.size.toNat)
    (hmeasured : ∀ i ∈ pool, i.fitness?.isSome) (g : Generator) :
    ∃ i g' f slot best f', (t.select pool).run g = (.ok i, g') ∧ i.fitness? = some f ∧
      (Population.mk pool.toList).bestIndex = .ok slot ∧ pool[slot]? = some best ∧
      best.fitness? = some f' ∧ f ≤ f' := by
  obtain ⟨contestants, winner, g', hselect, -⟩ := run_select pool_pos hmeasured size_pos g
  have hfitness : ∀ i ∈ (Population.mk pool.toList).individuals, ∃ f, i.fitness? = some f := by
    intro i hi
    exact Option.isSome_iff_exists.1 (hmeasured i (Array.mem_toList_iff.1 hi))
  obtain ⟨slot, hslot⟩ := Population.bestIndex_of_measured hfitness pool_pos
  obtain ⟨f', hmax⟩ := Population.bestIndex_eq_ok hslot
  obtain ⟨best, hbest, hf'⟩ := hmax.attained
  obtain ⟨f, hf, hle⟩ := hmax.le winner.val pool[winner] (by simp)
  exact ⟨pool[winner], g', f, slot, best, f', hselect, hf, hslot, by simpa using hbest, hf', hle⟩

/-- A tournament is what its draws say.  In an empty pool, and otherwise without rounds, it is an
error and draws nothing.  If all contestants drawn have been measured, the first of the fittest wins
and exactly they have been drawn; otherwise it ends with the draw of the first one who has not been
measured.  Where everyone has been measured the winner is no fitter than the best slot. -/
theorem select_replays (t : Tournament) (pool : Array Individual) (g : Generator) :
    (pool.size = 0 → (t.select pool).run g = (.error (.error .emptyPopulation), g)) ∧
    (0 < pool.size → t.size.toNat = 0 →
      (t.select pool).run g = (.error (.error (.configuration .emptyTournament)), g)) ∧
    (0 < pool.size → 0 < t.size.toNat →
      ∃ draws g', (Generator.indices pool.size t.size.toNat).run g = (.ok draws, g') ∧
        draws.length = t.size.toNat ∧ (∀ slot ∈ draws, slot < pool.size) ∧
        ((∀ slot ∈ draws, (fitnessIn? pool slot).isSome) →
          ∃ place slot i f, draws[place]? = some slot ∧ pool[slot]? = some i ∧
            FirstMax (fitnessIn? pool) draws place f ∧ (t.select pool).run g = (.ok i, g')) ∧
        ((∃ slot ∈ draws, fitnessIn? pool slot = none) →
          ∃ place g'', BrokenOff (fitnessIn? pool) pool.size g draws place g'' ∧
            (t.select pool).run g = (.error (.error (.fitness .unmeasured)), g''))) ∧
    (0 < pool.size → 0 < t.size.toNat → (∀ i ∈ pool, i.fitness?.isSome) →
      ∃ i g' f slot best f', (t.select pool).run g = (.ok i, g') ∧ i.fitness? = some f ∧
        (Population.mk pool.toList).bestIndex = .ok slot ∧ pool[slot]? = some best ∧
        best.fitness? = some f' ∧ f ≤ f') := by
  refine ⟨fun h => select_of_empty h g, fun pool_pos h => select_of_size_zero pool_pos h g, ?_,
    fun pool_pos size_pos hmeasured => fitness_le_best pool_pos size_pos hmeasured g⟩
  intro pool_pos size_pos
  obtain ⟨draws, g', hdrawn, hend⟩ := run_winner_or pool_pos size_pos g
  obtain ⟨hlength, hslots⟩ := Generator.of_run_indices pool_pos hdrawn
  refine ⟨draws, g', hdrawn, hlength, hslots, ?_⟩
  rcases hend with ⟨winner, hwinner, hheld⟩ | ⟨place, g'', hbroken, herror⟩
  · obtain ⟨place, f, hplace, hmax⟩ := hheld.wins
    constructor
    · intro hmeasured
      refine ⟨place, winner.val, pool[winner], f, hplace, by simp, hmax, ?_⟩
      rw [select, Draw.run_bind hwinner]
      rfl
    · rintro ⟨slot, hslot, hnone⟩
      obtain ⟨other, hother⟩ := List.mem_iff_getElem?.1 hslot
      obtain ⟨f', hf', -⟩ := hmax.le other slot hother
      rw [hnone] at hf'
      cases hf'
  · constructor
    · intro hmeasured
      obtain ⟨slot, hslot, hnone⟩ := hbroken.unmeasured
      have hsome := hmeasured slot (List.mem_of_getElem? hslot)
      rw [hnone] at hsome
      cases hsome
    · intro hunmeasured
      exact ⟨place, g'', hbroken, by rw [select, Draw.run_bind_error herror]⟩

/-- Slots two, zero and three are drawn and then slot one, in which nobody has been measured: of
three contestants the one in slot two wins, and a tournament of four breaks off. -/
theorem select_replays_four :
    let pool : Array Individual :=
      #[⟨[true], some 4⟩, ⟨[], none⟩, ⟨[false], some 7⟩, ⟨[true, true], some 7⟩]
    let g (words : List UInt64) : Generator := ⟨.replicate 8 0, 0, words⟩
    let start : Generator := g [0x8000000000000000, 0, 0xC000000000000000, 0x4000000000000000, 9]
    ((Tournament.mk 3).select pool).run start =
        (.ok ⟨[false], some 7⟩, g [0x4000000000000000, 9]) ∧
      ((Tournament.mk 4).select pool).run start =
        (.error (.error (.fitness .unmeasured)), g [9]) ∧
      ((Tournament.mk 0).select #[]).run start = (.error (.error .emptyPopulation), start) ∧
      ((Tournament.mk 0).select pool).run start =
        (.error (.error (.configuration .emptyTournament)), start) ∧
      ∃ i g' f, ((Tournament.mk 2).select (pool.drop 2)).run start = (.ok i, g') ∧
        i.fitness? = some f ∧ f ≤ 7 := by
  intro pool g start
  obtain ⟨-, -, hthree, -⟩ := select_replays ⟨3⟩ pool start
  obtain ⟨-, -, hfour, -⟩ := select_replays ⟨4⟩ pool start
  obtain ⟨hempty, -, -, -⟩ := select_replays ⟨0⟩ #[] start
  obtain ⟨-, hrounds, -, -⟩ := select_replays ⟨0⟩ pool start
  obtain ⟨-, -, -, hbest⟩ := select_replays ⟨2⟩ (pool.drop 2) start
  refine ⟨?_, ?_, hempty rfl, hrounds (by decide) rfl, ?_⟩
  · obtain ⟨draws, g', hdrawn, -, -, hwins, -⟩ := hthree (by decide) (by decide)
    have hrun : @Eq (Except Failure (List Nat) × Generator)
        ((Generator.indices 4 3).run start)
        (.ok [2, 0, 3], g [0x4000000000000000, 9]) := by
      decide +kernel
    obtain ⟨hdraws, rfl⟩ := Prod.mk.inj (hdrawn.symm.trans hrun)
    obtain rfl := Except.ok.inj hdraws
    obtain ⟨place, slot, i, f, hplace, hslot, hmax, hselect⟩ := hwins (by decide)
    have hone : FirstMax (fitnessIn? pool) ([] ++ [2]) 0 7 := FirstMax.snoc_new rfl (by simp)
    have htwo : FirstMax (fitnessIn? pool) ([2] ++ [0]) 0 7 :=
      hone.snoc_old rfl (by decide : (4 : Fitness) ≤ 7)
    have hthree : FirstMax (fitnessIn? pool) ([2, 0] ++ [3]) 0 7 :=
      htwo.snoc_old rfl Int64.le_rfl
    obtain ⟨rfl, -⟩ := hmax.unique hthree
    obtain rfl := Option.some.inj hplace
    obtain rfl := Option.some.inj hslot
    exact hselect
  · obtain ⟨draws, g', hdrawn, -, -, -, hbreaks⟩ := hfour (by decide) (by decide)
    have hrun : @Eq (Except Failure (List Nat) × Generator)
        ((Generator.indices 4 4).run start) (.ok [2, 0, 3, 1], g [9]) := by
      decide +kernel
    obtain ⟨hdraws, rfl⟩ := Prod.mk.inj (hdrawn.symm.trans hrun)
    obtain rfl := Except.ok.inj hdraws
    obtain ⟨place, g'', hbroken, herror⟩ := hbreaks ⟨1, by decide, by decide⟩
    obtain ⟨slot, hslot, hnone⟩ := hbroken.unmeasured
    have hplace : place = 3 := by
      have hother : ∀ place < 3, ∀ slot ∈ [2, 0, 3, 1][place]?, fitnessIn? pool slot ≠ none := by
        decide
      have hlt : place < 4 := (List.getElem?_eq_some_iff.1 hslot).1
      have hge : ¬ place < 3 := fun hlt => hother place hlt slot hslot hnone
      omega
    subst hplace
    obtain ⟨-, rfl⟩ := Prod.mk.inj (hbroken.drawn.symm.trans hrun)
    exact herror
  · obtain ⟨i, g', f, slot, best, f', hselect, hf, hslot, hslotBest, hbestFitness, hle⟩ :=
      hbest (by decide) (by decide) (by decide)
    have hzero : (Population.mk (pool.drop 2).toList).bestIndex = .ok 0 := by decide
    obtain rfl := Except.ok.inj (hslot.symm.trans hzero)
    obtain rfl := Option.some.inj hslotBest
    obtain rfl := Option.some.inj hbestFitness
    exact ⟨i, g', f, hselect, hf, hle⟩

end Tournament

end KnapsackEvolution
