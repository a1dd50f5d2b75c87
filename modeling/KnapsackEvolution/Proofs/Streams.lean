/-
# Streams that stay apart

The seed of a key is stirred together from the base seed and the parts of the key, one after the
other.  Whatever stirring does to a word can be taken back: the sum with a constant, the products
with odd numbers, and the word that is xored with its own high bits (`stir_injective`).  So two keys
that differ in one part only have different seeds under every base, and one key has different seeds
under different bases.

The keys of a run differ in this way: two chunks of one generation start at different slots, the
phases of a chunk have different tags, and generations have different numbers
(`Engine.StreamsApart`).
-/
import KnapsackEvolution.Proofs.Safety

namespace KnapsackEvolution

/-! ## Stirring -/

/-- A word that is xored with its own high bits is known from the result. -/
lemma xor_shiftRight_injective (shift : UInt64) (hshift : 0 < shift.toNat % 64) :
    Function.Injective fun word : UInt64 => word ^^^ (word >>> shift) := by
  intro x y h
  have hzero : (x ^^^ (x >>> shift)) ^^^ (y ^^^ (y >>> shift)) = 0 := UInt64.xor_eq_zero_iff.2 h
  have hshifted : x ^^^ y = (x ^^^ y) >>> shift := by
    rw [UInt64.shiftRight_xor, ← UInt64.xor_eq_zero_iff, ← hzero]
    ac_rfl
  -- the difference is its own shift, and a shift makes every word but zero smaller
  have hdiv : (x ^^^ y).toNat = (x ^^^ y).toNat / 2 ^ (shift.toNat % 64) := by
    rw [← Nat.shiftRight_eq_div_pow, ← UInt64.toNat_shiftRight, ← hshifted]
  have hnone : (x ^^^ y).toNat = 0 := by
    by_contra hne
    have hlt := Nat.div_lt_self (Nat.pos_of_ne_zero hne) (Nat.one_lt_two_pow (Nat.ne_of_gt hshift))
    omega
  exact UInt64.xor_eq_zero_iff.1 (UInt64.toNat_inj.1 hnone)

lemma mul_injective_of_mul_eq_one (factor inverse : UInt64) (h : factor * inverse = 1) :
    Function.Injective fun word : UInt64 => word * factor := by
  intro x y hxy
  have hback : ∀ word : UInt64, word * factor * inverse = word := by
    intro word
    rw [UInt64.mul_assoc, h, UInt64.mul_one]
  rw [← hback x, ← hback y]
  exact congrArg (· * inverse) hxy

/-- Different words stay different when they are stirred. -/
theorem stir_injective : Function.Injective stir := by
  have hsum : Function.Injective fun word : UInt64 => word + 0x9E3779B97F4A7C15 :=
    fun _ _ => (UInt64.add_left_inj _).1
  -- each odd factor comes with its inverse
  have hfirst :=
    (mul_injective_of_mul_eq_one 0xBF58476D1CE4E5B9 0x96DE1B173F119089 (by decide)).comp
      (xor_shiftRight_injective 30 (by decide))
  have hsecond :=
    (mul_injective_of_mul_eq_one 0x94D049BB133111EB 0x319642B2D24D8EC3 (by decide)).comp
      (xor_shiftRight_injective 27 (by decide))
  have hlast := xor_shiftRight_injective 31 (by decide)
  exact hlast.comp (hsecond.comp (hfirst.comp hsum))

/-! ## Seeds of keys -/

namespace Key

/-- The keys differ in one part and agree in the two others. -/
inductive DifferInOne : Key → Key → Prop
  | phase {p q : Phase} (h : p ≠ q) (generation chunkStart : UInt64) :
    DifferInOne ⟨p, generation, chunkStart⟩ ⟨q, generation, chunkStart⟩
  | generation (phase : Phase) {g k : UInt64} (h : g ≠ k) (chunkStart : UInt64) :
    DifferInOne ⟨phase, g, chunkStart⟩ ⟨phase, k, chunkStart⟩
  | chunkStart (phase : Phase) (generation : UInt64) {s t : UInt64} (h : s ≠ t) :
    DifferInOne ⟨phase, generation, s⟩ ⟨phase, generation, t⟩

/-- Under one base, keys that differ in one part have different seeds. -/
theorem seed_ne_of_differInOne {key key' : Key} (h : DifferInOne key key') (base : UInt64) :
    key.seed base ≠ key'.seed base := by
  intro hseed
  -- the last part is stirred in last: what comes before it is the same on both sides or not at all
  have hlast := stir_injective hseed
  cases h with
  | chunkStart phase generation h => exact h ((UInt64.xor_right_inj _).1 hlast)
  | generation phase h chunkStart =>
    have hgeneration := stir_injective ((UInt64.xor_left_inj _).1 hlast)
    exact h ((UInt64.xor_right_inj _).1 hgeneration)
  | phase h generation chunkStart =>
    have hgeneration := stir_injective ((UInt64.xor_left_inj _).1 hlast)
    have hphase := stir_injective ((UInt64.xor_left_inj _).1 hgeneration)
    exact h (Phase.tag_inj ((UInt64.xor_right_inj _).1 hphase))

/-- A key has different seeds under different bases. -/
theorem seed_injective (key : Key) : Function.Injective fun base => key.seed base := by
  intro base base' h
  have hgeneration := stir_injective ((UInt64.xor_left_inj _).1 (stir_injective h))
  have hphase := stir_injective ((UInt64.xor_left_inj _).1 hgeneration)
  exact (UInt64.xor_left_inj _).1 hphase

end Key

/-! ## Streams of chunks -/

/-- The key of a chunk in a phase of a generation. -/
def Chunk.key (c : Chunk) (phase : Phase) (generation : Nat) : Key :=
  ⟨phase, generation.toUInt64, c.start.toUInt64⟩

lemma toUInt64_ne_of_lt {m n : Nat} (hm : m < UInt64.size) (hn : n < UInt64.size) (h : m ≠ n) :
    m.toUInt64 ≠ n.toUInt64 := by
  intro heq
  have hnat := congrArg UInt64.toNat heq
  rw [Nat.toUInt64_eq, Nat.toUInt64_eq, UInt64.toNat_ofNat_of_lt' hm,
    UInt64.toNat_ofNat_of_lt' hn] at hnat
  exact h hnat

namespace Engine

/-- Under a base seed the streams of some chunks start at different seeds: those of two chunks in
one phase of a generation, those of one chunk in two phases of a generation, and those of one chunk
in the same phase of two generations. -/
structure StreamsApart (base : UInt64) (chunks : List Chunk) : Prop where
  chunk : ∀ c ∈ chunks, ∀ d ∈ chunks, c ≠ d → ∀ phase generation,
    (c.key phase generation).seed base ≠ (d.key phase generation).seed base
  phase : ∀ c ∈ chunks, ∀ p q : Phase, p ≠ q → ∀ generation,
    (c.key p generation).seed base ≠ (c.key q generation).seed base
  generation : ∀ c ∈ chunks, ∀ g k : Nat, g < UInt64.size → k < UInt64.size → g ≠ k → ∀ phase,
    (c.key phase g).seed base ≠ (c.key phase k).seed base

/-- The streams of the chunks that a range of words is cut into stay apart. -/
theorem streamsApart_of_partition {total start size : Nat} {chunks : List Chunk}
    (h : partition total start size = .ok chunks) (htotal : total ≤ UInt64.size) (base : UInt64) :
    StreamsApart base chunks where
  chunk := by
    intro c hc d hd hne phase generation
    obtain ⟨htiles, hnone⟩ := partition_eq_ok h
    -- there is a chunk, so the range is not empty
    have hle : start ≤ total := by
      by_contra hlt
      rw [hnone (Nat.le_of_not_le hlt)] at hc
      cases hc
    have htiles := htiles hle
    have hword : ∀ c ∈ chunks, c.start < UInt64.size := by
      intro c hc
      have hbefore := c.start_lt_stop
      have hinside := (htiles.stop_le c hc).2
      omega
    have hstart := mt (htiles.eq_of_start_eq hc hd) hne
    exact Key.seed_ne_of_differInOne
      (.chunkStart phase _ (toUInt64_ne_of_lt (hword c hc) (hword d hd) hstart)) base
  phase := by
    intro c _ p q hne generation
    exact Key.seed_ne_of_differInOne (.phase hne _ _) base
  generation := by
    intro c _ g k hg hk hne phase
    exact Key.seed_ne_of_differInOne (.generation phase (toUInt64_ne_of_lt hg hk hne) _) base

lemma setting_afterSteps {ε : Type} [Executor ε] (e : Engine ε) (n : Nat) :
    (e.afterSteps n).options = e.options ∧ (e.afterSteps n).generators = e.generators := by
  induction n generalizing e with
  | zero => exact ⟨rfl, rfl⟩
  | succ n ih =>
    obtain ⟨hoptions, hgenerators⟩ := ih e.step.engine
    exact ⟨hoptions.trans e.setting_step.1, hgenerators.trans e.setting_step.2.2⟩

/-- Keys that differ in one part have different seeds under every base, and a key has different
seeds under different bases.  So the streams of a seeded run stay apart: in every generation each
chunk draws from the stream of its key when it is bred and when it is mutated, and of the chunks
that the children are cut into, however many there are, no two, no two phases of one and no two
generations of one in one phase start at the same seed. -/
theorem streams_apart :
    (∀ (base : UInt64) (key key' : Key), key.DifferInOne key' →
      key.seed base ≠ key'.seed base) ∧
    (∀ (key : Key) (base base' : UInt64), base ≠ base' → key.seed base ≠ key.seed base') ∧
    ∀ {ε : Type} [Executor ε] [SoundExecutor ε] (surroundings : Surroundings) (executor : ε)
      (options : Options) (problem : Problem) {e : Engine ε} {events : List Event} {base : UInt64},
      onExecutor surroundings executor options problem = .ok (e, events) →
      options.seed? = some base → ∀ n,
        let now := e.afterSteps n
        now.population.size = options.populationSize.toNat ∧
        (∀ next : Population, next.size ≤ UInt64.size →
          ∃ chunks, now.chunksFrom 1 next = .ok chunks ∧ StreamsApart base chunks) ∧
        (∀ key, now.generators key = .ofSeed (key.seed base)) ∧
        (∀ t pool c u, breedChunk now.generators now.generation t pool c u =
          ((breed t pool c.size).run (.ofSeed ((c.key .crossover now.generation).seed base))).1) ∧
        ∀ p c individuals, mutateChunk now.generators now.generation p c individuals =
          ((mutateEach p individuals).run
            (.ofSeed ((c.key .mutate now.generation).seed base))).1 := by
  refine ⟨fun base key key' h => Key.seed_ne_of_differInOne h base,
    fun key base base' h => key.seed_injective.ne h, ?_⟩
  intro ε _ _ surroundings executor options problem e events base hstart hseed n now
  obtain ⟨hvalid, -, rfl, -⟩ := onExecutor_eq_ok_iff.1 hstart
  have hgenerators : now.generators = .seeded base := by
    refine (setting_afterSteps _ n).2.trans ?_
    show factoryOf surroundings options = .seeded base
    rw [factoryOf, hseed]
  have hshaped : now.WellShaped options :=
    (WellShaped.first surroundings executor options problem).afterSteps n
  refine ⟨hshaped.shaped.size_eq, ?_, fun key => ?_, fun t pool c u => ?_,
    fun p c individuals => ?_⟩
  · intro next hsize
    obtain ⟨chunks, hchunks⟩ := partition_of_pos (Options.counted hvalid).chunkSize next.size 1
    refine ⟨chunks, ?_, streamsApart_of_partition hchunks hsize base⟩
    rw [chunksFrom, hshaped.options_eq, hchunks]
  · rw [hgenerators]
    rfl
  · rw [hgenerators]
    rfl
  · rw [hgenerators]
    rfl

/-- Five individuals in chunks of two: the two broods of the second generation are bred from
different streams, and the first of them is mutated from another one. -/
theorem streams_apart_two_broods :
    let options : Options := { Options.default with
      backend := .sequential, workers := 1, chunkSize := 2, populationSize := 5, geneCount := 2,
      seed? := some 99 }
    let problem : Problem := ⟨#[5, 7], #[1, 1], 2⟩
    let surroundings : Surroundings := ⟨fun _ => 0, .inOrder⟩
    let e := first surroundings Backend.sequential options problem
    let c : Chunk := ⟨1, 3, by decide⟩
    let d : Chunk := ⟨3, 5, by decide⟩
    (Key.DifferInOne ⟨.mutate, 0, 0⟩ ⟨.mutate, 0, 5⟩ ∧
      Key.seed 99 ⟨.mutate, 0, 0⟩ ≠ Key.seed 99 ⟨.mutate, 0, 5⟩) ∧
    ((99 : UInt64) ≠ 98 ∧ Key.seed 99 ⟨.init, 0, 0⟩ ≠ Key.seed 98 ⟨.init, 0, 0⟩) ∧
    (∃ events, onExecutor surroundings Backend.sequential options problem = .ok (e, events)) ∧
    options.seed? = some 99 ∧
    (e.afterSteps 1).chunksFrom 1 (e.afterSteps 1).population = .ok [c, d] ∧
    (c.key .crossover 1).seed 99 ≠ (d.key .crossover 1).seed 99 ∧
    (c.key .crossover 1).seed 99 ≠ (c.key .mutate 1).seed 99 := by
  intro options problem surroundings e c d
  have hstart : onExecutor surroundings Backend.sequential options problem = .ok (e,
      [.engineInitialized .sequential 1 (firstPopulation surroundings options).size 2]) :=
    onExecutor_eq_ok_iff.2 ⟨by decide +kernel, by decide, rfl, rfl⟩
  obtain ⟨hkeys, hbases, hruns⟩ := streams_apart
  have hkey : Key.DifferInOne ⟨.mutate, 0, 0⟩ ⟨.mutate, 0, 5⟩ := .chunkStart _ _ (by decide)
  obtain ⟨hsize, hcut, -⟩ := hruns surroundings Backend.sequential options problem hstart rfl 1
  obtain ⟨chunks, hchunks, hapart⟩ := hcut (e.afterSteps 1).population (by rw [hsize]; decide)
  have hcd : (e.afterSteps 1).chunksFrom 1 (e.afterSteps 1).population = .ok [c, d] := by
    have hoptions : (e.afterSteps 1).options = options := (e.setting_afterSteps 1).1
    rw [chunksFrom, hsize, hoptions]
    decide +kernel
  obtain rfl : chunks = [c, d] := Except.ok.inj (hchunks.symm.trans hcd)
  exact ⟨⟨hkey, hkeys 99 _ _ hkey⟩, ⟨by decide, hbases _ 99 98 (by decide)⟩, ⟨_, hstart⟩, rfl,
    hcd, hapart.chunk c (by simp) d (by simp) (by decide) _ _,
    hapart.phase c (by simp) _ _ (by decide) _⟩

end Engine

end KnapsackEvolution
