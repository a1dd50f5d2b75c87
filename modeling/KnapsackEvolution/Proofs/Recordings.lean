/-
# Recording fitness values

The values of a chunk are recorded when the chunk lies in the population and has as many slots as
there are values.  That is checked before anything is written, so a chunk is recorded as a whole or
not at all, and what is recorded changes the fitness in the slots of the chunk and nothing else.

Chunks without a common slot do not meet, so their values may be recorded in any order
(`Population.recordChunks_perm`).  An engine whose executor hands the scores of the chunks back in
any order leaves the population that measuring in one go leaves (`Engine.evaluate_of_perm`).
-/
import KnapsackEvolution.Proofs.Measuring
import Mathlib.Data.List.Perm.Basic

namespace KnapsackEvolution

/-! ## Chunks without a common slot -/

namespace Chunk

/-- The chunks have no slot in common. -/
def Apart (c d : Chunk) : Prop := ∀ slot ∈ c, slot ∉ d

lemma Apart.symm {c d : Chunk} (h : Apart c d) : Apart d c := fun slot hd hc => h slot hc hd

end Chunk

lemma Tiles.pairwise_apart {start stop : Nat} {chunks : List Chunk} (h : Tiles start chunks stop) :
    chunks.Pairwise Chunk.Apart := by
  induction h with
  | nil slot => exact .nil
  | cons c hrest ih =>
    refine .cons ?_ ih
    intro d hd slot hc hslot
    have hbehind := (hrest.stop_le d hd).1
    rw [Chunk.mem_iff] at hc hslot
    omega

namespace Population

variable {p q : Population} {c : Chunk} {values : List Fitness} {slot k : Nat} {f : Fitness}

lemma ext_get? (h : ∀ slot, p.get? slot = q.get? slot) : p = q :=
  congrArg mk (List.ext_getElem? h)

/-! ## The values of one chunk -/

lemma exists_value_of_mem (hsize : c.size = values.length) (hslot : slot ∈ c) :
    ∃ k f, slot = c.start + k ∧ values[k]? = some f := by
  obtain ⟨hstart, hstop⟩ := Chunk.mem_iff.1 hslot
  have hc := c.start_add_size
  obtain ⟨k, rfl⟩ := Nat.exists_eq_add_of_le hstart
  have hlt : k < values.length := by omega
  exact ⟨k, values[k], rfl, List.getElem?_eq_getElem hlt⟩

lemma mem_of_value (hsize : c.size = values.length) (hk : values[k]? = some f) :
    c.start + k ∈ c := by
  have hlt := (List.getElem?_eq_some_iff.1 hk).1
  have hc := c.start_add_size
  rw [Chunk.mem_iff]
  omega

lemma exists_get?_of_mem (hstop : c.stop ≤ p.size) (hslot : slot ∈ c) :
    ∃ i, p.get? slot = some i := by
  have hlt : slot < p.individuals.length := Nat.lt_of_lt_of_le (Chunk.mem_iff.1 hslot).2 hstop
  exact ⟨p.individuals[slot], List.getElem?_eq_getElem hlt⟩

/-- The values of a chunk can be recorded exactly when it lies in the population and has as many
slots as there are values. -/
lemma recordFitness_eq_ok_iff :
    p.recordFitness c values = .ok q ↔ (c.stop ≤ p.size ∧ c.size = values.length) ∧
      q = ⟨p.individuals.take c.start ++
        (List.zipWith Individual.record (c.slice p.individuals) values
          ++ p.individuals.drop c.stop)⟩ := by
  rw [← List.append_assoc, recordFitness_eq]
  split
  · next hfit =>
    rw [Except.ok.injEq, eq_comm]
    exact ⟨fun h => ⟨hfit, h⟩, fun h => h.2⟩
  · next hfit =>
    constructor
    · intro h
      cases h
    · intro h
      exact absurd h.1 hfit

lemma size_recordFitness (h : p.recordFitness c values = .ok q) : q.size = p.size :=
  size_eq_of_genes_eq (genes_recordFitness h)

lemma length_take_start (hstop : c.stop ≤ p.size) :
    (p.individuals.take c.start).length = c.start := by
  rw [List.length_take]
  exact Nat.min_eq_left (Nat.le_trans (Nat.le_of_lt c.start_lt_stop) hstop)

lemma length_zipWith_slice (hstop : c.stop ≤ p.size) (hsize : c.size = values.length) :
    (List.zipWith Individual.record (c.slice p.individuals) values).length = c.size := by
  rw [List.length_zipWith, c.length_slice hstop, hsize, Nat.min_self]

lemma get?_recordFitness_of_not_mem (h : p.recordFitness c values = .ok q) (hslot : slot ∉ c) :
    q.get? slot = p.get? slot := by
  obtain ⟨⟨hstop, hsize⟩, rfl⟩ := recordFitness_eq_ok_iff.1 h
  have hc := c.start_add_size
  have hfront := length_take_start hstop
  have hmiddle := length_zipWith_slice hstop hsize
  rw [Chunk.mem_iff] at hslot
  unfold get?
  rcases Nat.lt_or_ge slot c.start with hlt | hge
  · rw [List.getElem?_append_left (by omega), List.getElem?_take_of_lt hlt]
  · rw [List.getElem?_append_right (by omega), List.getElem?_append_right (by omega),
      List.getElem?_drop, hfront, hmiddle]
    congr 1
    omega

lemma get?_recordFitness_of_value (h : p.recordFitness c values = .ok q)
    (hk : values[k]? = some f) :
    q.get? (c.start + k) = (p.get? (c.start + k)).map (·.record f) := by
  obtain ⟨⟨hstop, hsize⟩, rfl⟩ := recordFitness_eq_ok_iff.1 h
  have hlt : k < c.size := hsize ▸ (List.getElem?_eq_some_iff.1 hk).1
  have hfront := length_take_start hstop
  have hmiddle := length_zipWith_slice hstop hsize
  unfold get?
  rw [List.getElem?_append_right (by omega), List.getElem?_append_left (by omega), hfront,
    Nat.add_sub_cancel_left, List.getElem?_zipWith, c.getElem?_slice hlt, hk]
  cases p.individuals[c.start + k]? with
  | none => rfl
  | some i => rfl

/-- In `q` the slots of the chunk have the values in order; everything else is as in `p`. -/
structure Recorded (p : Population) (c : Chunk) (values : List Fitness) (q : Population) :
    Prop where
  genes_eq : q.genes = p.genes
  inside : ∀ k f, values[k]? = some f →
    ∃ i, p.get? (c.start + k) = some i ∧ q.get? (c.start + k) = some (i.record f)
  outside : ∀ slot, slot ∉ c → q.get? slot = p.get? slot

theorem recorded_of_recordFitness (h : p.recordFitness c values = .ok q) :
    Recorded p c values q where
  genes_eq := genes_recordFitness h
  inside := by
    intro k f hk
    obtain ⟨⟨hstop, hsize⟩, -⟩ := recordFitness_eq_ok_iff.1 h
    obtain ⟨i, hi⟩ := exists_get?_of_mem hstop (mem_of_value hsize hk)
    exact ⟨i, hi, by rw [get?_recordFitness_of_value h hk, hi, Option.map_some]⟩
  outside _ hslot := get?_recordFitness_of_not_mem h hslot

/-! ## One slot after the other -/

/-- Values that are written one after the other are all in their slots at the end. -/
lemma writeFrom_append (front : List Individual) {slots : List Individual} (back : List Individual)
    (h : slots.length = values.length) :
    writeFrom ⟨front ++ (slots ++ back)⟩ front.length values =
      ⟨front ++ (List.zipWith Individual.record slots values ++ back)⟩ := by
  induction slots generalizing front values with
  | nil =>
    obtain rfl : values = [] := List.eq_nil_of_length_eq_zero h.symm
    rfl
  | cons i slots ih =>
    cases values with
    | nil => simp at h
    | cons f values =>
      have hfirst : (front ++ (i :: slots ++ back)).modify front.length (·.record f) =
          (front ++ [i.record f]) ++ (slots ++ back) := by
        rw [List.modify_eq_take_cons_drop (by simp)]
        simp
      have hrest := ih (front ++ [i.record f]) (Nat.succ.inj h)
      rw [List.length_append, List.length_singleton,
        List.append_assoc front _ (List.zipWith _ _ _ ++ _)] at hrest
      rw [writeFrom, hfirst]
      exact hrest

/-- In place an error leaves the population as it was. -/
lemma run_recordInPlace (p : Population) (c : Chunk) (values : List Fitness) :
    (recordInPlace c values).run p =
      match p.recordFitness c values with
      | .ok q => (.ok (), q)
      | .error e => (.error e, p) := by
  show ((if c.stop ≤ p.size ∧ c.size = values.length then _ else _ :
    ExceptT Error (StateM Population) Unit)).run p = _
  by_cases hfit : c.stop ≤ p.size ∧ c.size = values.length
  · have hslots : (c.slice p.individuals).length = values.length := by
      rw [c.length_slice hfit.1, hfit.2]
    have hwrite := writeFrom_append (p.individuals.take c.start) (p.individuals.drop c.stop) hslots
    rw [length_take_start hfit.1, c.slice_append_drop, List.take_append_drop] at hwrite
    rw [if_pos hfit, recordFitness_eq_ok_iff.2 ⟨hfit, rfl⟩, ← hwrite]
    rfl
  · rw [if_neg hfit, recordFitness_eq, if_neg hfit]
    rfl

/-! ## The values of several chunks -/

variable {items order : List (Chunk × List Fitness)} {item : Chunk × List Fitness}

lemma recordChunks_cons_eq_ok (h : p.recordChunks (item :: items) = (.ok (), q)) :
    ∃ p', p.recordFitness item.1 item.2 = .ok p' ∧ p'.recordChunks items = (.ok (), q) := by
  obtain ⟨c, values⟩ := item
  rw [recordChunks_cons] at h
  cases hfirst : p.recordFitness c values with
  | error e => rw [hfirst] at h; cases h
  | ok p' => exact ⟨p', rfl, by rw [hfirst] at h; exact h⟩

/-- All chunks are recorded exactly when each one of them can be. -/
lemma recordChunks_fst_eq_ok_iff :
    (p.recordChunks items).1 = .ok () ↔
      ∀ item ∈ items, item.1.stop ≤ p.size ∧ item.1.size = item.2.length := by
  induction items generalizing p with
  | nil =>
    have hnil : (p.recordChunks []).1 = .ok () := rfl
    simp [hnil]
  | cons item items ih =>
    obtain ⟨c, values⟩ := item
    rw [List.forall_mem_cons, recordChunks_cons]
    cases hfirst : p.recordFitness c values with
    | error e =>
      constructor
      · intro h
        cases h
      · intro h
        rw [recordFitness_eq_ok h.1.1 h.1.2] at hfirst
        cases hfirst
    | ok p' =>
      dsimp only
      rw [ih, size_recordFitness hfirst]
      exact (and_iff_right (recordFitness_eq_ok_iff.1 hfirst).1).symm

lemma get?_recordChunks_of_not_mem (h : p.recordChunks items = (.ok (), q))
    (hslot : ∀ item ∈ items, slot ∉ item.1) : q.get? slot = p.get? slot := by
  induction items generalizing p with
  | nil =>
    obtain rfl : p = q := congrArg Prod.snd h
    rfl
  | cons item items ih =>
    obtain ⟨hitem, hitems⟩ := List.forall_mem_cons.1 hslot
    obtain ⟨p', hfirst, hrest⟩ := recordChunks_cons_eq_ok h
    rw [ih hrest hitems, get?_recordFitness_of_not_mem hfirst hitem]

/-- Of chunks without common slots each slot has its own value, wherever its chunk comes. -/
lemma get?_recordChunks_of_value (hapart : (items.map (·.1)).Pairwise Chunk.Apart)
    (h : p.recordChunks items = (.ok (), q)) (hitem : item ∈ items) (hk : item.2[k]? = some f) :
    q.get? (item.1.start + k) = (p.get? (item.1.start + k)).map (·.record f) := by
  obtain ⟨-, hsize⟩ := recordChunks_fst_eq_ok_iff.1 (congrArg Prod.fst h) item hitem
  have hslot : item.1.start + k ∈ item.1 := mem_of_value hsize hk
  induction items generalizing p with
  | nil => simp at hitem
  | cons first items ih =>
    rw [List.map_cons, List.pairwise_cons, List.forall_mem_map] at hapart
    obtain ⟨hfirstApart, hapart⟩ := hapart
    obtain ⟨p', hfirst, hrest⟩ := recordChunks_cons_eq_ok h
    rcases List.mem_cons.1 hitem with rfl | hitem
    · -- no later chunk has the slot
      rw [get?_recordChunks_of_not_mem hrest fun other hother => hfirstApart other hother _ hslot,
        get?_recordFitness_of_value hfirst hk]
    · have hother : item.1.start + k ∉ first.1 := fun hmem => hfirstApart item hitem _ hmem hslot
      rw [ih hapart hrest hitem, get?_recordFitness_of_not_mem hfirst hother]

/-- The values of chunks without common slots may be recorded in any order. -/
theorem recordChunks_perm (hapart : (items.map (·.1)).Pairwise Chunk.Apart)
    (h : p.recordChunks items = (.ok (), q)) (horder : order.Perm items) :
    p.recordChunks order = (.ok (), q) := by
  have hfits := recordChunks_fst_eq_ok_iff.1 (congrArg Prod.fst h)
  have hok : (p.recordChunks order).1 = .ok () :=
    recordChunks_fst_eq_ok_iff.2 fun item hitem => hfits item (horder.mem_iff.1 hitem)
  have horderApart : (order.map (·.1)).Pairwise Chunk.Apart :=
    hapart.perm (horder.map _).symm fun h => h.symm
  have horder' : p.recordChunks order = (.ok (), (p.recordChunks order).2) := Prod.ext hok rfl
  rw [horder']
  refine congrArg (Prod.mk _) (ext_get? fun slot => ?_)
  by_cases hslot : ∃ item ∈ items, slot ∈ item.1
  · -- both orders leave the value of the one chunk that has the slot
    obtain ⟨item, hitem, hmem⟩ := hslot
    obtain ⟨k, f, rfl, hk⟩ := exists_value_of_mem (hfits item hitem).2 hmem
    rw [get?_recordChunks_of_value hapart h hitem hk,
      get?_recordChunks_of_value horderApart horder' (horder.mem_iff.2 hitem) hk]
  · have hnone : ∀ item ∈ items, slot ∉ item.1 :=
      fun item hitem hmem => hslot ⟨item, hitem, hmem⟩
    rw [get?_recordChunks_of_not_mem h hnone,
      get?_recordChunks_of_not_mem horder' fun item hitem => hnone item (horder.mem_iff.1 hitem)]

/-! ## The values of a partition -/

variable {start size : Nat} {chunks : List Chunk}

/-- In `q` the slots from `start` on have the values of their chunks in order; everything else is as
in `p`. -/
structure RecordedFrom (p : Population) (start : Nat) (items : List (Chunk × List Fitness))
    (q : Population) : Prop where
  genes_eq : q.genes = p.genes
  before : ∀ slot < start, q.get? slot = p.get? slot
  behind : ∀ slot i, start ≤ slot → p.get? slot = some i → ∃ item ∈ items, ∃ f, slot ∈ item.1 ∧
    item.2[slot - item.1.start]? = some f ∧ q.get? slot = some (i.record f)

/-- The chunks of a partition lie behind its start and in the population, no two of them have a slot
in common, and together they have all slots from the start on. -/
lemma chunks_of_partition (h : partition p.size start size = .ok chunks) :
    chunks.Pairwise Chunk.Apart ∧ (∀ c ∈ chunks, start ≤ c.start ∧ c.stop ≤ p.size) ∧
      ∀ slot, start ≤ slot → slot < p.size → ∃ c ∈ chunks, slot ∈ c := by
  obtain ⟨htiles, hnone⟩ := partition_eq_ok h
  rcases Nat.le_total start p.size with hle | hge
  · exact ⟨(htiles hle).pairwise_apart, (htiles hle).stop_le, fun _ => (htiles hle).exists_mem⟩
  · rw [hnone hge]
    exact ⟨.nil, by simp, by omega⟩

/-- The values for the chunks of a partition, recorded in any order, are all in their slots. -/
theorem recordedFrom_of_partition (h : partition p.size start size = .ok chunks)
    (hchunks : items.map (·.1) = chunks) (hsize : ∀ item ∈ items, item.1.size = item.2.length) :
    ∃ q, RecordedFrom p start items q ∧
      ∀ order, order.Perm items → p.recordChunks order = (.ok (), q) := by
  subst hchunks
  obtain ⟨hapart, hinside, hcover⟩ := chunks_of_partition h
  rw [List.forall_mem_map] at hinside
  have hok : (p.recordChunks items).1 = .ok () :=
    recordChunks_fst_eq_ok_iff.2 fun item hitem => ⟨(hinside item hitem).2, hsize item hitem⟩
  have hrecord : p.recordChunks items = (.ok (), (p.recordChunks items).2) := Prod.ext hok rfl
  refine ⟨_, ⟨genes_recordChunks p items, ?_, ?_⟩, fun order => recordChunks_perm hapart hrecord⟩
  · intro slot hslot
    refine get?_recordChunks_of_not_mem hrecord ?_
    intro item hitem hmem
    have hstart := (hinside item hitem).1
    rw [Chunk.mem_iff] at hmem
    omega
  · intro slot i hslot hi
    obtain ⟨c, hc, hmem⟩ := hcover slot hslot (List.getElem?_eq_some_iff.1 hi).1
    obtain ⟨item, hitem, rfl⟩ := List.mem_map.1 hc
    obtain ⟨k, f, rfl, hk⟩ := exists_value_of_mem (hsize item hitem) hmem
    refine ⟨item, hitem, f, hmem, by rw [Nat.add_sub_cancel_left, hk], ?_⟩
    rw [get?_recordChunks_of_value hapart hrecord hitem hk, hi, Option.map_some]

end Population

namespace Engine

variable {ε : Type} [Executor ε]

/-- The executor answers the scoring of the chunks with the outcomes of the chunks, in any order. -/
def ScoresInAnyOrder (e : Engine ε) (chunks : List Chunk) : Prop :=
  (Executor.execute e.executor (chunks.map fun c => (c, ()))
    (scoreChunk e.problem e.population)).1.Perm
      ((chunks.map fun c => (c, ())).map (Outcome.ofRun (scoreChunk e.problem e.population)))

/-- The order in which the scores of the chunks come back does not show in what is measured. -/
theorem evaluate_of_perm {e : Engine ε} {chunks : List Chunk}
    (hchunks : e.chunksFrom 0 e.population = .ok chunks) (horder : e.ScoresInAnyOrder chunks)
    (hscores : ∀ i ∈ e.population.individuals, ∃ f, e.problem.score i.genes = .ok f) :
    e.evaluate.result = .ok () ∧
      e.population.measureAll e.problem = .ok e.evaluate.engine.population := by
  have hjobs : ∀ job ∈ chunks.map fun c => (c, ()), ∃ values,
      scoreChunk e.problem e.population job.1 job.2 = .ok values ∧ True := by
    intro job _
    obtain ⟨values, hvalues⟩ := exists_scoreChunk hscores job.1 job.2
    exact ⟨values, hvalues, trivial⟩
  obtain ⟨items, hcollect, -⟩ := Outcome.exists_collect hjobs
  have houtcomes := Outcome.collect_eq_ok_iff.1 hcollect
  have htiles := (partition_eq_ok hchunks).1 (Nat.zero_le _)
  obtain ⟨rfl, hsizes, hrow⟩ := scores_of_tiles htiles rfl houtcomes
  -- in the order of the chunks the scores are recorded one after the other
  have hrecord := Population.recordChunks_of_tiles htiles rfl hsizes
  rw [List.drop_zero] at hrow hrecord
  rw [List.take_zero, List.nil_append] at hrecord
  -- and the executor has them in some other order
  unfold ScoresInAnyOrder at horder
  rw [houtcomes] at horder
  obtain ⟨order, hanswer, hperm⟩ :=
    (congrFun₂ (List.eq_map_comp_perm Outcome.ofValue) _ items).mpr horder
  obtain ⟨hresult, hpopulation⟩ := evaluate_of_recordChunks hchunks
    (Outcome.collect_eq_ok_iff.2 hanswer)
    (Population.recordChunks_perm htiles.pairwise_apart hrecord hperm)
  refine ⟨hresult, ?_⟩
  rw [hpopulation]
  exact Population.measureAll_eq_ok_iff.2
    ⟨measured_zipWith_record hrow, Population.map_genes_zipWith_record hrow.length_eq⟩

end Engine

namespace Population

/-- The values of a chunk are recorded exactly when the chunk lies in the population and has as many
slots as there are values.  Then each slot of the chunk has its value; no gene changes and no other
slot does, and when they cannot be recorded nothing changes at all.  For the chunks of a partition
this may be done in any order: if the values fit their chunks, all orders leave the same population,
in which the slots before the start are as they were and each later slot has its own value.  So an
executor may hand the scores of the chunks back in any order, and what an engine measures is what is
measured in one go. -/
theorem recorded_in_any_order (p : Population) :
    (∀ (c : Chunk) (values : List Fitness),
      ((∃ q, p.recordFitness c values = .ok q) ↔ c.stop ≤ p.size ∧ c.size = values.length) ∧
      (∀ q, p.recordFitness c values = .ok q → Recorded p c values q) ∧
      (recordInPlace c values).run p =
        match p.recordFitness c values with
        | .ok q => (.ok (), q)
        | .error e => (.error e, p)) ∧
    (∀ (start size : Nat) (chunks : List Chunk), partition p.size start size = .ok chunks →
      ∀ items : List (Chunk × List Fitness), items.map (·.1) = chunks →
        (∀ order, order.Perm items → ((p.recordChunks order).1 = .ok () ↔
          ∀ item ∈ items, item.1.size = item.2.length)) ∧
        ((∀ item ∈ items, item.1.size = item.2.length) →
          ∃ q, RecordedFrom p start items q ∧
            ∀ order, order.Perm items → p.recordChunks order = (.ok (), q))) ∧
    ∀ {ε : Type} [Executor ε] (e : Engine ε) (chunks : List Chunk), e.population = p →
      e.chunksFrom 0 p = .ok chunks → e.ScoresInAnyOrder chunks →
      (∀ i ∈ p.individuals, ∃ f, e.problem.score i.genes = .ok f) →
      e.evaluate.result = .ok () ∧ p.measureAll e.problem = .ok e.evaluate.engine.population := by
  refine ⟨?_, ?_, ?_⟩
  · intro c values
    refine ⟨?_, fun q => recorded_of_recordFitness, run_recordInPlace p c values⟩
    constructor
    · rintro ⟨q, h⟩
      exact (recordFitness_eq_ok_iff.1 h).1
    · intro hfit
      exact ⟨_, recordFitness_eq_ok_iff.2 ⟨hfit, rfl⟩⟩
  · intro start size chunks h items hchunks
    refine ⟨?_, recordedFrom_of_partition h hchunks⟩
    intro order horder
    obtain ⟨-, hinside, -⟩ := chunks_of_partition h
    rw [← hchunks, List.forall_mem_map] at hinside
    rw [recordChunks_fst_eq_ok_iff]
    constructor
    · intro hfits item hitem
      exact (hfits item (horder.mem_iff.2 hitem)).2
    · intro hsize item hitem
      have hitem := horder.mem_iff.1 hitem
      exact ⟨(hinside item hitem).2, hsize item hitem⟩
  · rintro ε _ e chunks rfl hchunks horder hscores
    exact Engine.evaluate_of_perm hchunks horder hscores

/-- Five individuals.  Two of them are recorded, three values for two slots are refused, and the
chunks behind the first slot are recorded from the back.  An engine whose executor turns the scores
of its chunks around measures everyone. -/
theorem recorded_in_any_order_five :
    let i (genes : List Bool) : Individual := .ofGenes genes
    let p : Population := ⟨[i [true, false], i [false, true], i [true, true], i [false, false],
      i [true, false]]⟩
    let front : Chunk := ⟨1, 3, by decide⟩
    let back : Chunk := ⟨3, 5, by decide⟩
    let items : List (Chunk × List Fitness) := [(front, [4, 9]), (back, [2, 7])]
    let all : Population := ⟨[i [true, false], ⟨[false, true], some 4⟩, ⟨[true, true], some 9⟩,
      ⟨[false, false], some 2⟩, ⟨[true, false], some 7⟩]⟩
    let problem : Problem := ⟨#[5, 7], #[1, 2], 2⟩
    let executor : Disturbed Backend := .ofEdits .sequential fun _ => [.reverse]
    let e : Engine (Disturbed Backend) :=
      ⟨executor, { Options.default with chunkSize := 2 }, problem, .fixed 1, p, 0⟩
    (∃ q, p.recordFitness front [4, 9] = .ok q ∧ Recorded p front [4, 9] q ∧
      q.get? 2 = some ⟨[true, true], some 9⟩ ∧ q.get? 3 = p.get? 3) ∧
    (∃ e, (recordInPlace front [4, 9, 2]).run p = (.error e, p)) ∧
    partition p.size 1 2 = .ok [front, back] ∧
    p.recordChunks items.reverse = (.ok (), all) ∧
    e.evaluate.result = .ok () ∧
      e.evaluate.engine.population = ⟨[⟨[true, false], some 5⟩, ⟨[false, true], some 7⟩,
        ⟨[true, true], some (-1)⟩, ⟨[false, false], some 0⟩, ⟨[true, false], some 5⟩]⟩ := by
  intro i p front back items all problem executor e
  obtain ⟨hone, hmany, hengine⟩ := recorded_in_any_order p
  have hchunks : partition p.size 1 2 = .ok [front, back] := by
    rw [partition, dif_pos (by decide)]
    simp [cut, p, front, back, size]
  refine ⟨?_, ?_, hchunks, ?_, ?_⟩
  · obtain ⟨hfits, hrecorded, -⟩ := hone front [4, 9]
    obtain ⟨q, hq⟩ := hfits.2 (by decide)
    have hq' := hrecorded q hq
    obtain ⟨j, hj, hnine⟩ := hq'.inside 1 9 rfl
    obtain rfl : i [true, true] = j := Option.some.inj hj
    exact ⟨q, hq, hq', hnine, hq'.outside 3 (by decide)⟩
  · obtain ⟨-, -, hplace⟩ := hone front [4, 9, 2]
    exact ⟨_, hplace⟩
  · obtain ⟨-, hsame⟩ := hmany 1 2 _ hchunks items rfl
    obtain ⟨q, -, hq⟩ := hsame (by decide)
    have hall : p.recordChunks items = (.ok (), all) := by decide
    obtain rfl : q = all := congrArg Prod.snd ((hq items (.refl _)).symm.trans hall)
    exact hq items.reverse (List.reverse_perm items)
  · have hscores : ∀ i ∈ p.individuals, ∃ f, problem.score i.genes = .ok f := by
      simp only [p, List.forall_mem_cons, List.not_mem_nil, false_implies, implies_true, and_true]
      exact ⟨⟨5, rfl⟩, ⟨7, rfl⟩, ⟨-1, by decide⟩, ⟨0, rfl⟩, ⟨5, rfl⟩⟩
    obtain ⟨chunks, hall⟩ := partition_of_pos (by decide : 0 < 2) p.size 0
    have horder : e.ScoresInAnyOrder chunks := List.reverse_perm _
    obtain ⟨hresult, hmeasured⟩ := hengine e chunks rfl hall horder hscores
    have hfive : p.measureAll problem = .ok ⟨[⟨[true, false], some 5⟩, ⟨[false, true], some 7⟩,
        ⟨[true, true], some (-1)⟩, ⟨[false, false], some 0⟩, ⟨[true, false], some 5⟩]⟩ := by
      decide
    exact ⟨hresult, Except.ok.inj (hmeasured.symm.trans hfive)⟩

end Population

end KnapsackEvolution
