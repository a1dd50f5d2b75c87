/-
# Actors that take requests in turn

Each dispatch sends its first request to the first actor, the next one to the next, and after the
last actor begins again with the first.  An actor counts a request when it takes it from its
mailbox, before the chunk function runs, and a fault of the chunk function ends the job and not the
actor.  So in whatever order the actors work and whatever becomes of the jobs, an actor has counted
of each dispatch the requests whose numbers are congruent to its own (`share`), and the counts are
known from the sizes of the dispatches alone (`Backend.received_in_turn`).
-/
import KnapsackEvolution.Proofs.Backends
import Mathlib.Algebra.BigOperators.Group.Finset.Piecewise
import Mathlib.Algebra.Order.BigOperators.Group.List
import Mathlib.Data.Int.CardIntervalMod

namespace KnapsackEvolution

/-! ## Shares -/

/-- How many of `requests` requests that are sent to `workers` actors in turn go to an actor. -/
def share (workers requests actor : Nat) : Nat := requests.count (· ≡ actor [MOD workers])

variable {workers : Nat}

lemma share_eq {actor : Nat} (h : actor < workers) (requests : Nat) :
    share workers requests actor =
      requests / workers + if actor < requests % workers then 1 else 0 := by
  have hpos : 0 < workers := Nat.zero_lt_of_lt h
  rw [share, Nat.count_modEq_card requests hpos, Nat.mod_eq_of_lt h]

lemma share_le_share {earlier later : Nat} (h : earlier ≤ later) (hlater : later < workers)
    (requests : Nat) : share workers requests later ≤ share workers requests earlier := by
  rw [share_eq hlater, share_eq (Nat.lt_of_le_of_lt h hlater)]
  split <;> split <;> omega

lemma share_le_succ_share {actor other : Nat} (hactor : actor < workers) (hother : other < workers)
    (requests : Nat) : share workers requests actor ≤ share workers requests other + 1 := by
  rw [share_eq hactor, share_eq hother]
  split <;> split <;> omega

lemma sum_share (h : 0 < workers) (requests : Nat) :
    ((List.range workers).map (share workers requests)).sum = requests := by
  show ∑ actor ∈ Finset.range workers, share workers requests actor = requests
  induction requests with
  | zero => simp [share]
  | succ requests ih =>
    -- the next request goes to the actor that its number leaves
    have hnext : ∀ actor ∈ Finset.range workers, share workers (requests + 1) actor =
        share workers requests actor + if requests % workers = actor then 1 else 0 := by
      intro actor hactor
      have hmod : requests ≡ actor [MOD workers] ↔ requests % workers = actor := by
        rw [Nat.ModEq, Nat.mod_eq_of_lt (Finset.mem_range.1 hactor)]
      rw [share, Nat.count_succ]
      simp only [hmod]
      rfl
    have hmem : requests % workers ∈ Finset.range workers :=
      Finset.mem_range.2 (Nat.mod_lt _ h)
    rw [Finset.sum_congr rfl hnext, Finset.sum_add_distrib, ih, Finset.sum_ite_eq, if_pos hmem]

/-! ## One dispatch -/

namespace Actors

variable {P T : Type}

lemma addressee_val (a : Actors) (request : Nat) :
    (a.addressee request).val = request % a.workers := rfl

/-- There are `workers` actors, and each has taken as many requests as `counts` says. -/
structure Counts (workers : Nat) (counts : Nat → Nat) (a : Actors) : Prop where
  workers_eq : a.workers = workers
  received_eq : ∀ actor < workers, a.received.toList[actor]? = some (counts actor)

namespace Counts

variable {counts : Nat → Nat} {a : Actors}

lemma toList_received (h : a.Counts workers counts) :
    a.received.toList = (List.range workers).map counts := by
  obtain ⟨rfl, hreceived⟩ := h
  apply List.ext_getElem?
  intro actor
  by_cases hactor : actor < a.workers
  · rw [hreceived actor hactor, List.getElem?_map, List.getElem?_range hactor]
    rfl
  · rw [List.getElem?_eq_none (by simpa using hactor),
      List.getElem?_eq_none (by simpa using hactor)]

lemma take (h : a.Counts workers counts) (request : Nat) :
    (a.take request).Counts workers fun actor =>
      counts actor + if request % workers = actor then 1 else 0 := by
  obtain ⟨rfl, hreceived⟩ := h
  refine ⟨rfl, ?_⟩
  intro actor hactor
  have hcount := hreceived actor hactor
  rw [Vector.getElem?_toList] at hcount ⊢
  rw [Actors.take, Vector.getElem?_set, addressee_val]
  by_cases haddressee : request % a.workers = actor
  · subst haddressee
    have hvalue : a.received[a.addressee request] = counts (request % a.workers) := by
      rw [Vector.getElem?_eq_getElem hactor] at hcount
      exact Option.some.inj hcount
    rw [if_pos rfl, if_pos rfl]
    exact congrArg (fun count => some (count + 1)) hvalue
  · rw [if_neg haddressee, if_neg haddressee, hcount]
    rfl

/-- In whatever order requests are taken, an actor counts those that were sent to it. -/
lemma serve (h : a.Counts workers counts) (results : Array (Except Error T)) (order : List Nat)
    (s : Slots T) :
    (order.foldl (Actors.serve results) (a, s)).1.Counts workers fun actor =>
      counts actor + order.countP (· % workers = actor) := by
  induction order generalizing a s counts with
  | nil => exact h
  | cons request order ih =>
    obtain ⟨hworkers, hreceived⟩ := ih (h.take request) (Crew.receive results s request)
    refine ⟨hworkers, ?_⟩
    intro actor hactor
    refine (hreceived actor hactor).trans ?_
    rw [List.countP_cons, Nat.add_assoc, Nat.add_comm (order.countP _)]
    simp only [decide_eq_true_eq]

lemma execute (h : a.Counts workers counts) (jobs : List (Chunk × P))
    (process : ChunkFunction P T) :
    (a.execute jobs process).2.Counts workers fun actor =>
      counts actor + share workers jobs.length actor := by
  obtain ⟨hworkers, hreceived⟩ := h.serve
    (jobs.map fun job => (Outcome.ofRun process job).result).toArray
    (a.arrival.order a.dispatches jobs.length) (.ofChunks (jobs.map (·.1)))
  refine ⟨hworkers, ?_⟩
  intro actor hactor
  refine (hreceived actor hactor).trans ?_
  have hshare : (a.arrival.order a.dispatches jobs.length).countP (· % workers = actor) =
      share workers jobs.length actor := by
    rw [(a.arrival.perm a.dispatches jobs.length).countP_eq]
    simp only [share, Nat.count, Nat.ModEq, Nat.mod_eq_of_lt hactor]
  rw [hshare]

end Counts

end Actors

/-! ## Dispatch after dispatch -/

/-- What is handed to a backend in one dispatch. -/
structure Batch where
  /-- What is handed in with a chunk. -/
  Payload : Type
  /-- What the work on a chunk gives. -/
  Value : Type
  jobs : List (Chunk × Payload)
  process : ChunkFunction Payload Value

namespace Backend

/-- The backend after some dispatches. -/
def afterBatches (b : Backend) : List Batch → Backend
  | [] => b
  | batch :: batches => (b.execute batch.jobs batch.process).2.afterBatches batches

/-- How many requests of some dispatches go to an actor. -/
def shares (workers : Nat) (batches : List Batch) (actor : Nat) : Nat :=
  (batches.map fun batch => share workers batch.jobs.length actor).sum

/-- Over some dispatches every actor counts the sum of its shares. -/
lemma exists_counts_afterBatches {a : Actors} {counts : Nat → Nat} (h : a.Counts workers counts)
    (batches : List Batch) :
    ∃ a', (actor a).afterBatches batches = actor a' ∧
      a'.Counts workers fun k => counts k + shares workers batches k := by
  induction batches generalizing a counts with
  | nil => exact ⟨a, rfl, h⟩
  | cons batch batches ih =>
    obtain ⟨a', hbackend, hcounts⟩ := ih (h.execute batch.jobs batch.process)
    refine ⟨a', hbackend, ?_⟩
    simpa only [shares, List.map_cons, List.sum_cons, Nat.add_assoc] using hcounts

lemma shares_le_shares {earlier later : Nat} (h : earlier ≤ later) (hlater : later < workers)
    (batches : List Batch) : shares workers batches later ≤ shares workers batches earlier := by
  apply List.sum_le_sum
  intro batch _
  exact share_le_share h hlater batch.jobs.length

lemma shares_le_add_length {actor other : Nat} (hactor : actor < workers) (hother : other < workers)
    (batches : List Batch) :
    shares workers batches actor ≤ shares workers batches other + batches.length := by
  induction batches with
  | nil => exact Nat.le_refl _
  | cons batch batches ih =>
    have hbatch := share_le_succ_share hactor hother batch.jobs.length
    simp only [shares, List.map_cons, List.sum_cons, List.length_cons] at ih ⊢
    omega

lemma sum_shares (h : 0 < workers) (batches : List Batch) :
    ((List.range workers).map (shares workers batches)).sum =
      (batches.map fun batch => batch.jobs.length).sum := by
  induction batches with
  | nil =>
    show ((List.range workers).map fun _ => 0).sum = 0
    simp
  | cons batch batches ih =>
    have hsplit : shares workers (batch :: batches) =
        fun k => share workers batch.jobs.length k + shares workers batches k := by
      funext k
      rw [shares, List.map_cons, List.sum_cons, shares]
    rw [hsplit, List.sum_map_add, sum_share h, ih, List.map_cons, List.sum_cons]

/-- At least one actor starts.  After any dispatches, with jobs that succeed, fail or fault in any
order, each actor has taken from every dispatch the requests whose numbers are congruent to its own
number.  So no actor has taken more than one before it, any two differ by at most the number of
dispatches, and together they have taken every request once; and the next dispatch is answered job
by job, whatever became of the earlier ones. -/
theorem received_in_turn (arrival : Arrival) (workers : Nat) (h : 0 < workers)
    (batches : List Batch) :
    ∃ b counts, start arrival .actor workers = .ok b ∧
      (b.afterBatches batches).received? = some counts ∧
      counts.length = workers ∧
      (∀ k < workers, counts[k]? = some
        (batches.map fun batch => batch.jobs.length.count (· ≡ k [MOD workers])).sum) ∧
      counts.Pairwise (fun earlier later => later ≤ earlier) ∧
      (∀ m ∈ counts, ∀ n ∈ counts, m ≤ n + batches.length) ∧
      counts.sum = (batches.map fun batch => batch.jobs.length).sum ∧
      ∀ batch : Batch, ((b.afterBatches batches).execute batch.jobs batch.process).1 =
        batch.jobs.map (Outcome.ofRun batch.process) := by
  let idle : Actors := ⟨workers, h, .replicate workers 0, arrival, 0⟩
  have hidle : idle.Counts workers fun _ => 0 := by
    refine ⟨rfl, ?_⟩
    intro actor hactor
    simp [idle, hactor]
  obtain ⟨a, hbackend, hreceived⟩ := exists_counts_afterBatches hidle batches
  simp only [Nat.zero_add] at hreceived
  refine ⟨actor idle, (List.range workers).map (shares workers batches), dif_pos h, ?_⟩
  rw [hbackend]
  refine ⟨congrArg some hreceived.toList_received, by simp, ?_, ?_, ?_, sum_shares h batches, ?_⟩
  · intro k hk
    rw [List.getElem?_map, List.getElem?_range hk]
    rfl
  · rw [List.pairwise_map]
    refine List.pairwise_lt_range.imp_of_mem ?_
    intro earlier later _ hlater hlt
    exact shares_le_shares (Nat.le_of_lt hlt) (List.mem_range.1 hlater) batches
  · intro m hm n hn
    obtain ⟨actor, hactor, rfl⟩ := List.mem_map.1 hm
    obtain ⟨other, hother, rfl⟩ := List.mem_map.1 hn
    exact shares_le_add_length (List.mem_range.1 hactor) (List.mem_range.1 hother) batches
  · intro batch
    exact execute_eq_map (actor a) batch.jobs batch.process

/-- Three actors that work backwards and two dispatches of four jobs, the first of which faults: the
first actor has taken two requests of each dispatch, the others one. -/
theorem received_in_turn_three_actors :
    let backwards : Arrival :=
      ⟨fun _ n => (List.range n).reverse, fun _ n => List.reverse_perm (List.range n)⟩
    let jobs : List (Chunk × Unit) := [(⟨0, 1, by decide⟩, ()), (⟨1, 2, by decide⟩, ()),
      (⟨2, 3, by decide⟩, ()), (⟨3, 4, by decide⟩, ())]
    let process : ChunkFunction Unit Nat := fun c _ =>
      if c.start = 0 then .error (.fault (.raised none)) else .ok c.size
    let batches : List Batch := [⟨Unit, Nat, jobs, process⟩, ⟨Unit, Nat, jobs, process⟩]
    0 < 3 ∧ ∃ b, start backwards .actor 3 = .ok b ∧
      (b.afterBatches batches).received? = some [4, 2, 2] := by
  intro backwards jobs process batches
  obtain ⟨b, counts, hstart, hreceived, hlength, hcounts, -⟩ :=
    received_in_turn backwards 3 (by decide) batches
  obtain ⟨first, second, third, rfl⟩ := List.length_eq_three.1 hlength
  obtain rfl := Option.some.inj (hcounts 0 (by decide))
  obtain rfl := Option.some.inj (hcounts 1 (by decide))
  obtain rfl := Option.some.inj (hcounts 2 (by decide))
  exact ⟨by decide, b, hstart, hreceived.trans (by decide)⟩

end Backend

end KnapsackEvolution
