/-
# The backends agree

A crew and a set of actors compute the result of every job and then put the replies into slots in
whatever order they come in.  Whether a reply comes early or late does not show: after any order
in which every job replies once, slot `i` holds the result of job `i` and nothing else.  So every
backend answers with the outcomes that the sequential one has, whatever it was used for before.

The main results are

* `Backend.execute_eq_map`: the outcomes of a backend are those of running each job by itself;
* `Outcome.collect_eq_ok_iff`, `Outcome.collect_eq_error_iff`: what collecting outcomes gives;
* `Backend.refines_sequential`: both together, for a backend that was started and used before.
-/
import KnapsackEvolution.Dispatch.Backend
import Mathlib.Data.List.Basic
import Mathlib.Tactic.Lemma

namespace KnapsackEvolution

variable {P T : Type}

/-! ## Collecting outcomes -/

namespace Outcome

/-- The first outcome without a value has the error `e`. -/
def FirstError (outcomes : List (Outcome T)) (e : Error) : Prop :=
  ∃ before o after, outcomes = before ++ o :: after ∧
    (∀ p ∈ before, ∃ value, p.result = .ok value) ∧ o.result = .error e

/-- An outcome with a value. -/
def ofValue (v : Chunk × T) : Outcome T := ⟨v.1, .ok v.2⟩

lemma ofRun_of_ok {process : ChunkFunction P T} {job : Chunk × P} {value : T}
    (h : process job.1 job.2 = .ok value) : ofRun process job = ofValue (job.1, value) := by
  simp [ofRun, ofValue, h, Except.mapError]

lemma result_ofRun_of_error {process : ChunkFunction P T} {job : Chunk × P} {failure : Failure}
    (h : process job.1 job.2 = .error failure) :
    (ofRun process job).result = .error (job.1.report failure) := by
  simp [ofRun, h, Except.mapError]

lemma result_ofRun_eq_ok_iff {process : ChunkFunction P T} {job : Chunk × P} {value : T} :
    (ofRun process job).result = .ok value ↔ process job.1 job.2 = .ok value := by
  cases h : process job.1 job.2 <;> simp [ofRun, h, Except.mapError]

lemma collect_cons_of_ok {o : Outcome T} {value : T} (h : o.result = .ok value)
    (rest : List (Outcome T)) :
    collect (o :: rest) = (collect rest).map ((o.chunk, value) :: ·) := by
  simp only [collect, h]
  cases collect rest <;> rfl

lemma collect_cons_of_error {o : Outcome T} {e : Error} (h : o.result = .error e)
    (rest : List (Outcome T)) : collect (o :: rest) = .error e := by
  simp only [collect, h]
  rfl

/-- Collecting succeeds just when every outcome has a value. -/
theorem collect_eq_ok_iff {outcomes : List (Outcome T)} {values : List (Chunk × T)} :
    collect outcomes = .ok values ↔ outcomes = values.map ofValue := by
  induction outcomes generalizing values with
  | nil =>
    constructor
    · intro h
      obtain rfl : [] = values := Except.ok.inj h
      rfl
    · intro h
      obtain rfl : values = [] := List.map_eq_nil_iff.1 h.symm
      rfl
  | cons o rest ih =>
    cases h : o.result with
    | error e =>
      rw [collect_cons_of_error h]
      constructor
      · intro h'
        cases h'
      · intro h'
        obtain ⟨v, vs, rfl, rfl, -⟩ := List.map_eq_cons_iff.1 h'.symm
        cases h
    | ok value =>
      rw [collect_cons_of_ok h]
      constructor
      · intro h'
        cases hr : collect rest with
        | error e => rw [hr] at h'; cases h'
        | ok vs =>
          rw [hr] at h'
          obtain rfl : (o.chunk, value) :: vs = values := Except.ok.inj h'
          rw [ih.1 hr, List.map_cons, ofValue, ← h]
      · intro h'
        obtain ⟨v, vs, rfl, rfl, hvs⟩ := List.map_eq_cons_iff.1 h'.symm
        obtain rfl : v.2 = value := Except.ok.inj h
        rw [ih.2 hvs.symm]
        rfl

lemma not_firstError_nil {e : Error} : ¬ FirstError ([] : List (Outcome T)) e := by
  rintro ⟨before, o, after, h, -, -⟩
  simp at h

/-- Collecting fails with the error of the first outcome that has none. -/
theorem collect_eq_error_iff {outcomes : List (Outcome T)} {e : Error} :
    collect outcomes = .error e ↔ FirstError outcomes e := by
  induction outcomes with
  | nil =>
    constructor
    · intro h
      cases h
    · intro h
      exact absurd h not_firstError_nil
  | cons o rest ih =>
    cases h : o.result with
    | error e' =>
      rw [collect_cons_of_error h]
      constructor
      · intro h'
        obtain rfl : e' = e := Except.error.inj h'
        exact ⟨[], o, rest, rfl, by simp, h⟩
      · rintro ⟨_ | ⟨p, before⟩, q, after, hsplit, hbefore, hq⟩
        · obtain ⟨rfl, rfl⟩ := List.cons.inj hsplit
          rw [Except.error.inj (h.symm.trans hq)]
        · obtain ⟨rfl, -⟩ := List.cons.inj hsplit
          obtain ⟨value, hvalue⟩ := hbefore o (by simp)
          rw [h] at hvalue
          cases hvalue
    | ok value =>
      rw [collect_cons_of_ok h]
      constructor
      · intro h'
        have hrest : collect rest = .error e := by
          cases hr : collect rest with
          | error e' => rw [hr] at h'; exact h'
          | ok vs => rw [hr] at h'; cases h'
        obtain ⟨before, q, after, rfl, hbefore, hq⟩ := ih.1 hrest
        refine ⟨o :: before, q, after, rfl, ?_, hq⟩
        rintro p (_ | ⟨_, hp⟩)
        · exact ⟨value, h⟩
        · exact hbefore p hp
      · rintro ⟨_ | ⟨p, before⟩, q, after, hsplit, hbefore, hq⟩
        · obtain ⟨rfl, rfl⟩ := List.cons.inj hsplit
          rw [h] at hq
          cases hq
        · obtain ⟨rfl, rfl⟩ := List.cons.inj hsplit
          rw [ih.2 ⟨before, q, after, rfl, fun p hp => hbefore p (by simp [hp]), hq⟩]
          rfl

lemma collect_map_ofRun_of_ok {jobs : List (Chunk × P)} {process : ChunkFunction P T}
    {values : List T} (h : jobs.map (fun job => process job.1 job.2) = values.map .ok) :
    collect (jobs.map (ofRun process)) = .ok ((jobs.map (·.1)).zip values) := by
  rw [collect_eq_ok_iff]
  induction jobs generalizing values with
  | nil => rfl
  | cons job jobs ih =>
    cases values with
    | nil => simp at h
    | cons value values =>
      obtain ⟨hjob, hjobs⟩ := List.cons.inj h
      rw [List.map_cons, ofRun_of_ok hjob, ih hjobs]
      rfl

lemma collect_map_ofRun_of_error {before after : List (Chunk × P)} {job : Chunk × P}
    {process : ChunkFunction P T} {failure : Failure}
    (hbefore : ∀ j ∈ before, ∃ value, process j.1 j.2 = .ok value)
    (hjob : process job.1 job.2 = .error failure) :
    collect ((before ++ job :: after).map (ofRun process)) = .error (job.1.report failure) := by
  refine collect_eq_error_iff.2 ⟨before.map (ofRun process), ofRun process job,
    after.map (ofRun process), by simp, ?_, result_ofRun_of_error hjob⟩
  intro p hp
  obtain ⟨j, hj, rfl⟩ := List.mem_map.1 hp
  obtain ⟨value, hvalue⟩ := hbefore j hj
  exact ⟨value, result_ofRun_eq_ok_iff.2 hvalue⟩

/-- If every job succeeds, so does the collecting: the values come with the chunks of the jobs in
order, and each one belongs to a job. -/
lemma exists_collect {jobs : List (Chunk × P)} {process : ChunkFunction P T}
    {Q : Chunk × P → T → Prop}
    (h : ∀ job ∈ jobs, ∃ value, process job.1 job.2 = .ok value ∧ Q job value) :
    ∃ values, collect (jobs.map (ofRun process)) = .ok values ∧
      values.map (·.1) = jobs.map (·.1) ∧
      ∀ v ∈ values, ∃ job ∈ jobs, v.1 = job.1 ∧ Q job v.2 := by
  induction jobs with
  | nil => exact ⟨[], rfl, rfl, by simp⟩
  | cons job jobs ih =>
    obtain ⟨value, hvalue, hQ⟩ := h job (by simp)
    obtain ⟨values, hvalues, hchunks, hjobs⟩ := ih fun job hjob => h job (by simp [hjob])
    refine ⟨(job.1, value) :: values, ?_, congrArg (job.1 :: ·) hchunks, ?_⟩
    · rw [List.map_cons, collect_cons_of_ok (result_ofRun_eq_ok_iff.2 hvalue), hvalues]
      rfl
    · rintro v (_ | ⟨_, hv⟩)
      · exact ⟨job, by simp, rfl, hQ⟩
      · obtain ⟨job', hjob', hv⟩ := hjobs v hv
        exact ⟨job', by simp [hjob'], hv⟩

end Outcome

/-! ## Replies in any order -/

namespace Crew

/-- A place whose job is among those that replied holds the result of the job; every other place
is as it was. -/
lemma getElem?_foldl_receive {results : Array (Except Error T)} {place : Nat}
    (hplace : place < results.size) (order : List Nat) (s : Slots T) :
    (order.foldl (receive results) s).cells[place]? =
      if place ∈ order then s.cells[place]?.map fun cell => (cell.1, some results[place])
      else s.cells[place]? := by
  induction order generalizing s with
  | nil => simp
  | cons job order ih =>
    rw [List.foldl_cons, ih]
    by_cases hjob : job = place
    · -- a later reply to the same place writes the same result again
      subst hjob
      have hreceive : receive results s job = s.fill job results[job] := by
        simp [receive, hplace]
      rw [hreceive, Slots.getElem?_fill]
      by_cases horder : job ∈ order <;> cases s.cells[job]? <;> simp [horder]
    · have hreceive : (receive results s job).cells[place]? = s.cells[place]? := by
        unfold receive
        split
        · rw [Slots.getElem?_fill, if_neg hjob]
        · rfl
      rw [hreceive]
      simp [Ne.symm hjob]

lemma length_foldl_receive (results : Array (Except Error T)) (order : List Nat) (s : Slots T) :
    (order.foldl (receive results) s).cells.length = s.cells.length := by
  induction order generalizing s with
  | nil => rfl
  | cons job order ih =>
    rw [List.foldl_cons, ih, receive]
    split <;> simp

/-- Once every job has replied, whatever the order, the slots hold the outcomes of the jobs. -/
theorem finish_foldl_receive (jobs : List (Chunk × P)) (process : ChunkFunction P T)
    {order : List Nat} (horder : order.Perm (List.range jobs.length)) (cause : Loss) :
    (order.foldl (receive (jobs.map fun job => (Outcome.ofRun process job).result).toArray)
      (Slots.ofChunks (jobs.map (·.1)))).finish cause = jobs.map (Outcome.ofRun process) := by
  apply List.ext_getElem?
  intro place
  rw [Slots.finish, List.getElem?_map, List.getElem?_map]
  by_cases hplace : place < jobs.length
  · -- every place is among those that replied
    rw [getElem?_foldl_receive (by simpa using hplace),
      if_pos (horder.mem_iff.2 (List.mem_range.2 hplace))]
    simp [Slots.ofChunks, hplace, Outcome.ofRun]
  · rw [List.getElem?_eq_none (by simpa [length_foldl_receive] using hplace),
      List.getElem?_eq_none (by simpa using hplace)]
    rfl

lemma execute_fst (crew : Crew) (jobs : List (Chunk × P)) (process : ChunkFunction P T) :
    (crew.execute jobs process).1 = jobs.map (Outcome.ofRun process) :=
  finish_foldl_receive jobs process (crew.arrival.perm _ _) .unreported

end Crew

namespace Actors

lemma foldl_serve_snd (results : Array (Except Error T)) (order : List Nat) (a : Actors)
    (s : Slots T) :
    (order.foldl (serve results) (a, s)).2 = order.foldl (Crew.receive results) s := by
  induction order generalizing a s with
  | nil => rfl
  | cons request order ih => exact ih (a.take request) (Crew.receive results s request)

lemma execute_fst (a : Actors) (jobs : List (Chunk × P)) (process : ChunkFunction P T) :
    (a.execute jobs process).1 = jobs.map (Outcome.ofRun process) := by
  have h := Crew.finish_foldl_receive jobs process (a.arrival.perm a.dispatches jobs.length)
    .unanswered
  rw [← foldl_serve_snd _ _ a] at h
  exact h

lemma workers_foldl_serve (results : Array (Except Error T)) (order : List Nat)
    (s : Actors × Slots T) : (order.foldl (serve results) s).1.workers = s.1.workers := by
  induction order generalizing s with
  | nil => rfl
  | cons request order ih => exact ih (serve results s request)

end Actors

/-! ## The backends -/

namespace Backend

/-- Every backend answers with the outcomes of running each job by itself. -/
theorem execute_eq_map (b : Backend) (jobs : List (Chunk × P)) (process : ChunkFunction P T) :
    (b.execute jobs process).1 = jobs.map (Outcome.ofRun process) := by
  cases b with
  | sequential => rfl
  | forkJoin crew => exact crew.execute_fst jobs process
  | workerPool crew => exact crew.execute_fst jobs process
  | actor actors => exact actors.execute_fst jobs process

/-- What a backend may have become after some dispatches, of any jobs with any chunk functions. -/
inductive Becomes (b : Backend) : Backend → Prop
  /-- Nothing has been dispatched yet. -/
  | unused : Becomes b b
  /-- One more dispatch. -/
  | dispatched {b' : Backend} {P T : Type} (jobs : List (Chunk × P))
      (process : ChunkFunction P T) : Becomes b b' → Becomes b (b'.execute jobs process).2

lemma execute_snd (b : Backend) (jobs : List (Chunk × P)) (process : ChunkFunction P T) :
    (b.execute jobs process).2.kind = b.kind ∧ (b.execute jobs process).2.workers = b.workers := by
  cases b with
  | sequential | forkJoin | workerPool => exact ⟨rfl, rfl⟩
  | actor actors => exact ⟨rfl, Actors.workers_foldl_serve _ _ _⟩

lemma Becomes.staff_eq {b b' : Backend} (h : Becomes b b') :
    b'.kind = b.kind ∧ b'.workers = b.workers := by
  induction h with
  | unused => exact ⟨rfl, rfl⟩
  | @dispatched b' _ _ jobs process _ ih =>
    obtain ⟨hkind, hworkers⟩ := b'.execute_snd jobs process
    exact ⟨hkind.trans ih.1, hworkers.trans ih.2⟩

/-- A backend starts with the workers that were asked for; the sequential one has its caller. -/
lemma start_eq_ok (arrival : Arrival) (kind : Kind) {workers : Nat} (h : 0 < workers) :
    ∃ b, start arrival kind workers = .ok b ∧ b.kind = kind ∧
      b.workers = if kind = .sequential then 1 else workers := by
  cases kind with
  | sequential => exact ⟨_, rfl, rfl, rfl⟩
  | forkJoin => exact ⟨_, dif_pos h, rfl, rfl⟩
  | workerPool => exact ⟨_, dif_pos h, rfl, rfl⟩
  | actor => exact ⟨_, dif_pos h, rfl, rfl⟩

/-- A backend of any kind with at least one worker starts, and it has that kind and so many workers
as long as it is used; the sequential one has its caller alone.  Whatever it was used for before,
and in whatever order replies come in, it answers a dispatch with what the sequential backend
answers: one outcome for each job in the order of the jobs, on the chunk of the job and with the
guarded result of the chunk function.  Collecting them gives all values in order, or the error of
the first job that fails. -/
theorem refines_sequential (arrival : Arrival) (kind : Kind) (workers : Nat) (h : 0 < workers) :
    ∃ b, start arrival kind workers = .ok b ∧ ∀ b', Becomes b b' →
      (b'.kind = kind ∧ b'.workers = if kind = .sequential then 1 else workers) ∧
      ∀ {P T : Type} (jobs : List (Chunk × P)) (process : ChunkFunction P T),
        (b'.execute jobs process).1 = (sequential.execute jobs process).1 ∧
        (b'.execute jobs process).1 = jobs.map (fun job =>
          ⟨job.1, (process job.1 job.2).mapError job.1.report⟩) ∧
        (∀ values : List T, jobs.map (fun job => process job.1 job.2) = values.map .ok →
          Outcome.collect (b'.execute jobs process).1 = .ok ((jobs.map (·.1)).zip values)) ∧
        (∀ (before : List (Chunk × P)) (job : Chunk × P) (after : List (Chunk × P))
            (failure : Failure), jobs = before ++ job :: after →
          (∀ j ∈ before, ∃ value, process j.1 j.2 = .ok value) →
          process job.1 job.2 = .error failure →
          Outcome.collect (b'.execute jobs process).1 = .error (job.1.report failure)) := by
  obtain ⟨b, hb, hkind, hworkers⟩ := start_eq_ok arrival kind h
  refine ⟨b, hb, fun b' hb' => ⟨?_, fun {P T} jobs process => ⟨?_, ?_, ?_, ?_⟩⟩⟩
  · obtain ⟨hkind', hworkers'⟩ := hb'.staff_eq
    exact ⟨hkind'.trans hkind, hworkers'.trans hworkers⟩
  · rw [execute_eq_map, execute_eq_map]
  · exact execute_eq_map b' jobs process
  · intro values hvalues
    rw [execute_eq_map]
    exact Outcome.collect_map_ofRun_of_ok hvalues
  · rintro before job after failure rfl hbefore hjob
    rw [execute_eq_map]
    exact Outcome.collect_map_ofRun_of_error hbefore hjob

/-- Two workers whose replies come in backwards, on their second dispatch: the job in the middle
faults, and its fault is what collecting gives. -/
theorem refines_sequential_backwards :
    let jobs : List (Chunk × Nat) := [(⟨0, 2, by decide⟩, 7), (⟨2, 4, by decide⟩, 8),
      (⟨4, 5, by decide⟩, 9)]
    let process : ChunkFunction Nat Nat := fun c n =>
      if n = 8 then .error (.fault .addOverflow)
      else if n = 9 then .error (.error .emptyPopulation) else .ok (c.size + n)
    0 < 2 ∧
      ∃ b, start ⟨fun _ n => (List.range n).reverse, fun _ n => List.reverse_perm (List.range n)⟩
          .workerPool 2 = .ok b ∧ (b.execute jobs process).2.workers = 2 ∧
        Outcome.collect ((b.execute jobs process).2.execute jobs process).1 =
          .error (.dispatch 2 4 (.faulted .addOverflow)) := by
  intro jobs process
  obtain ⟨b, hstart, hb⟩ := refines_sequential ⟨fun _ n => (List.range n).reverse,
    fun _ n => List.reverse_perm (List.range n)⟩ .workerPool 2 (by decide)
  obtain ⟨⟨-, hworkers⟩, hanswer⟩ := hb _ (.dispatched jobs process .unused)
  refine ⟨by decide, b, hstart, hworkers, ?_⟩
  obtain ⟨-, -, -, herror⟩ := hanswer jobs process
  refine herror [jobs[0]] jobs[1] [jobs[2]] (.fault .addOverflow) rfl ?_ rfl
  intro j hj
  obtain rfl := List.mem_singleton.1 hj
  exact ⟨9, rfl⟩

end Backend

end KnapsackEvolution
