/-
# No job is lost on the way through the queue

A job starts with the caller, waits in the queue, is run by a worker, becomes a reply, and is
received.  Each move takes one job one place further (`Handover.Step`).  So no job is ever in two
places or in none, the moves of a dispatch can be counted, and the only question is whether the
parties can end up waiting for each other.  They cannot: a busy worker can always reply, an idle
one can take from a queue that is not empty, an empty queue has room for the caller, and once the
caller has handed out all jobs it listens.

The caller listens until no reply handle is left.  It holds one itself until it has handed out the
last job, and every job carries one until it has replied.
-/
import KnapsackEvolution.Dispatch.Handover
import KnapsackEvolution.Proofs.Backends

namespace KnapsackEvolution

namespace Handover

variable {P T : Type} {h h' : Handover} {move : Move} {moves : List Move} {jobs workers : Nat}

/-! ## Moves -/

/-- What each move does to the places that jobs can be in. -/
inductive Step : Handover → Move → Handover → Prop where
  | enqueue {job : Nat} {waiting queue : List Nat} {busy : List (Option Nat)}
      {replies received : List Nat} (hroom : queue.length < busy.length) :
      Step ⟨job :: waiting, queue, busy, replies, received⟩ .enqueue
        ⟨waiting, queue ++ [job], busy, replies, received⟩
  | take {job : Nat} {waiting queue : List Nat} {before behind : List (Option Nat)}
      {replies received : List Nat} :
      Step ⟨waiting, job :: queue, before ++ none :: behind, replies, received⟩
        (.take before.length) ⟨waiting, queue, before ++ some job :: behind, replies, received⟩
  | finish {job : Nat} {waiting queue : List Nat} {before behind : List (Option Nat)}
      {replies received : List Nat} :
      Step ⟨waiting, queue, before ++ some job :: behind, replies, received⟩
        (.finish before.length)
        ⟨waiting, queue, before ++ none :: behind, replies ++ [job], received⟩
  | receive {job : Nat} {queue : List Nat} {busy : List (Option Nat)}
      {replies received : List Nat} :
      Step ⟨[], queue, busy, job :: replies, received⟩ .receive
        ⟨[], queue, busy, replies, received ++ [job]⟩

lemma exists_set_of_getElem? {α : Type} {l : List α} {place : Nat} {a : α} (ha : l[place]? = some a)
    (b : α) : ∃ before behind, l = before ++ a :: behind ∧ before.length = place ∧
      l.set place b = before ++ b :: behind := by
  obtain ⟨hplace, rfl⟩ := List.getElem?_eq_some_iff.1 ha
  exact List.exists_of_set hplace

lemma step_of_after? (hafter : h.after? move = some h') : Step h move h' := by
  obtain ⟨waiting, queue, busy, replies, received⟩ := h
  cases move with
  | enqueue =>
    cases waiting with
    | nil => simp [after?] at hafter
    | cons job waiting =>
      by_cases hroom : queue.length < busy.length
      · obtain rfl : ⟨waiting, queue ++ [job], busy, replies, received⟩ = h' := by
          simpa [after?, capacity, hroom] using hafter
        exact .enqueue hroom
      · simp [after?, capacity, hroom] at hafter
  | take worker =>
    cases queue with
    | nil => simp [after?] at hafter
    | cons job queue =>
      rcases hbusy : busy[worker]? with _ | _ | other
      · simp [after?, hbusy] at hafter
      · obtain ⟨before, behind, rfl, rfl, hset⟩ := exists_set_of_getElem? hbusy (some job)
        simp only [after?, hbusy, hset, Option.some.injEq] at hafter
        subst hafter
        exact .take
      · simp [after?, hbusy] at hafter
  | finish worker =>
    rcases hbusy : busy[worker]? with _ | _ | job
    · simp [after?, hbusy] at hafter
    · simp [after?, hbusy] at hafter
    · obtain ⟨before, behind, rfl, rfl, hset⟩ := exists_set_of_getElem? hbusy none
      simp only [after?, hbusy, hset, Option.some.injEq] at hafter
      subst hafter
      exact .finish
  | receive =>
    cases waiting with
    | cons job waiting => simp [after?] at hafter
    | nil =>
      cases replies with
      | nil => simp [after?] at hafter
      | cons job replies =>
        simp only [after?, Option.some.injEq] at hafter
        subst hafter
        exact .receive

lemma Step.after? (hstep : Step h move h') : h.after? move = some h' := by
  cases hstep with
  | enqueue hroom => simp [Handover.after?, capacity, hroom]
  | take => simp [Handover.after?]
  | finish => simp [Handover.after?]
  | receive => rfl

theorem after?_eq_some_iff : h.after? move = some h' ↔ Step h move h' :=
  ⟨step_of_after?, Step.after?⟩

/-! ## Where the jobs are -/

/-- The jobs by the place they are in. -/
def places (h : Handover) : List Nat :=
  h.waiting ++ h.queue ++ h.running ++ h.replies ++ h.received

@[simp] lemma running_idle (waiting queue : List Nat) (before behind : List (Option Nat))
    (replies received : List Nat) :
    running ⟨waiting, queue, before ++ none :: behind, replies, received⟩ =
      before.filterMap id ++ behind.filterMap id := by
  simp [running]

@[simp] lemma running_busy (job : Nat) (waiting queue : List Nat)
    (before behind : List (Option Nat)) (replies received : List Nat) :
    running ⟨waiting, queue, before ++ some job :: behind, replies, received⟩ =
      before.filterMap id ++ job :: behind.filterMap id := by
  simp [running]

/-- A move neither loses nor duplicates a job. -/
lemma Step.places_perm (hstep : Step h move h') : h'.places.Perm h.places := by
  rw [List.perm_iff_count]
  intro job
  cases hstep with
  | enqueue =>
    simp only [places, running, List.count_append, List.count_cons, List.count_nil]
    omega
  | take =>
    simp only [places, running_idle, running_busy, List.count_append, List.count_cons]
    omega
  | finish =>
    simp only [places, running_idle, running_busy, List.count_append, List.count_cons,
      List.count_nil]
    omega
  | receive =>
    simp only [places, running, List.count_append, List.count_cons, List.count_nil]
    omega

/-- Every job of a dispatch is in one place, no worker has joined or left, and the queue is no
longer than there are workers. -/
structure Accounted (jobs workers : Nat) (h : Handover) : Prop where
  places_perm : h.places.Perm (List.range jobs)
  length_busy : h.busy.length = workers
  length_queue : h.queue.length ≤ workers

lemma Accounted.start (jobs workers : Nat) : Accounted jobs workers (start jobs workers) := by
  refine ⟨?_, List.length_replicate, Nat.zero_le _⟩
  simp [places, Handover.start, running]

lemma Accounted.step (hh : Accounted jobs workers h) (hstep : Step h move h') :
    Accounted jobs workers h' := by
  obtain ⟨hplaces, hbusy, hqueue⟩ := hh
  refine ⟨hstep.places_perm.trans hplaces, ?_, ?_⟩
  · rw [← hbusy]
    cases hstep <;> simp
  · -- only a job that is put into the queue makes it longer, and then there was room
    cases hstep with
    | enqueue hroom =>
      rw [List.length_append, List.length_singleton, ← hbusy]
      exact hroom
    | take => exact Nat.le_of_succ_le hqueue
    | finish => exact hqueue
    | receive => exact hqueue

/-! ## How far the jobs have to go -/

/-- How many moves it takes until all jobs are received: four for one that the caller has, three
for one in the queue, two for one that runs, and one for a reply. -/
def distance (h : Handover) : Nat :=
  4 * h.waiting.length + 3 * h.queue.length + 2 * h.running.length + h.replies.length

lemma distance_start (jobs workers : Nat) : (start jobs workers).distance = 4 * jobs := by
  simp [distance, start, running]

/-- Every move is one of them. -/
lemma Step.distance (hstep : Step h move h') : h'.distance + 1 = h.distance := by
  cases hstep with
  | enqueue =>
    simp only [Handover.distance, running, List.length_append, List.length_cons, List.length_nil]
    omega
  | take =>
    simp only [Handover.distance, running_idle, running_busy, List.length_append, List.length_cons]
    omega
  | finish =>
    simp only [Handover.distance, running_idle, running_busy, List.length_append, List.length_cons,
      List.length_nil]
    omega
  | receive =>
    simp only [Handover.distance, running, List.length_cons]
    omega

lemma isOver_iff : h.isOver = true ↔
    h.waiting = [] ∧ h.queue = [] ∧ h.running = [] ∧ h.replies = [] := by
  simp [isOver, and_assoc]

lemma isOver_iff_distance : h.isOver = true ↔ h.distance = 0 := by
  rw [isOver_iff]
  simp only [Handover.distance, ← List.length_eq_zero_iff]
  omega

/-! ## Reply handles -/

/-- The caller's own handle, which it drops when it has handed out all jobs. -/
def ownHandles (h : Handover) : Nat := if h.waiting.isEmpty then 0 else 1

/-- The reply handles that are left: the caller's own, and one for each job that has been handed out
and has not replied. -/
def handles (h : Handover) : Nat := h.ownHandles + h.queue.length + h.running.length

/-- The move of a worker that drops the handle of its job. -/
def Move.drops : Move → Bool
  | .finish _ => true
  | _ => false

/-- The handles of jobs are made one by one when the jobs are handed out, and each is dropped with
the reply of its job. -/
lemma Step.handles (hstep : Step h move h') :
    h'.queue.length + h'.running.length + [move].countP Move.drops =
      h.queue.length + h.running.length + [move].count .enqueue := by
  cases hstep with
  | enqueue => simp [running, Move.drops, Nat.add_right_comm]
  | take =>
    simp [Move.drops]
    omega
  | finish =>
    simp [Move.drops]
    omega
  | receive => simp [running, Move.drops]

/-- The caller goes on when no handle is left and every reply is received. -/
lemma isOver_iff_handles : h.isOver = true ↔ h.handles = 0 ∧ h.replies = [] := by
  rw [isOver_iff]
  cases hwaiting : h.waiting <;> simp [handles, ownHandles, hwaiting, and_assoc]

/-! ## Progress -/

lemma after?_of_isOver (hover : h.isOver = true) (move : Move) : h.after? move = none := by
  rw [Option.eq_none_iff_forall_ne_some]
  intro next hnext
  have hnext := (step_of_after? hnext).distance
  rw [isOver_iff_distance] at hover
  omega

/-- With a worker some move is possible until the caller goes on. -/
theorem exists_step (hworkers : 0 < h.busy.length) (hover : ¬ h.isOver = true) :
    ∃ move h', Step h move h' := by
  obtain ⟨waiting, queue, busy, replies, received⟩ := h
  by_cases hbusy : ∃ job, some job ∈ busy
  · -- a busy worker can reply
    obtain ⟨job, hjob⟩ := hbusy
    obtain ⟨before, behind, rfl⟩ := List.append_of_mem hjob
    exact ⟨_, _, .finish⟩
  · have hidle : ∀ entry ∈ busy, entry = none := by
      rintro (_ | job) hentry
      · rfl
      · exact absurd ⟨job, hentry⟩ hbusy
    cases queue with
    | cons job queue =>
      -- all workers are idle, and the first one can take the oldest job
      cases busy with
      | nil => exact absurd hworkers (Nat.lt_irrefl 0)
      | cons entry busy =>
        obtain rfl := hidle entry List.mem_cons_self
        exact ⟨.take 0, _, @Step.take job waiting queue [] busy replies received⟩
    | nil =>
      cases waiting with
      | cons job waiting => exact ⟨_, _, .enqueue hworkers⟩
      | nil =>
        cases replies with
        | cons job replies => exact ⟨_, _, .receive⟩
        | nil =>
          refine absurd (isOver_iff.2 ⟨rfl, rfl, ?_, rfl⟩) hover
          simpa [running] using hidle

/-! ## Runs -/

lemma run?_cons_eq_some_iff : h.run? (move :: moves) = some h' ↔
    ∃ next, Step h move next ∧ next.run? moves = some h' := by
  simp only [run?, List.foldlM_cons, Option.bind_eq_bind, Option.bind_eq_some_iff,
    after?_eq_some_iff]

/-- What holds at first, with no moves made, and is kept by each step holds after a run. -/
lemma run?_induction {motive : List Move → Handover → Prop} (hstart : motive [] h)
    (hkeep : ∀ {made move g g'}, motive made g → Step g move g' → motive (made ++ [move]) g')
    (hrun : h.run? moves = some h') : motive moves h' := by
  -- a run of `moves` that `made` came before
  have hafter : ∀ {made g}, motive made g → g.run? moves = some h' →
      motive (made ++ moves) h' := by
    clear hstart hrun
    induction moves with
    | nil =>
      intro made g hg hrun
      obtain rfl : g = h' := Option.some.inj hrun
      rwa [List.append_nil]
    | cons move moves ih =>
      intro made g hg hrun
      obtain ⟨next, hstep, hrest⟩ := run?_cons_eq_some_iff.1 hrun
      have hnext := ih (hkeep hg hstep) hrest
      rwa [List.append_assoc] at hnext
  exact hafter hstart hrun

lemma Accounted.run (hh : Accounted jobs workers h) (hrun : h.run? moves = some h') :
    Accounted jobs workers h' :=
  run?_induction (motive := fun _ g => Accounted jobs workers g) hh (fun hg => hg.step) hrun

lemma distance_run (hrun : h.run? moves = some h') : moves.length + h'.distance = h.distance := by
  refine run?_induction (motive := fun made g => made.length + g.distance = h.distance)
    (Nat.zero_add _) ?_ hrun
  intro made move g g' hg hstep
  have hnext := hstep.distance
  rw [List.length_append, List.length_singleton]
  omega

lemma handles_run (hrun : h.run? moves = some h') :
    h'.queue.length + h'.running.length + moves.countP Move.drops =
      h.queue.length + h.running.length + moves.count .enqueue := by
  refine run?_induction (motive := fun made g =>
    g.queue.length + g.running.length + made.countP Move.drops =
      h.queue.length + h.running.length + made.count .enqueue) rfl ?_ hrun
  intro made move g g' hg hstep
  have hnext := hstep.handles
  rw [List.countP_append, List.count_append]
  omega

/-- A dispatch can be brought to its end from wherever it is. -/
theorem Accounted.exists_run (hh : Accounted jobs workers h) (workers_pos : 0 < workers) :
    ∃ moves last, h.run? moves = some last ∧ last.isOver = true := by
  induction hway : h.distance generalizing h with
  | zero => exact ⟨[], h, rfl, isOver_iff_distance.2 hway⟩
  | succ way ih =>
    have hover : ¬ h.isOver = true := by
      rw [isOver_iff_distance]
      omega
    obtain ⟨move, next, hstep⟩ := exists_step (hh.length_busy ▸ workers_pos) hover
    have hnext := hstep.distance
    obtain ⟨moves, last, hrun, hlast⟩ := ih (hh.step hstep) (by omega)
    exact ⟨move :: moves, last, run?_cons_eq_some_iff.2 ⟨next, hstep, hrun⟩, hlast⟩

/-! ## The slots of the caller -/

lemma Accounted.received_perm (hh : Accounted jobs workers h) (hover : h.isOver = true) :
    h.received.Perm (List.range jobs) := by
  obtain ⟨hwaiting, hqueue, hrunning, hreplies⟩ := isOver_iff.1 hover
  have hplaces := hh.places_perm
  rwa [places, hwaiting, hqueue, hrunning, hreplies] at hplaces

lemma Accounted.isOver_of_received (hh : Accounted jobs workers h)
    (hall : ∀ job < jobs, job ∈ h.received) : h.isOver = true := by
  have hjobs : jobs ≤ h.received.length := by
    have hsub : List.range jobs ⊆ h.received := fun job hjob => hall job (List.mem_range.1 hjob)
    simpa using List.nodup_range.length_le_of_subset hsub
  have hlength := hh.places_perm.length_eq
  simp only [places, List.length_append, List.length_range] at hlength
  rw [isOver_iff]
  simp only [← List.length_eq_zero_iff]
  omega

/-- The slots of the caller: the replies that it has received, each in the place of its job. -/
def slots (h : Handover) (work : List (Chunk × P)) (process : ChunkFunction P T) : Slots T :=
  h.received.foldl (Crew.receive (work.map fun job => (Outcome.ofRun process job).result).toArray)
    (Slots.ofChunks (work.map (·.1)))

lemma getElem?_slots (h : Handover) {work : List (Chunk × P)} (process : ChunkFunction P T)
    {place : Nat} (hplace : place < work.length) :
    (h.slots work process).cells[place]? = some (work[place].1,
      if place ∈ h.received then some (Outcome.ofRun process work[place]).result else none) := by
  rw [slots, Crew.getElem?_foldl_receive (by simpa using hplace)]
  by_cases hreceived : place ∈ h.received <;> simp [hreceived, Slots.ofChunks, hplace]

/-- Every slot is filled exactly when every job has been received. -/
lemma slots_filled_iff (h : Handover) (work : List (Chunk × P)) (process : ChunkFunction P T) :
    (∀ cell ∈ (h.slots work process).cells, cell.2 ≠ none) ↔
      ∀ job < work.length, job ∈ h.received := by
  constructor
  · intro hfilled job hjob
    have hcell := getElem?_slots h process hjob
    by_contra hreceived
    rw [if_neg hreceived] at hcell
    exact hfilled _ (List.mem_of_getElem? hcell) rfl
  · intro hall cell hcell
    obtain ⟨place, hplace⟩ := List.mem_iff_getElem?.1 hcell
    have hlt : place < work.length := by
      have hbound := (List.getElem?_eq_some_iff.1 hplace).1
      rwa [slots, Crew.length_foldl_receive, Slots.length_ofChunks, List.length_map] at hbound
    rw [getElem?_slots h process hlt, if_pos (hall place hlt)] at hplace
    obtain rfl := Option.some.inj hplace
    exact Option.some_ne_none _

/-- The caller goes on when its slots are filled, and no earlier. -/
lemma Accounted.isOver_iff_filled {work : List (Chunk × P)} (hh : Accounted work.length workers h)
    (process : ChunkFunction P T) :
    h.isOver = true ↔ ∀ cell ∈ (h.slots work process).cells, cell.2 ≠ none := by
  rw [slots_filled_iff]
  constructor
  · intro hover job hjob
    exact (hh.received_perm hover).mem_iff.2 (List.mem_range.2 hjob)
  · exact hh.isOver_of_received

/-- When the caller goes on the slots hold the outcome of every job. -/
lemma Accounted.finish_slots {work : List (Chunk × P)} (hh : Accounted work.length workers h)
    (hover : h.isOver = true) (process : ChunkFunction P T) :
    (h.slots work process).finish .unreported = work.map (Outcome.ofRun process) :=
  Crew.finish_foldl_receive work process (hh.received_perm hover) .unreported

/-- The order in which a dispatch receives the replies is one in which a crew may be given them. -/
theorem finish_slots_eq_execute (crew : Crew) {work : List (Chunk × P)} {moves : List Move}
    (hrun : (start work.length crew.workers).run? moves = some h) (hover : h.isOver = true)
    (process : ChunkFunction P T) :
    (h.slots work process).finish .unreported = (crew.execute work process).1 := by
  rw [((Accounted.start _ _).run hrun).finish_slots hover, crew.execute_fst]

/-- However the threads are scheduled: in every state that a dispatch can come to, every job is in
one place, the queue holds no more jobs than there are workers, and no more are run at a time.
While a slot is empty some move is possible, no dispatch has more than four moves for each job,
and each can be brought to its end.  The reply handles are the caller's own and those of the jobs
handed out, without those of the jobs that replied.  The caller goes on exactly when none is left
and every reply is received, which is when all slots are filled, and then it has received every
job once and has the outcome of each in its place. -/
theorem loses_no_job (work : List (Chunk × P)) (process : ChunkFunction P T)
    (workers_pos : 0 < workers) (hrun : (start work.length workers).run? moves = some h) :
    h.places.Perm (List.range work.length) ∧
    h.queue.length ≤ workers ∧ h.running.length ≤ workers ∧
    ((∃ cell ∈ (h.slots work process).cells, cell.2 = none) →
      ∃ move next, h.after? move = some next) ∧
    moves.length ≤ 4 * work.length ∧
    (∃ more last, h.run? more = some last ∧ last.isOver = true) ∧
    h.handles + moves.countP Move.drops = h.ownHandles + moves.count .enqueue ∧
    (h.isOver = true ↔ h.handles = 0 ∧ h.replies = []) ∧
    (h.isOver = true ↔ ∀ cell ∈ (h.slots work process).cells, cell.2 ≠ none) ∧
    (h.isOver = true → h.received.Perm (List.range work.length) ∧
      (h.slots work process).finish .unreported = work.map (Outcome.ofRun process) ∧
      ∀ move, h.after? move = none) := by
  have hh : Accounted work.length workers h := (Accounted.start _ _).run hrun
  have hfilled := hh.isOver_iff_filled process
  refine ⟨hh.places_perm, hh.length_queue, ?_, ?_, ?_, hh.exists_run workers_pos, ?_,
    isOver_iff_handles, hfilled, ?_⟩
  · rw [← hh.length_busy]
    exact List.length_filterMap_le id h.busy
  · rintro ⟨cell, hcell, hnone⟩
    have hover : ¬ h.isOver = true := fun hover => hfilled.1 hover cell hcell hnone
    obtain ⟨move, next, hstep⟩ := exists_step (hh.length_busy ▸ workers_pos) hover
    exact ⟨move, next, after?_eq_some_iff.2 hstep⟩
  · have hlength := distance_run hrun
    rw [distance_start] at hlength
    omega
  · have hhandles := handles_run hrun
    simp only [handles, Nat.add_assoc] at hhandles ⊢
    rw [hhandles]
    simp [start, running]
  · intro hover
    exact ⟨hh.received_perm hover, hh.finish_slots hover process, after?_of_isOver hover⟩

/-- Three jobs on two workers.  Halfway one job is in the queue, one runs, and the reply of the job
handed out second is the first one.  The replies then come in as two, three, one, and the job that
failed is seen in its place. -/
theorem loses_no_job_three_on_two :
    let work : List (Chunk × Nat) := [(⟨0, 2, by decide⟩, 7), (⟨2, 4, by decide⟩, 8),
      (⟨4, 5, by decide⟩, 9)]
    let process : ChunkFunction Nat Nat := fun c n =>
      if n = 8 then .error (.fault .addOverflow) else .ok (c.size + n)
    let early : List Move := [.enqueue, .take 0, .enqueue, .enqueue, .take 1, .finish 1]
    let late : List Move := [.receive, .take 1, .finish 1, .finish 0, .receive, .receive]
    let halfway : Handover := ⟨[], [2], [some 0, none], [1], []⟩
    let last : Handover := ⟨[], [], [none, none], [], [1, 2, 0]⟩
    (start 3 2).run? early = some halfway ∧
      halfway.handles + 1 = 3 ∧
      (halfway.isOver = true ↔ halfway.handles = 0 ∧ halfway.replies = []) ∧
      (∃ move next, halfway.after? move = some next) ∧
      (start 3 2).run? (early ++ late) = some last ∧ (early ++ late).length ≤ 4 * 3 ∧
      last.received.Perm (List.range 3) ∧
      Outcome.collect ((last.slots work process).finish .unreported) =
        .error (.dispatch 2 4 (.faulted .addOverflow)) := by
  intro work process early late halfway last
  have hearly : (start 3 2).run? early = some halfway := by decide
  have hall : (start 3 2).run? (early ++ late) = some last := by decide
  obtain ⟨-, -, -, hprogress, -, -, hhandles, hstops, -, -⟩ :=
    loses_no_job work process (by decide) hearly
  obtain ⟨-, -, -, -, hlength, -, -, -, -, hover⟩ := loses_no_job work process (by decide) hall
  obtain ⟨hreceived, hfinish, -⟩ := hover (by decide)
  refine ⟨hearly, hhandles, hstops, hprogress ⟨(⟨0, 2, by decide⟩, none), ?_, rfl⟩, hall, hlength,
    hreceived, ?_⟩
  · exact List.mem_cons_self
  · rw [hfinish]
    rfl

end Handover

end KnapsackEvolution
