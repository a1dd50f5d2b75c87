/-
# Backends

The four executors.  The sequential one runs the jobs itself.  Fork-join and the worker pool hand
the jobs out and put the replies into slots as they come in.  The actor executor sends job `i` to
actor `i % workers`, gives each request a place for its reply, and reads the replies in the order
of the requests.

Chunk functions are pure, so when a job runs shows in one thing only: the order in which the
replies come in.  A backend takes that order from an `Arrival`, which may be any one at all.
-/
import KnapsackEvolution.Dispatch.Executor
import KnapsackEvolution.Dispatch.Slots

namespace KnapsackEvolution

/-- In which order the replies to the jobs of each dispatch come in: every job replies once. -/
structure Arrival where
  /-- The order for a dispatch, given how many there were before it and how many jobs it has. -/
  order : Nat → Nat → List Nat
  /-- Each job occurs once. -/
  perm : ∀ dispatch jobs, (order dispatch jobs).Perm (List.range jobs)

/-- Replies come in the order in which the jobs were handed in. -/
def Arrival.inOrder : Arrival := ⟨fun _ jobs => List.range jobs, fun _ _ => List.Perm.refl _⟩

/-! ## Crews -/

/-- Workers that take any job and report by its number. -/
structure Crew where
  workers : Nat
  workers_pos : 0 < workers
  arrival : Arrival
  /-- How many dispatches there have been.  This is a natural number and not a machine word, like
  all that is counted while a program runs, the requests of an actor and the generations of an
  engine among it: `2 ^ 64` of them are out of reach. -/
  dispatches : Nat

namespace Crew

variable {P T : Type}

/-- A result that comes in goes into the slot of its job. -/
def receive (results : Array (Except Error T)) (slots : Slots T) (job : Nat) : Slots T :=
  match results[job]? with
  | some result => slots.fill job result
  | none => slots

/-- Every worker reports on the jobs it ran; the replies fill the slots in the order in which they
come in. -/
def execute (crew : Crew) (jobs : List (Chunk × P)) (process : ChunkFunction P T) :
    List (Outcome T) × Crew :=
  let results := (jobs.map fun job => (Outcome.ofRun process job).result).toArray
  let slots := (crew.arrival.order crew.dispatches jobs.length).foldl (receive results)
    (Slots.ofChunks (jobs.map (·.1)))
  (slots.finish .unreported, { crew with dispatches := crew.dispatches + 1 })

end Crew

/-! ## Actors -/

/-- Actors that are sent requests in turn, the first request of a dispatch to the first actor. -/
structure Actors where
  workers : Nat
  workers_pos : 0 < workers
  /-- How many requests each actor has taken from its mailbox. -/
  received : Vector Nat workers
  arrival : Arrival
  /-- How many dispatches there have been. -/
  dispatches : Nat

namespace Actors

variable {P T : Type}

/-- The actor that a request is sent to. -/
def addressee (a : Actors) (request : Nat) : Fin a.workers :=
  ⟨request % a.workers, Nat.mod_lt _ a.workers_pos⟩

/-- An actor takes a request from its mailbox. -/
def take (a : Actors) (request : Nat) : Actors :=
  { a with received := a.received.set (a.addressee request) (a.received[a.addressee request] + 1) }

/-- The addressee of a request takes it and replies. -/
def serve (results : Array (Except Error T)) (s : Actors × Slots T) (request : Nat) :
    Actors × Slots T :=
  (s.1.take request, Crew.receive results s.2 request)

/-- The actors reply to the requests; each reply is read from the place of its request. -/
def execute (a : Actors) (jobs : List (Chunk × P)) (process : ChunkFunction P T) :
    List (Outcome T) × Actors :=
  let results := (jobs.map fun job => (Outcome.ofRun process job).result).toArray
  let (a', replies) := (a.arrival.order a.dispatches jobs.length).foldl (serve results)
    (a, Slots.ofChunks (jobs.map (·.1)))
  (replies.finish .unanswered, { a' with dispatches := a'.dispatches + 1 })

end Actors

/-! ## The four backends -/

/-- One of the four ways to run chunks, with its workers. -/
inductive Backend where
  /-- The caller runs the jobs one after the other. -/
  | sequential
  /-- A task for each job, joined at the end. -/
  | forkJoin (crew : Crew)
  /-- A queue of jobs that workers drain. -/
  | workerPool (crew : Crew)
  /-- Requests to actors. -/
  | actor (actors : Actors)

namespace Backend

variable {P T : Type}

/-- Starts a backend.  All but the sequential one need at least one worker. -/
def start (arrival : Arrival) (kind : Kind) (workers : Nat) : Except Error Backend :=
  match kind with
  | .sequential => .ok sequential
  | .forkJoin =>
    if h : 0 < workers then .ok (forkJoin ⟨workers, h, arrival, 0⟩)
    else .error (.configuration .noWorkers)
  | .workerPool =>
    if h : 0 < workers then .ok (workerPool ⟨workers, h, arrival, 0⟩)
    else .error (.configuration .noWorkers)
  | .actor =>
    if h : 0 < workers then .ok (actor ⟨workers, h, Vector.replicate workers 0, arrival, 0⟩)
    else .error (.configuration .noWorkers)

/-- How the backend runs chunks. -/
def kind : Backend → Kind
  | sequential => .sequential
  | forkJoin _ => .forkJoin
  | workerPool _ => .workerPool
  | actor _ => .actor

/-- How many chunks the backend runs at the same time at most. -/
def workers : Backend → Nat
  | sequential => 1
  | forkJoin crew => crew.workers
  | workerPool crew => crew.workers
  | actor actors => actors.workers

/-- The description of the bare executor. -/
def executorText : Backend → String
  | sequential => "SequentialExecutor"
  | forkJoin crew => "ForkJoinExecutor \x7b workers: " ++ toString crew.workers ++ " \x7d"
  | workerPool crew =>
    "WorkerPoolExecutor \x7b workers: " ++ toString crew.workers ++ ", running: true \x7d"
  | actor actors => "ActorExecutor \x7b actors: " ++ toString actors.workers ++ " \x7d"

/-- The description of the backend: its kind around its executor. -/
def text (b : Backend) : String := b.kind.tag ++ "(" ++ b.executorText ++ ")"

/-- How many requests each actor has taken, if there are actors. -/
def received? : Backend → Option (List Nat)
  | actor actors => some actors.received.toList
  | _ => none

/-- Runs a chunk function on every job. -/
def execute (b : Backend) (jobs : List (Chunk × P)) (process : ChunkFunction P T) :
    List (Outcome T) × Backend :=
  match b with
  | sequential => (jobs.map (Outcome.ofRun process), sequential)
  | forkJoin crew =>
    let (outcomes, crew) := crew.execute jobs process
    (outcomes, forkJoin crew)
  | workerPool crew =>
    let (outcomes, crew) := crew.execute jobs process
    (outcomes, workerPool crew)
  | actor actors =>
    let (outcomes, actors) := actors.execute jobs process
    (outcomes, actor actors)

instance : Executor Backend where
  kind := kind
  workers := workers
  text := text
  execute := execute

end Backend

end KnapsackEvolution
