/-
# Handing jobs over through a bounded queue

How a worker pool moves the jobs of one dispatch, as a step function on where each job is.  The
caller puts jobs into a queue that holds at most one job for each worker; an idle worker takes the
oldest job from it; a busy worker finishes its job and sends the reply; once all jobs are handed
out, the caller receives replies until no job is left that could still reply.  Which of the
possible steps is taken is open, so a statement about all sequences of steps covers every way in
which the threads may be scheduled.
-/

namespace KnapsackEvolution

/-- Where the jobs of a dispatch are.  Jobs are given by their numbers. -/
structure Handover where
  /-- The jobs that the caller still has, the next one first. -/
  waiting : List Nat
  /-- The jobs in the queue, the oldest first. -/
  queue : List Nat
  /-- For each worker the job that it runs, if it is busy. -/
  busy : List (Option Nat)
  /-- The replies that have been sent and not received, the oldest first. -/
  replies : List Nat
  /-- The jobs whose replies have been received, the first one first. -/
  received : List Nat
deriving DecidableEq

namespace Handover

/-- A step that one of the parties takes. -/
inductive Move where
  /-- The caller puts its next job into the queue. -/
  | enqueue
  /-- A worker takes the oldest job from the queue. -/
  | take (worker : Nat)
  /-- A worker finishes its job and sends the reply. -/
  | finish (worker : Nat)
  /-- The caller receives the oldest reply. -/
  | receive
deriving DecidableEq

/-- The start of a dispatch: the caller has all jobs and every worker is idle. -/
def start (jobs workers : Nat) : Handover :=
  ⟨List.range jobs, [], List.replicate workers none, [], []⟩

/-- The queue holds as many jobs as there are workers. -/
def capacity (h : Handover) : Nat := h.busy.length

/-- The state after a move, if the move is possible. -/
def after? (h : Handover) : Move → Option Handover
  | .enqueue =>
    match h.waiting with
    | job :: rest =>
      if h.queue.length < h.capacity then
        some { h with waiting := rest, queue := h.queue ++ [job] }
      else none
    | [] => none
  | .take worker =>
    match h.busy[worker]?, h.queue with
    | some none, job :: rest => some { h with queue := rest, busy := h.busy.set worker (some job) }
    | _, _ => none
  | .finish worker =>
    match h.busy[worker]? with
    | some (some job) =>
      some { h with busy := h.busy.set worker none, replies := h.replies ++ [job] }
    | _ => none
  | .receive =>
    match h.waiting, h.replies with
    | [], job :: rest => some { h with replies := rest, received := h.received ++ [job] }
    | _, _ => none

/-- The state after a sequence of moves, if all of them are possible. -/
def run? (h : Handover) (moves : List Move) : Option Handover := moves.foldlM after? h

/-- The jobs that workers run. -/
def running (h : Handover) : List Nat := h.busy.filterMap id

/-- No job is left that could still reply, so the caller goes on. -/
def isOver (h : Handover) : Bool :=
  h.waiting.isEmpty && h.queue.isEmpty && h.running.isEmpty && h.replies.isEmpty

end Handover

end KnapsackEvolution
