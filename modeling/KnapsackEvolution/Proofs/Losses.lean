/-
# Which chunk was lost

Whoever gives out work wants to know from an error which chunk to give out again.  A fault of the
chunk function is reported with the chunk it happened on, and so is every error that it returns but
one: an error that says already that some slots were lost is passed on with the slots that it names,
whether or not they are those of the chunk (`Failure.Foreign`).  So the error of an outcome, and the
error that collecting gives, name the chunk that was given out exactly if the chunk function did not
name other slots itself.
-/
import KnapsackEvolution.Proofs.Backends

namespace KnapsackEvolution

/-- The error says that the work on the chunk was lost. -/
def Error.Names (e : Error) (c : Chunk) : Prop := ∃ cause, e = c.lost cause

/-- The failure is an error that says that the work on other slots than those of the chunk was
lost. -/
def Failure.Foreign (f : Failure) (c : Chunk) : Prop :=
  ∃ start stop cause, f = .error (.dispatch start stop cause) ∧ ¬(start = c.start ∧ stop = c.stop)

lemma Error.names_dispatch_iff {start stop : Nat} {cause : Loss} {c : Chunk} :
    (Error.dispatch start stop cause).Names c ↔ start = c.start ∧ stop = c.stop := by
  constructor
  · rintro ⟨cause', h⟩
    injection h with hstart hstop
    exact ⟨hstart, hstop⟩
  · rintro ⟨rfl, rfl⟩
    exact ⟨cause, rfl⟩

lemma Failure.foreign_dispatch_iff {start stop : Nat} {cause : Loss} {c : Chunk} :
    (Failure.error (.dispatch start stop cause)).Foreign c ↔
      ¬(start = c.start ∧ stop = c.stop) := by
  constructor
  · rintro ⟨start', stop', cause', h, hother⟩
    injection h with h
    injection h with hstart hstop
    rwa [hstart, hstop]
  · intro hother
    exact ⟨start, stop, cause, rfl, hother⟩

/-- How the failure of the chunk function on a chunk shows in an error. -/
structure Failure.ReportedAs (f : Failure) (c : Chunk) (e : Error) : Prop where
  /-- The error says that the work on some slots was lost. -/
  dispatch : ∃ start stop cause, e = .dispatch start stop cause
  /-- These are the slots of the chunk, unless the chunk function has named other ones. -/
  names_iff : e.Names c ↔ ¬f.Foreign c
  /-- An error that names other slots is passed on. -/
  passed_on : f.Foreign c → f = .error e

/-- Every failure is reported so. -/
theorem Chunk.reportedAs_report (c : Chunk) (f : Failure) : f.ReportedAs c (c.report f) := by
  have hlost : ∀ cause, ¬f.Foreign c → c.report f = c.lost cause → f.ReportedAs c (c.report f) := by
    intro cause hforeign hreport
    refine ⟨⟨c.start, c.stop, cause, hreport⟩, ?_, fun h => absurd h hforeign⟩
    exact ⟨fun _ => hforeign, fun _ => ⟨cause, hreport⟩⟩
  cases f with
  | fault fault =>
    refine hlost _ ?_ (c.report_fault fault)
    rintro ⟨start, stop, cause, h, -⟩
    cases h
  | error e =>
    cases e with
    | dispatch start stop cause =>
      refine ⟨⟨start, stop, cause, rfl⟩, ?_, fun _ => rfl⟩
      show (Error.dispatch start stop cause).Names c ↔ _
      rw [Error.names_dispatch_iff, Failure.foreign_dispatch_iff, not_not]
    | configuration | emptyPopulation | fitness | evolution =>
      refine hlost _ ?_ rfl
      rintro ⟨start, stop, cause, h, -⟩
      cases h

namespace Outcome

variable {P T : Type} {process : ChunkFunction P T} {job : Chunk × P}

lemma exists_failure_of_ofRun {e : Error} (h : (ofRun process job).result = .error e) :
    ∃ failure, process job.1 job.2 = .error failure ∧ failure.ReportedAs job.1 e := by
  cases hprocess : process job.1 job.2 with
  | ok value =>
    rw [result_ofRun_eq_ok_iff.2 hprocess] at h
    cases h
  | error failure =>
    rw [result_ofRun_of_error hprocess] at h
    obtain rfl := Except.error.inj h
    exact ⟨failure, rfl, job.1.reportedAs_report failure⟩

/-- The error that collecting the outcomes gives reports how the first job that failed did so. -/
lemma exists_failure_of_collect {jobs : List (Chunk × P)} {e : Error}
    (h : collect (jobs.map (ofRun process)) = .error e) :
    ∃ before job after failure, jobs = before ++ job :: after ∧
      (∀ j ∈ before, ∃ value, process j.1 j.2 = .ok value) ∧
      process job.1 job.2 = .error failure ∧ failure.ReportedAs job.1 e := by
  obtain ⟨before, o, after, hsplit, hbefore, ho⟩ := collect_eq_error_iff.1 h
  obtain ⟨front, back, rfl, rfl, hback⟩ := List.map_eq_append_iff.1 hsplit
  obtain ⟨job, rest, rfl, rfl, -⟩ := List.map_eq_cons_iff.1 hback
  obtain ⟨failure, hfailure, hreported⟩ := exists_failure_of_ofRun ho
  refine ⟨front, job, rest, failure, rfl, ?_, hfailure, hreported⟩
  intro j hj
  obtain ⟨value, hvalue⟩ := hbefore _ (List.mem_map_of_mem hj)
  exact ⟨value, result_ofRun_eq_ok_iff.1 hvalue⟩

end Outcome

namespace Backend

/-- A backend of any kind with at least one worker starts, and it has that kind and so many workers
as long as it is used; the sequential one has its caller alone.  Whatever it was used for before, it
answers a dispatch with one outcome for each job, in the order of the jobs and with the chunk of the
job.  An outcome without a value has an error that says which slots were lost: those of its own
chunk, whatever fault the chunk function ran into and whatever error it returned, unless that error
named other slots itself, and then it is passed on.  The same holds for the error that collecting
the outcomes gives and the first job that failed. -/
theorem losses_named (arrival : Arrival) (kind : Kind) (workers : Nat) (h : 0 < workers) :
    ∃ b, start arrival kind workers = .ok b ∧ ∀ b', Becomes b b' →
      (b'.kind = kind ∧ b'.workers = if kind = .sequential then 1 else workers) ∧
      ∀ {P T : Type} (jobs : List (Chunk × P)) (process : ChunkFunction P T),
        (b'.execute jobs process).1.map (·.chunk) = jobs.map (·.1) ∧
        (∀ (k : Nat) (o : Outcome T) (e : Error), (b'.execute jobs process).1[k]? = some o →
          o.result = .error e →
          ∃ job failure, jobs[k]? = some job ∧ o.chunk = job.1 ∧
            process job.1 job.2 = .error failure ∧ failure.ReportedAs job.1 e) ∧
        ∀ e, Outcome.collect (b'.execute jobs process).1 = .error e →
          ∃ (before : List (Chunk × P)) (job : Chunk × P) (after : List (Chunk × P))
              (failure : Failure), jobs = before ++ job :: after ∧
            (∀ j ∈ before, ∃ value, process j.1 j.2 = .ok value) ∧
            process job.1 job.2 = .error failure ∧ failure.ReportedAs job.1 e := by
  obtain ⟨b, hb, hkind, hworkers⟩ := start_eq_ok arrival kind h
  refine ⟨b, hb, fun b' hb' => ⟨?_, fun {P T} jobs process => ?_⟩⟩
  · obtain ⟨hkind', hworkers'⟩ := hb'.staff_eq
    exact ⟨hkind'.trans hkind, hworkers'.trans hworkers⟩
  rw [execute_eq_map]
  refine ⟨?_, ?_, fun e he => Outcome.exists_failure_of_collect he⟩
  · rw [List.map_map]
    rfl
  · intro k o e ho he
    rw [List.getElem?_map, Option.map_eq_some_iff] at ho
    obtain ⟨job, hjob, rfl⟩ := ho
    obtain ⟨failure, hfailure, hreported⟩ := Outcome.exists_failure_of_ofRun he
    exact ⟨job, failure, hjob, rfl, hfailure, hreported⟩

/-- Two workers whose replies come in backwards: the second job ends in a fault without words and
the third one says that its own slots were lost.  Collecting names the chunk of the second one. -/
theorem losses_named_backwards :
    let jobs : List (Chunk × Nat) := [(⟨0, 2, by decide⟩, 7), (⟨2, 4, by decide⟩, 8),
      (⟨4, 5, by decide⟩, 9)]
    let process : ChunkFunction Nat Nat := fun c n =>
      if n = 8 then .error (.fault (.raised none))
      else if n = 9 then .error (.error (c.lost (.other "inner"))) else .ok (c.size + n)
    0 < 2 ∧
      ∃ b, start ⟨fun _ n => (List.range n).reverse, fun _ n => List.reverse_perm (List.range n)⟩
          .workerPool 2 = .ok b ∧ b.workers = 2 ∧
        ∃ e e', (∃ o, (b.execute jobs process).1[2]? = some o ∧ o.result = .error e) ∧
          e.Names ⟨4, 5, by decide⟩ ∧
          Outcome.collect (b.execute jobs process).1 = .error e' ∧ e'.Names ⟨2, 4, by decide⟩ := by
  intro jobs process
  obtain ⟨b, hstart, hb⟩ := losses_named ⟨fun _ n => (List.range n).reverse,
    fun _ n => List.reverse_perm (List.range n)⟩ .workerPool 2 (by decide)
  obtain ⟨⟨-, hworkers⟩, hanswer⟩ := hb b .unused
  obtain ⟨-, hplace, -⟩ := hanswer jobs process
  have hlast : (b.execute jobs process).1[2]? =
      some ⟨⟨4, 5, by decide⟩, .error (.dispatch 4 5 (.other "inner"))⟩ := by
    rw [execute_eq_map]
    rfl
  have hfirst : Outcome.collect (b.execute jobs process).1 =
      .error (.dispatch 2 4 (.faulted (.raised none))) := by
    rw [execute_eq_map]
    rfl
  obtain ⟨job, failure, hjob, -, hfailure, hreported⟩ := hplace 2 _ _ hlast rfl
  obtain rfl : (⟨4, 5, by decide⟩, 9) = job := Option.some.inj hjob
  obtain rfl : .error (.dispatch 4 5 (.other "inner")) = failure := Except.error.inj hfailure
  have hown : ¬Failure.Foreign (.error (.dispatch 4 5 (.other "inner"))) ⟨4, 5, by decide⟩ :=
    mt Failure.foreign_dispatch_iff.1 (by decide)
  exact ⟨by decide, b, hstart, hworkers, _, _, ⟨_, hlast, rfl⟩, hreported.names_iff.2 hown, hfirst,
    _, rfl⟩

/-- A chunk function that says of `[2, 4)` that `[7, 9)` was lost: the outcome of `[2, 4)` and the
error that collecting gives say so too. -/
theorem loss_of_other_slots_named :
    let jobs : List (Chunk × Unit) := [(⟨0, 2, by decide⟩, ()), (⟨2, 4, by decide⟩, ())]
    let process : ChunkFunction Unit Nat := fun c _ =>
      if c.start = 2 then .error (.error (.dispatch 7 9 (.other "inner"))) else .ok c.size
    start .inOrder .sequential 1 = .ok sequential ∧
      (∃ o e, (sequential.execute jobs process).1[1]? = some o ∧ o.chunk = ⟨2, 4, by decide⟩ ∧
        o.result = .error e ∧ ¬e.Names ⟨2, 4, by decide⟩) ∧
      ∃ e, Outcome.collect (sequential.execute jobs process).1 = .error e ∧
        ¬e.Names ⟨2, 4, by decide⟩ := by
  intro jobs process
  have hother : ¬(Error.dispatch 7 9 (.other "inner")).Names ⟨2, 4, by decide⟩ :=
    mt Error.names_dispatch_iff.1 (by decide)
  exact ⟨rfl, ⟨_, _, rfl, rfl, rfl, hother⟩, _, rfl, hother⟩

end Backend

end KnapsackEvolution
