/-
# Slots under any stream of replies

Workers that die, repeat themselves or report on jobs that do not exist do no harm outside of the
places that they report on.  After any replies a place shows the last one to its job, and a job
without one is lost under its own chunk; replies to no job might as well not have come, and
neighbouring replies to different jobs may change places (`Slots.settles`).
-/
import KnapsackEvolution.Dispatch.Slots
import Mathlib.Tactic.Lemma

namespace KnapsackEvolution

namespace Slots

variable {T : Type}

/-- What a worker reports: the number of a job and its result. -/
abbrev Reply (T : Type) := Nat × Except Error T

/-- The slots after some replies have come in one after the other. -/
def fillAll (s : Slots T) (replies : List (Reply T)) : Slots T :=
  replies.foldl (fun s reply => s.fill reply.1 reply.2) s

/-- The last reply to a job has this result. -/
def LastReply (replies : List (Reply T)) (job : Nat) (result : Except Error T) : Prop :=
  ∃ before after, replies = before ++ (job, result) :: after ∧ ∀ reply ∈ after, reply.1 ≠ job

variable {s : Slots T} {place : Nat}

/-! ## Single replies -/

lemma map_fst_fill (s : Slots T) (job : Nat) (result : Except Error T) :
    (s.fill job result).cells.map (·.1) = s.cells.map (·.1) := by
  apply List.ext_getElem?
  intro place
  rw [List.getElem?_map, List.getElem?_map, getElem?_fill]
  split <;> cases s.cells[place]? <;> rfl

lemma fill_comm (s : Slots T) {job other : Nat} (h : job ≠ other)
    (result result' : Except Error T) :
    (s.fill job result).fill other result' = (s.fill other result').fill job result := by
  have hcells : ((s.fill job result).fill other result').cells =
      ((s.fill other result').fill job result).cells := by
    apply List.ext_getElem?
    intro place
    simp only [getElem?_fill]
    by_cases hother : other = place
    · -- the place is that of the other job, so the job writes elsewhere
      have hjob : job ≠ place := fun hjob => h (hjob.trans hother.symm)
      rw [if_pos hother, if_pos hother, if_neg hjob, if_neg hjob]
    · rw [if_neg hother, if_neg hother]
  exact congrArg mk hcells

/-! ## Streams of replies -/

lemma fillAll_append (s : Slots T) (replies more : List (Reply T)) :
    s.fillAll (replies ++ more) = (s.fillAll replies).fillAll more :=
  List.foldl_append

lemma map_fst_fillAll (s : Slots T) (replies : List (Reply T)) :
    (s.fillAll replies).cells.map (·.1) = s.cells.map (·.1) := by
  induction replies generalizing s with
  | nil => rfl
  | cons reply replies ih =>
    calc ((s.fill reply.1 reply.2).fillAll replies).cells.map (·.1)
        = (s.fill reply.1 reply.2).cells.map (·.1) := ih _
      _ = s.cells.map (·.1) := s.map_fst_fill reply.1 reply.2

lemma length_fillAll (s : Slots T) (replies : List (Reply T)) :
    (s.fillAll replies).cells.length = s.cells.length := by
  have h := congrArg List.length (s.map_fst_fillAll replies)
  rwa [List.length_map, List.length_map] at h

lemma getElem?_fillAll_of_forall_ne {replies : List (Reply T)}
    (h : ∀ reply ∈ replies, reply.1 ≠ place) :
    (s.fillAll replies).cells[place]? = s.cells[place]? := by
  induction replies generalizing s with
  | nil => rfl
  | cons reply replies ih =>
    obtain ⟨hreply, hreplies⟩ := List.forall_mem_cons.1 h
    calc ((s.fill reply.1 reply.2).fillAll replies).cells[place]?
        = (s.fill reply.1 reply.2).cells[place]? := ih hreplies
      _ = s.cells[place]? := by rw [getElem?_fill, if_neg hreply]

/-- A place shows the last reply to its job, with the chunk that it had at first. -/
lemma getElem?_fillAll_of_last {replies : List (Reply T)} {result : Except Error T}
    (h : LastReply replies place result) :
    (s.fillAll replies).cells[place]? =
      (s.cells.map (·.1))[place]?.map fun c => (c, some result) := by
  obtain ⟨before, after, rfl, hafter⟩ := h
  calc (s.fillAll (before ++ (place, result) :: after)).cells[place]?
      = (((s.fillAll before).fill place result).fillAll after).cells[place]? := by
        rw [fillAll_append]
        rfl
    _ = ((s.fillAll before).fill place result).cells[place]? :=
        getElem?_fillAll_of_forall_ne hafter
    _ = ((s.fillAll before).cells.map (·.1))[place]?.map fun c => (c, some result) := by
        rw [getElem?_fill, if_pos rfl, List.getElem?_map, Option.map_map]
        rfl
    _ = _ := by rw [map_fst_fillAll]

/-- A reply to a job that does not exist might as well not have come. -/
lemma fillAll_of_length_le {before after : List (Reply T)} {reply : Reply T}
    (h : s.cells.length ≤ reply.1) :
    s.fillAll (before ++ reply :: after) = s.fillAll (before ++ after) := by
  have hreply : (s.fillAll before).fill reply.1 reply.2 = s.fillAll before :=
    fill_of_length_le (by rwa [length_fillAll]) reply.2
  rw [fillAll_append, fillAll_append]
  exact congrArg (fillAll · after) hreply

lemma fillAll_swap {before after : List (Reply T)} {first second : Reply T}
    (h : first.1 ≠ second.1) :
    s.fillAll (before ++ second :: first :: after) =
      s.fillAll (before ++ first :: second :: after) := by
  rw [fillAll_append, fillAll_append]
  exact congrArg (fillAll · after) ((s.fillAll before).fill_comm h.symm second.2 first.2)

/-! ## Outcomes -/

lemma map_fst_ofChunks (chunks : List Chunk) :
    (ofChunks chunks : Slots T).cells.map (·.1) = chunks := by
  rw [ofChunks, List.map_map]
  exact List.map_id chunks

lemma map_chunk_finish (s : Slots T) (cause : Loss) :
    (s.finish cause).map (·.chunk) = s.cells.map (·.1) := by
  rw [finish, List.map_map]
  rfl

lemma getElem?_finish (s : Slots T) (cause : Loss) :
    (s.finish cause)[place]? = s.cells[place]?.map fun cell =>
      ⟨cell.1, cell.2.getD (.error (cell.1.lost cause))⟩ := by
  rw [finish, List.getElem?_map]

/-- Empty places for some chunks are filled with any replies, to jobs that exist or not, to some
again and again and to others never.  There is one outcome for each chunk, in the order of the
chunks.  It has the result of the last reply to its job, and without a reply it is an error that
names its own chunk as lost.  Replies to jobs that do not exist change nothing, and nothing changes
if two neighbouring replies to different jobs change places. -/
theorem settles (chunks : List Chunk) (replies : List (Reply T)) :
    let slots := (ofChunks chunks).fillAll replies
    let outcomes := slots.finish .unreported
    outcomes.map (·.chunk) = chunks ∧
      (∀ place c, chunks[place]? = some c →
        (∀ result, LastReply replies place result → outcomes[place]? = some ⟨c, result⟩) ∧
        ((∀ reply ∈ replies, reply.1 ≠ place) →
          outcomes[place]? = some ⟨c, .error (.dispatch c.start c.stop .unreported)⟩)) ∧
      (∀ before reply after, replies = before ++ reply :: after → chunks.length ≤ reply.1 →
        (ofChunks chunks).fillAll (before ++ after) = slots) ∧
      ∀ before first second after, replies = before ++ first :: second :: after →
        first.1 ≠ second.1 →
        (ofChunks chunks).fillAll (before ++ second :: first :: after) = slots := by
  intro slots outcomes
  refine ⟨?_, ?_, ?_, ?_⟩
  · rw [map_chunk_finish, map_fst_fillAll, map_fst_ofChunks]
  · intro place c hc
    refine ⟨?_, ?_⟩
    · intro result hlast
      rw [getElem?_finish, getElem?_fillAll_of_last hlast, map_fst_ofChunks, hc]
      rfl
    · intro hnone
      rw [getElem?_finish, getElem?_fillAll_of_forall_ne hnone, ofChunks, List.getElem?_map, hc]
      rfl
  · rintro before reply after rfl hreply
    exact (fillAll_of_length_le (by rwa [length_ofChunks])).symm
  · rintro before first second after rfl h
    exact fillAll_swap h

/-- Three chunks and five replies: the last job is reported on twice, the middle one never, and one
reply is to a job that does not exist. -/
theorem settles_five_replies :
    let chunks : List Chunk := [⟨0, 3, by decide⟩, ⟨3, 6, by decide⟩, ⟨6, 9, by decide⟩]
    let replies : List (Reply Nat) :=
      [(2, .ok 2), (7, .ok 9), (0, .error .emptyPopulation), (2, .ok 5), (0, .ok 1)]
    let slots := (ofChunks chunks).fillAll replies
    let outcomes := slots.finish .unreported
    chunks[2]? = some ⟨6, 9, by decide⟩ ∧ LastReply replies 2 (.ok 5) ∧
      outcomes[2]? = some ⟨⟨6, 9, by decide⟩, .ok 5⟩ ∧
      (∀ reply ∈ replies, reply.1 ≠ 1) ∧
      outcomes[1]? = some ⟨⟨3, 6, by decide⟩, .error (.dispatch 3 6 .unreported)⟩ ∧
      chunks.length ≤ 7 ∧
      (ofChunks chunks).fillAll [(2, .ok 2), (0, .error .emptyPopulation), (2, .ok 5), (0, .ok 1)] =
        slots ∧
      2 ≠ 0 ∧
      (ofChunks chunks).fillAll
        [(2, .ok 2), (7, .ok 9), (0, .error .emptyPopulation), (0, .ok 1), (2, .ok 5)] = slots := by
  intro chunks replies slots outcomes
  obtain ⟨-, hplaces, hbeyond, hswap⟩ := settles chunks replies
  have hlast : LastReply replies 2 (.ok 5) :=
    ⟨[(2, .ok 2), (7, .ok 9), (0, .error .emptyPopulation)], [(0, .ok 1)], rfl, by simp⟩
  have hnone : ∀ reply ∈ replies, reply.1 ≠ 1 := by simp [replies]
  exact ⟨rfl, hlast, (hplaces 2 _ rfl).1 _ hlast, hnone, (hplaces 1 _ rfl).2 hnone, by decide,
    hbeyond [(2, .ok 2)] (7, .ok 9) [(0, .error .emptyPopulation), (2, .ok 5), (0, .ok 1)] rfl
      (by decide), by decide,
    hswap [(2, .ok 2), (7, .ok 9), (0, .error .emptyPopulation)] (2, .ok 5) (0, .ok 1) [] rfl
      (by decide)⟩

end Slots

end KnapsackEvolution
