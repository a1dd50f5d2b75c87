/-
# Moving chunks out and back

Chunks can be moved out of a population when they continue one another up to its end.  What is moved
out for a chunk is whoever sits in the slots of the chunk.  Appending goes on as long as the chunks
continue what has been appended before, so what it leaves is the population with the longest such
part of the list behind it.  A chunk is only ever appended where it starts, and so what was moved
out comes back into its old slots, in whatever order and however much of it is appended.
-/
import KnapsackEvolution.Proofs.Populations

namespace KnapsackEvolution

namespace Population

variable {p rest : Population} {chunks : List Chunk} {items back : List (Chunk × List Individual)}

/-! ## Moving out -/

/-- In place an error leaves the population as it was. -/
lemma run_moveOut (p : Population) (chunks : List Chunk) :
    (moveOut chunks).run p =
      match p.takeChunks chunks with
      | .ok (items, rest) => (.ok items, rest)
      | .error e => (.error e, p) := by
  cases chunks with
  | nil => rfl
  | cons first rest =>
    rw [takeChunks_cons, moveOut]
    cases hstop : contiguousEnd first.start (first :: rest) with
    | error e => rfl
    | ok stop =>
      show ((if stop = p.size then _ else _ :
        ExceptT Error (StateM Population) (List (Chunk × List Individual)))).run p = _
      dsimp only
      by_cases hsize : stop = p.size
      · rw [if_pos hsize, if_pos hsize]
        rfl
      · rw [if_neg hsize, if_neg hsize]
        rfl

/-- Chunks can be moved out if there are none, or if they continue one another up to the end of the
population. -/
theorem exists_takeChunks_iff :
    (∃ moved, p.takeChunks chunks = .ok moved) ↔
      chunks = [] ∨
        (Contiguous chunks ∧ ∃ last, chunks.getLast? = some last ∧ last.stop = p.size) := by
  constructor
  · rintro ⟨⟨items, rest⟩, h⟩
    rcases takeChunks_eq_ok h with ⟨hnil, -, -⟩ | ⟨c, tail, rfl, htiles, -, -⟩
    · exact .inl hnil
    · exact .inr (Tiles.iff_contiguous.1 htiles)
  · rintro (rfl | ⟨hcontiguous, hlast⟩)
    · exact ⟨_, rfl⟩
    · cases chunks with
      | nil => exact ⟨_, rfl⟩
      | cons c tail => exact ⟨_, takeChunks_of_tiles (Tiles.iff_contiguous.2 ⟨hcontiguous, hlast⟩)⟩

lemma deal_of_tiles {start stop : Nat} (h : Tiles start chunks stop) (row : List Individual) :
    deal chunks (row.drop start) = chunks.map fun c => (c, c.slice row) := by
  induction h with
  | nil slot => rfl
  | cons c _ ih => rw [deal, List.drop_drop, c.start_add_size, ih, List.map_cons, Chunk.slice]

/-- What is moved out for a chunk is whoever sits in its slots, and those before the first chunk
stay. -/
structure MovedOut (p : Population) (chunks : List Chunk) (items : List (Chunk × List Individual))
    (rest : Population) : Prop where
  items_eq : items = chunks.map fun c => (c, c.slice p.individuals)
  rest_eq : rest.individuals = p.individuals.take (chunks.head?.elim p.size (·.start))
  stop_le : ∀ c ∈ chunks, c.stop ≤ p.size

theorem movedOut_of_takeChunks (h : p.takeChunks chunks = .ok (items, rest)) :
    MovedOut p chunks items rest := by
  rcases takeChunks_eq_ok h with ⟨rfl, rfl, rfl⟩ | ⟨c, tail, rfl, htiles, rfl, rfl⟩
  · exact ⟨rfl, (List.take_length).symm, by simp⟩
  · exact ⟨deal_of_tiles htiles p.individuals, rfl, fun d hd => (htiles.stop_le d hd).2⟩

/-- Whoever has been moved out can be put back at once. -/
theorem restoreChunks_takeChunks (h : p.takeChunks chunks = .ok (items, rest)) :
    rest.restoreChunks items = (.ok (), p) := by
  rcases takeChunks_eq_ok h with ⟨-, rfl, rfl⟩ | ⟨c, tail, rfl, htiles, rfl, rfl⟩
  · rfl
  · have hrest : size ⟨p.individuals.take c.start⟩ = c.start := by
      rw [size, List.length_take]
      exact Nat.min_eq_left htiles.le
    have hlength : c.start + (p.individuals.drop c.start).length = p.size := by
      rw [List.length_drop]
      exact Nat.add_sub_cancel' htiles.le
    rw [restoreChunks_of_tiles (by rw [map_fst_deal, hrest]; exact htiles)
      (length_of_mem_deal htiles hlength), flatMap_deal htiles hlength, List.take_append_drop]

/-! ## Appending -/

/-- From a population of `n` on, each chunk starts at the length reached by those before it and has
as many slots as individuals. -/
def Continues (n : Nat) (items : List (Chunk × List Individual)) : Prop :=
  ∀ before item after, items = before ++ item :: after →
    item.1.start = n + (before.flatMap (·.2)).length ∧ item.1.size = item.2.length

variable {n : Nat} {item : Chunk × List Individual}

lemma continues_nil (n : Nat) : Continues n [] := by
  intro before item after h
  simp at h

lemma continues_cons_iff :
    Continues n (item :: items) ↔
      item.1.start = n ∧ item.1.size = item.2.length ∧ Continues (n + item.2.length) items := by
  constructor
  · intro h
    obtain ⟨hstart, hsize⟩ := h [] item items rfl
    refine ⟨by simpa using hstart, hsize, ?_⟩
    rintro before next after rfl
    simpa [Nat.add_assoc] using h (item :: before) next after rfl
  · rintro ⟨hstart, hsize, h⟩ before next after heq
    cases before with
    | nil =>
      obtain ⟨rfl, -⟩ := List.cons.inj heq
      exact ⟨by simpa using hstart, hsize⟩
    | cons first before =>
      obtain ⟨rfl, hitems⟩ := List.cons.inj heq
      simpa [Nat.add_assoc] using h before next after hitems

/-- The longest part of `items` from the front on that continues a population of `n`. -/
structure Longest (n : Nat) (items valid : List (Chunk × List Individual)) : Prop where
  front : valid <+: items
  continues : Continues n valid
  longest : ∀ other, other <+: items → Continues n other → other <+: valid

lemma Longest.eq_iff {valid : List (Chunk × List Individual)} (h : Longest n items valid) :
    valid = items ↔ Continues n items := by
  constructor
  · rintro rfl
    exact h.continues
  · intro hitems
    exact h.front.eq_of_length_le (h.longest items (List.prefix_refl items) hitems).length_le

/-- Appending has put `valid` behind the population, the longest part of the items that continues
it, and has succeeded just when nothing is left out. -/
structure Restored (p : Population) (items valid : List (Chunk × List Individual)) : Prop where
  longest : Longest p.size items valid
  individuals_eq : (p.restoreChunks items).2.individuals = p.individuals ++ valid.flatMap (·.2)
  ok_iff : (p.restoreChunks items).1 = .ok () ↔ valid = items

theorem exists_restored (p : Population) (items : List (Chunk × List Individual)) :
    ∃ valid, Restored p items valid := by
  induction items generalizing p with
  | nil =>
    refine ⟨[], ⟨List.prefix_refl [], continues_nil _, fun other h _ => h⟩, ?_, ?_⟩
    · simp [restoreChunks]
    · simp [restoreChunks]
  | cons item rest ih =>
    obtain ⟨c, individuals⟩ := item
    by_cases hfit : c.start = p.size ∧ c.size = individuals.length
    · have hstep : p.restoreChunks ((c, individuals) :: rest) =
          restoreChunks ⟨p.individuals ++ individuals⟩ rest := by
        rw [restoreChunks, if_pos hfit]
      obtain ⟨valid, hlongest, hleft, hok⟩ := ih ⟨p.individuals ++ individuals⟩
      have hsize : size ⟨p.individuals ++ individuals⟩ = p.size + individuals.length :=
        List.length_append
      rw [hsize] at hlongest
      refine ⟨(c, individuals) :: valid, ⟨?_, ?_, ?_⟩, ?_, ?_⟩
      · exact (List.prefix_cons_inj _).2 hlongest.front
      · exact continues_cons_iff.2 ⟨hfit.1, hfit.2, hlongest.continues⟩
      · intro other hother hcontinues
        rcases List.prefix_cons_iff.1 hother with rfl | ⟨other, rfl, hrest⟩
        · exact List.nil_prefix
        · exact (List.prefix_cons_inj _).2
            (hlongest.longest other hrest (continues_cons_iff.1 hcontinues).2.2)
      · rw [hstep, hleft, List.flatMap_cons, List.append_assoc]
      · rw [hstep, hok, List.cons_inj_right]
    · have hstep : p.restoreChunks ((c, individuals) :: rest) =
          (.error (.evolution
            (.misfitIndividuals c.start c.stop individuals.length p.size)), p) := by
        rw [restoreChunks, if_neg hfit]
      refine ⟨[], ⟨List.nil_prefix, continues_nil _, ?_⟩, by simp [hstep], by simp [hstep]⟩
      -- whatever is longer starts with the chunk that does not fit
      intro other hother hcontinues
      rcases List.prefix_cons_iff.1 hother with rfl | ⟨other, rfl, -⟩
      · exact List.prefix_refl []
      · obtain ⟨hstart, hcount, -⟩ := continues_cons_iff.1 hcontinues
        exact absurd ⟨hstart, hcount⟩ hfit

lemma individuals_of_restoreChunks {q : Population} (h : p.restoreChunks items = (.ok (), q)) :
    q.individuals = p.individuals ++ items.flatMap (·.2) := by
  obtain ⟨valid, hrestored⟩ := p.exists_restored items
  have hall := hrestored.individuals_eq
  rw [h, hrestored.ok_iff.1 (by rw [h])] at hall
  exact hall

/-! ## Coming back -/

lemma take_append_slices {row : List Individual} (hcontinues : Continues n items)
    (hslice : ∀ item ∈ items, item.2 = item.1.slice row) :
    row.take n ++ items.flatMap (·.2) = row.take (n + (items.flatMap (·.2)).length) := by
  induction items generalizing n with
  | nil => simp
  | cons item items ih =>
    obtain ⟨hstart, hsize, hrest⟩ := continues_cons_iff.1 hcontinues
    have hstop : row.take n ++ item.2 = row.take (n + item.2.length) := by
      rw [← hsize, ← hstart, hslice item (by simp), Chunk.slice, ← List.take_add]
    rw [List.flatMap_cons, ← List.append_assoc, hstop,
      ih hrest fun item hitem => hslice item (by simp [hitem]), List.length_append, Nat.add_assoc]

/-- Of the chunks that have been moved out, whatever is appended again is back in its slots. -/
theorem slice_restoreChunks (h : p.takeChunks chunks = .ok (items, rest))
    (hback : ∀ item ∈ back, item ∈ items) {valid : List (Chunk × List Individual)}
    (hrestored : Restored rest back valid) (hitem : item ∈ valid) :
    item.1.slice (rest.restoreChunks back).2.individuals = item.2 ∧
      item.1.slice p.individuals = item.2 := by
  obtain ⟨hitems, hrest, -⟩ := movedOut_of_takeChunks h
  obtain ⟨hlongest, hleft, -⟩ := hrestored
  have hslice : ∀ item ∈ valid, item.2 = item.1.slice p.individuals := by
    intro item hitem
    have hmem := hback item (hlongest.front.mem hitem)
    rw [hitems] at hmem
    obtain ⟨c, -, rfl⟩ := List.mem_map.1 hmem
    rfl
  have hfront : rest.individuals = p.individuals.take rest.size := by
    rw [size, hrest, List.length_take, ← List.take_eq_take_min]
  have hall : rest.individuals ++ valid.flatMap (·.2) =
      p.individuals.take (rest.size + (valid.flatMap (·.2)).length) := by
    rw [← take_append_slices hlongest.continues hslice, ← hfront]
  have hstop : item.1.stop ≤ rest.size + (valid.flatMap (·.2)).length := by
    obtain ⟨before, after, hvalid⟩ := List.append_of_mem hitem
    obtain ⟨hstart, hsize⟩ := hlongest.continues before item after hvalid
    have hc := item.1.start_add_size
    rw [hvalid, List.flatMap_append, List.flatMap_cons, List.length_append, List.length_append]
    omega
  refine ⟨?_, (hslice item hitem).symm⟩
  rw [hleft, hall, item.1.slice_take p.individuals hstop, hslice item hitem]

/-- Chunks are moved out of a population if there are none, or if they continue one another up to
its end; otherwise it stays as it is.  They take with them whoever sits in their slots, in order,
and leave those before the first of them.  Individuals are appended if each chunk starts at the
length reached so far and has as many slots as individuals; otherwise the longest part from the
front on for which this is so has been appended.  So what has been moved out can be put back at
once, and of any of it, in any order, whoever is appended sits in the old slot. -/
theorem moving_keeps_slots (p : Population) :
    (∀ chunks : List Chunk,
      ((moveOut chunks).run p =
        match p.takeChunks chunks with
        | .ok (items, rest) => (.ok items, rest)
        | .error e => (.error e, p)) ∧
      ((∃ moved, p.takeChunks chunks = .ok moved) ↔
        chunks = [] ∨
          (Contiguous chunks ∧ ∃ last, chunks.getLast? = some last ∧ last.stop = p.size)) ∧
      ∀ items rest, p.takeChunks chunks = .ok (items, rest) →
        MovedOut p chunks items rest ∧
        rest.restoreChunks items = (.ok (), p) ∧
        ∀ back, (∀ item ∈ back, item ∈ items) →
          ∃ valid, Restored rest back valid ∧
            ∀ item ∈ valid, item.1.slice (rest.restoreChunks back).2.individuals = item.2 ∧
              item.1.slice p.individuals = item.2) ∧
    ∀ items : List (Chunk × List Individual),
      ((p.restoreChunks items).1 = .ok () ↔ Continues p.size items) ∧
      ∃ valid, Restored p items valid := by
  constructor
  · intro chunks
    refine ⟨run_moveOut p chunks, exists_takeChunks_iff, ?_⟩
    intro items rest h
    refine ⟨movedOut_of_takeChunks h, restoreChunks_takeChunks h, ?_⟩
    intro back hback
    obtain ⟨valid, hrestored⟩ := rest.exists_restored back
    exact ⟨valid, hrestored, fun item hitem => slice_restoreChunks h hback hrestored hitem⟩
  · intro items
    obtain ⟨valid, hrestored⟩ := p.exists_restored items
    exact ⟨hrestored.ok_iff.trans hrestored.longest.eq_iff, valid, hrestored⟩

/-- Five individuals, four of them moved out in twos.  Put back they are where they were; the later
two are refused when they come first, and the earlier two sit in their slots when they come
alone. -/
theorem moving_keeps_slots_five :
    let i (genes : List Bool) : Individual := .ofGenes genes
    let p : Population := ⟨[i [true], i [false], i [true, true], i [false, true], i []]⟩
    let rest : Population := ⟨[i [true]]⟩
    let early : Chunk × List Individual := (⟨1, 3, by decide⟩, [i [false], i [true, true]])
    let late : Chunk × List Individual := (⟨3, 5, by decide⟩, [i [false, true], i []])
    p.takeChunks [early.1, late.1] = .ok ([early, late], rest) ∧
      rest.restoreChunks [early, late] = (.ok (), p) ∧
      (rest.restoreChunks [late, early]).1 ≠ .ok () ∧
      ∃ valid, Restored rest [early, early] valid ∧
        ∀ item ∈ valid, item.1.slice p.individuals = item.2 := by
  intro i p rest early late
  obtain ⟨htake, -⟩ := moving_keeps_slots p
  obtain ⟨-, hrestore⟩ := moving_keeps_slots rest
  obtain ⟨-, -, hmoved⟩ := htake [early.1, late.1]
  have h : p.takeChunks [early.1, late.1] = .ok ([early, late], rest) := by decide
  obtain ⟨-, hback, hpart⟩ := hmoved [early, late] rest h
  refine ⟨h, hback, ?_, ?_⟩
  · -- the later two do not start where the one who stayed ends
    intro hok
    obtain ⟨hstart, -⟩ := (hrestore [late, early]).1.1 hok [] late [early] rfl
    exact absurd hstart (by decide)
  · obtain ⟨valid, hrestored, hslots⟩ := hpart [early, early] (by simp)
    exact ⟨valid, hrestored, fun item hitem => (hslots item hitem).2⟩

end Population

end KnapsackEvolution
