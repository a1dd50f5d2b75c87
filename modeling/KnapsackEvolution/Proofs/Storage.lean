/-
# Stored data survives

What is written of a word, a signed word, a truth value or the name of an alternative can be read
back and is read as what it was (`Json.Keeps`).  Lists and optional values keep what their contents
keep, and an object with one member a field has the values of its fields in order, so individuals,
problems, tournaments and options are kept as well.

Only doubles are different.  That the fewest digits which tell a double from its neighbours are read
as that double again is not shown here; it is asked of the double's own text, read alone.
-/
import KnapsackEvolution.Json.Stored
import KnapsackEvolution.Proofs.Legible

namespace KnapsackEvolution

namespace Json

/-! ## Whole numbers -/

lemma eq_nil_of_digitsOf_eq {n : Nat} {ds : List Digit} (h : digitsOf n = Digit.zero :: ds) :
    ds = [] := by
  induction n using digitsOf.induct generalizing ds with
  | case1 n hn =>
    rw [digitsOf, if_pos hn] at h
    exact (List.cons.inj h).2.symm
  | case2 n hn ih =>
    obtain ⟨d, es, hes⟩ := List.exists_cons_of_ne_nil (digitsOf_ne_nil (n / 10))
    rw [digitsOf, if_neg hn, hes, List.cons_append] at h
    obtain rfl := (List.cons.inj h).1
    obtain rfl := ih hes
    -- the digits before the last one would spell zero
    have hzero : 0 = n / 10 := by
      rw [← digitsValue_digitsOf (n / 10), hes]
      rfl
    omega

lemma legible_digitsOf (negative : Bool) (n : Nat) :
    Number.Legible ⟨negative, digitsOf n, [], none⟩ :=
  ⟨digitsOf_ne_nil n, fun _ => eq_nil_of_digitsOf_eq⟩

namespace Number

lemma toUInt64?_ofUInt64 (w : UInt64) : (ofUInt64 w).toUInt64? = some w := by
  simp only [toUInt64?, ofUInt64, digitsValue_digitsOf]
  rw [if_pos ⟨rfl, rfl, w.toNat_lt⟩, UInt64.ofNat_toNat]

/-- The least signed word has a size that no other one has, and is still read with its sign. -/
lemma toInt64?_ofInt64 (n : Int64) : (ofInt64 n).toInt64? = some n := by
  have hlow : -2 ^ 63 ≤ n.toInt := n.le_toInt
  have hhigh : n.toInt < 2 ^ 63 := n.toInt_lt
  have hsign : n < 0 ↔ n.toInt < 0 := Int64.lt_iff_toInt_lt
  have hwhole : (ofInt64 n).isWhole = true := rfl
  simp only [toInt64?, hwhole, Bool.not_true, Bool.false_eq_true, if_false]
  simp only [ofInt64, digitsValue_digitsOf, decide_eq_true_eq, hsign]
  by_cases hn : n.toInt < 0
  · have hsize : 0 < n.toInt.natAbs ∧ n.toInt.natAbs ≤ Nat.pow 2 63 := by
      refine ⟨by omega, ?_⟩
      show n.toInt.natAbs ≤ 2 ^ 63
      omega
    rw [if_pos hn, if_pos hsize, Int.ofNat_natAbs_of_nonpos (by omega), Int.neg_neg,
      Int64.ofInt_toInt]
  · have hsize : n.toInt.natAbs < Nat.pow 2 63 := by
      show n.toInt.natAbs < 2 ^ 63
      omega
    rw [if_neg hn, if_pos hsize, Int.natAbs_of_nonneg (by omega), Int64.ofInt_toInt]

end Number

/-! ## Values that are kept -/

variable {α : Type} {write : α → Json} {read : Json → Option α}

/-- What is written of a value can be read back, and is read as that value. -/
structure Keeps (write : α → Json) (read : Json → Option α) (a : α) : Prop where
  legible : (write a).Legible
  read_write : read (write a) = some a

lemma keeps_bool (b : Bool) : Keeps bool toBool? b := ⟨.bool b, rfl⟩

lemma keeps_uint64 (w : UInt64) : Keeps ofUInt64 toUInt64? w :=
  ⟨.number (legible_digitsOf _ _), Number.toUInt64?_ofUInt64 w⟩

lemma keeps_int64 (n : Int64) : Keeps ofInt64 toInt64? n :=
  ⟨.number (legible_digitsOf _ _), Number.toInt64?_ofInt64 n⟩

lemma keeps_tag (tag : String) : Keeps ofTag toTag? tag := ⟨.text tag, rfl⟩

/-- A double is kept among other values if its own text is read back. -/
lemma keeps_binary64 {x : Binary64}
    (h : (ofText? (ofBinary64 x).compact).bind toBinary64? = some x) :
    Keeps ofBinary64 toBinary64? x := by
  have hlegible : (ofBinary64 x).Legible := by
    obtain ⟨v, hv, -⟩ := Option.bind_eq_some_iff.1 h
    unfold ofBinary64 at hv ⊢
    by_cases hfinite : x.isFinite = true
    · rw [if_pos hfinite] at hv ⊢
      exact .number (Number.legible_of_ofText? hv)
    · rw [if_neg hfinite]
      exact .null
  rw [ofText?_compact hlegible] at h
  exact ⟨hlegible, h⟩

/-- An optional value is kept if the value is, as long as no value is written as `null`. -/
lemma Keeps.option {a? : Option α} (h : ∀ a ∈ a?, Keeps write read a)
    (hnull : ∀ a, write a ≠ null) : Keeps (ofOption write) (toOption? read) a? := by
  cases a? with
  | none => exact ⟨.null, rfl⟩
  | some a =>
    obtain ⟨hlegible, hread⟩ := h a rfl
    refine ⟨hlegible, ?_⟩
    show toOption? read (write a) = _
    unfold toOption?
    split
    · next heq => exact absurd heq (hnull a)
    · rw [hread]
      rfl

lemma mapM_map_eq_some {β γ : Type} {make : α → β} {read : β → Option γ} {result : α → γ}
    {as : List α} (h : ∀ a ∈ as, read (make a) = some (result a)) :
    (as.map make).mapM read = some (as.map result) := by
  induction as with
  | nil => rfl
  | cons a as ih =>
    obtain ⟨ha, has⟩ := List.forall_mem_cons.1 h
    rw [List.map_cons, List.mapM_cons, ha, ih has]
    rfl

lemma Keeps.list {as : List α} (h : ∀ a ∈ as, Keeps write read a) :
    Keeps (fun as => array (as.map write)) (toList? read) as := by
  constructor
  · refine .array fun v hv => ?_
    obtain ⟨a, ha, rfl⟩ := List.mem_map.1 hv
    exact (h a ha).legible
  · exact Eq.trans (mapM_map_eq_some fun a ha => (h a ha).read_write)
      (congrArg some (List.map_id' as))

/-! ## Members of an object -/

/-- One member has a name that is there if no name comes twice. -/
lemma filter_name_eq_singleton {members : List (String × Json)}
    (hnodup : (members.map Prod.fst).Nodup) {m : String × Json} (hm : m ∈ members) :
    (members.filter fun m' => m'.1 == m.1) = [m] := by
  induction members with
  | nil => exact absurd hm List.not_mem_nil
  | cons first members ih =>
    rw [List.map_cons, List.nodup_cons] at hnodup
    obtain ⟨hfresh, hnodup⟩ := hnodup
    -- the name of the first member is not among the others
    have hother : ∀ m' ∈ members, first.1 ≠ m'.1 := by
      rintro m' hm' heq
      exact hfresh (heq ▸ List.mem_map_of_mem hm')
    rw [List.filter_cons]
    rcases List.mem_cons.1 hm with rfl | hm
    · have hnone : (members.filter fun m' => m'.1 == m.1) = [] :=
        List.filter_eq_nil_iff.2 fun m' hm' heq => hother m' hm' (beq_iff_eq.1 heq).symm
      rw [if_pos (beq_self_eq_true m.1), hnone]
    · rw [if_neg (mt beq_iff_eq.1 (hother m hm)), ih hnodup hm]

lemma mapM_fieldValue? {members : List (String × Json)} (hnodup : (members.map Prod.fst).Nodup)
    {taken : List (String × Json)} (htaken : ∀ m ∈ taken, m ∈ members) {fields : List Field}
    (hnames : taken.map Prod.fst = fields.map Field.name) :
    fields.mapM (fieldValue? members) = some (taken.map Prod.snd) := by
  induction taken generalizing fields with
  | nil =>
    obtain rfl := List.map_eq_nil_iff.1 hnames.symm
    rfl
  | cons m taken ih =>
    obtain ⟨hm, htaken⟩ := List.forall_mem_cons.1 htaken
    obtain ⟨f, fields, rfl, hname, hnames⟩ := List.map_eq_cons_iff.1 hnames.symm
    have hvalue : fieldValue? members f = some m.2 := by
      rw [fieldValue?, hname, filter_name_eq_singleton hnodup hm]
    rw [List.mapM_cons, hvalue, ih htaken hnames.symm]
    rfl

/-- An object with one member a field has the values of these members in order. -/
lemma fieldValues?_ofMembers {fields : List Field} {members : List (String × Json)}
    (hnames : members.map Prod.fst = fields.map Field.name)
    (hnodup : (fields.map Field.name).Nodup) :
    fieldValues? fields (ofMembers members) = some (members.map Prod.snd) := by
  have hunbroken : (members.map fun m => (some m.1, m.2)).mapM
      (fun m : Option String × Json => m.1.map fun name => (name, m.2)) = some members := by
    refine Eq.trans (mapM_map_eq_some fun m _ => ?_) (congrArg some (List.map_id members))
    rfl
  rw [ofMembers, fieldValues?, hunbroken]
  exact mapM_fieldValue? (hnames ▸ hnodup) (fun _ => id) hnames

/-- What is written of a value is read as an equal value, of which the same is written. -/
def Survives (write : α → Json) (read : Json → Option α) (a : α) : Prop :=
  ∃ b, (ofText? (write a).compact).bind read = some b ∧ b = a ∧
    (write b).compact = (write a).compact

lemma Keeps.survives {a : α} (h : Keeps write read a) : Survives write read a :=
  ⟨a, by rw [ofText?_compact h.legible]; exact h.read_write, rfl, rfl⟩

end Json

open Json

/-! ## Individuals, problems and tournaments -/

lemma Individual.keeps (i : Individual) : Keeps toJson ofJson? i := by
  have hgenes : Keeps (fun genes => array (genes.map bool)) (toList? toBool?) i.genes :=
    Keeps.list fun b _ => keeps_bool b
  have hfitness : Keeps (ofOption ofInt64) (toOption? toInt64?) i.fitness? :=
    Keeps.option (fun f _ => keeps_int64 f) fun _ => nofun
  refine ⟨.object ?_, ?_⟩
  · simp only [List.forall_mem_cons]
    exact ⟨hgenes.legible, hfitness.legible, by simp⟩
  · have hvalues : i.toJson.fieldValues? fields = _ :=
      fieldValues?_ofMembers rfl (by decide)
    simp [ofJson?, hvalues, hgenes.read_write, hfitness.read_write]

lemma Problem.keeps (p : Problem) : Keeps toJson ofJson? p := by
  have htable : ∀ table : List UInt64,
      Keeps (fun table => array (table.map ofUInt64)) (toList? toUInt64?) table := fun _ =>
    Keeps.list fun w _ => keeps_uint64 w
  have hcapacity := keeps_uint64 p.capacity
  refine ⟨.object ?_, ?_⟩
  · simp only [List.forall_mem_cons]
    exact ⟨(htable _).legible, (htable _).legible, hcapacity.legible, by simp⟩
  · have hvalues : p.toJson.fieldValues? fields = _ :=
      fieldValues?_ofMembers rfl (by decide)
    simp [ofJson?, hvalues, (htable _).read_write, hcapacity.read_write]

lemma Tournament.keeps (t : Tournament) : Keeps toJson ofJson? t := by
  have hsize := keeps_uint64 t.size
  refine ⟨.object ?_, ?_⟩
  · simp only [List.forall_mem_cons]
    exact ⟨hsize.legible, by simp⟩
  · have hvalues : t.toJson.fieldValues? fields = _ :=
      fieldValues?_ofMembers rfl (by decide)
    simp [ofJson?, hvalues, hsize.read_write]

/-! ## Options -/

namespace Options

lemma keeps {o : Options}
    (h : (ofText? (Json.ofBinary64 o.mutationProbability).compact).bind toBinary64? =
      some o.mutationProbability) : Keeps toJson ofJson? o := by
  have hword := keeps_uint64
  have htag := keeps_tag
  have hprobability := keeps_binary64 h
  have hseed : Keeps (ofOption ofUInt64) (toOption? toUInt64?) o.seed? :=
    Keeps.option (fun w _ => keeps_uint64 w) fun _ => nofun
  refine ⟨.object ?_, ?_⟩
  · simp only [List.forall_mem_cons]
    exact ⟨(htag _).legible, (hword _).legible, (hword _).legible, (hword _).legible,
      (hword _).legible, (hword _).legible, hprobability.legible, (hword _).legible,
      (htag _).legible, hseed.legible, by simp⟩
  · have hvalues : o.toJson.fieldValues? fields = _ :=
      fieldValues?_ofMembers rfl (by decide)
    simp [ofJson?, hvalues, (hword _).read_write, (htag _).read_write, hprobability.read_write,
      hseed.read_write, Kind.ofTag?_tag, LogLevel.ofTag?_tag]

lemma agrees_self {o : Options} (h : o.mutationProbability.isFinite = true) :
    o.agrees o = true := by
  have hnumber : o.mutationProbability.isNaN = false := by
    rw [Binary64.isNaN, beq_eq_false_iff_ne.2 (bne_iff_ne.1 h), Bool.false_and]
  simp [agrees, Binary64.sameNumber, hnumber]

end Options

lemma Json.isFinite_of_toBinary64? {v : Json} {x : Binary64} (h : v.toBinary64? = some x) :
    x.isFinite = true := by
  cases v with
  | number n =>
    obtain ⟨hfinite, rfl⟩ : _ ∧ Binary64.ofDecimal n.negative n.decimal = x :=
      Option.ite_none_right_eq_some.1 h |>.imp_right Option.some.inj
    exact hfinite
  | _ => exact nomatch h

/-- Individuals, problems, tournaments and options survive storage, options as long as the text of
their mutation probability is the text of the same double. -/
theorem stored_data_survives (i : Individual) (p : Problem) (t : Tournament) {o : Options}
    (h : (ofText? (Json.ofBinary64 o.mutationProbability).compact).bind toBinary64? =
      some o.mutationProbability) :
    Survives Individual.toJson Individual.ofJson? i ∧
      Survives Problem.toJson Problem.ofJson? p ∧
      Survives Tournament.toJson Tournament.ofJson? t ∧
      Survives Options.toJson Options.ofJson? o ∧ o.agrees o = true := by
  obtain ⟨v, -, hv⟩ := Option.bind_eq_some_iff.1 h
  exact ⟨i.keeps.survives, p.keeps.survives, t.keeps.survives, (Options.keeps h).survives,
    Options.agrees_self (isFinite_of_toBinary64? hv)⟩

/-- The least fitness, the largest words and a seed survive. -/
theorem stored_data_survives_extremes :
    let options : Options := { Options.default with seed? := some 18446744073709551615 }
    (ofText? (Json.ofBinary64 .half).compact).bind toBinary64? = some .half ∧
      Survives Individual.toJson Individual.ofJson? ⟨[true, false], some Int64.minValue⟩ ∧
      Survives Problem.toJson Problem.ofJson? ⟨#[18446744073709551615, 0], #[7], 0⟩ ∧
      Survives Tournament.toJson Tournament.ofJson? ⟨0⟩ ∧
      Survives Options.toJson Options.ofJson? options ∧ options.agrees options = true := by
  intro options
  have hhalf : (ofText? (Json.ofBinary64 .half).compact).bind toBinary64? = some .half := by
    decide +kernel
  exact ⟨hhalf, stored_data_survives _ _ _ hhalf⟩

end KnapsackEvolution
