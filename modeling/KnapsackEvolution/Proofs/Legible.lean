/-
# Reading what was written

The writer puts no blanks anywhere and the reader skips them where it finds none, so a text that was
written is read character by character as it was made.  Two things have to be seen.  A number has no
closing mark of its own: its reader stops at the comma or bracket that follows (`Follows`).  And a
character may be written as a piece of several characters, from which the reader gets it back.

Not every value can be read back: a number must have digits before its point and no zero in front of
them, and a text must not be broken (`Json.Legible`).  The main result is `Json.ofText?_compact`.
-/
import KnapsackEvolution.Json.Reader
import Mathlib.Data.List.Basic
import Mathlib.Tactic.Lemma

namespace KnapsackEvolution

namespace Json

/-- What may come after a value: nothing, a comma, or the end of the array or object around it. -/
inductive Follows : List Char → Prop
  | nil : Follows []
  | comma (cs : List Char) : Follows (',' :: cs)
  | bracket (cs : List Char) : Follows (']' :: cs)
  | brace (cs : List Char) : Follows ('\x7d' :: cs)

/-! ## Numbers -/

/-- Digits end where no other digit comes. -/
def EndsDigits (cs : List Char) : Prop := readDigits cs = ([], cs)

lemma Follows.endsDigits {cs : List Char} (h : Follows cs) : EndsDigits cs := by
  cases h <;> rfl

lemma readDigits_append (ds : List Digit) {cs : List Char} (h : EndsDigits cs) :
    readDigits (ds.map Digit.char ++ cs) = (ds, cs) := by
  induction ds with
  | nil => exact h
  | cons d ds ih =>
    rw [List.map_cons, List.cons_append, readDigits, digit?_char]
    simp only [ih]

lemma digitsOf_ne_nil (n : Nat) : digitsOf n ≠ [] := by
  rw [digitsOf]
  split
  · exact List.cons_ne_nil _ _
  · exact List.append_ne_nil_of_right_ne_nil _ (List.cons_ne_nil _ _)

lemma readPower?_append (negative : Bool) {ds : List Digit} (hds : ds ≠ []) {cs : List Char}
    (h : EndsDigits cs) :
    readPower? negative (ds.map Digit.char ++ cs) =
      some (some (if negative then -(digitsValue ds : Int) else digitsValue ds), cs) := by
  rw [readPower?, readDigits_append ds h]
  cases ds with
  | nil => exact absurd rfl hds
  | cons d ds => rfl

lemma readExponent?_exponentChars (e : Int) {cs : List Char} (h : EndsDigits cs) :
    readExponent? (exponentChars e ++ cs) = some (some e, cs) := by
  have hpower := fun negative => readPower?_append negative (digitsOf_ne_nil e.natAbs) h
  rw [exponentChars, List.cons_append, List.cons_append]
  by_cases he : e < 0
  · rw [if_pos he]
    refine (hpower true).trans ?_
    rw [digitsValue_digitsOf, if_pos rfl, Int.ofNat_natAbs_of_nonpos (Int.le_of_lt he), Int.neg_neg]
  · rw [if_neg he]
    refine (hpower false).trans ?_
    rw [digitsValue_digitsOf, if_neg Bool.false_ne_true, Int.natAbs_of_nonneg (Int.not_lt.1 he)]

/-- A number with digits before its point, and a zero in front only alone. -/
structure Number.Legible (n : Number) : Prop where
  whole_ne_nil : n.whole ≠ []
  eq_nil_of_zero : ∀ ds, n.whole = Digit.zero :: ds → ds = []

/-- Digits before a point are accepted if there are some, without a zero in front of others. -/
lemma readWhole?_append (ds : List Digit) {cs : List Char} (h : EndsDigits cs) :
    readWhole? (ds.map Digit.char ++ cs) =
      match ds with
      | [] => none
      | d :: ds => if d.val = 0 ∧ ds ≠ [] then none else some (d :: ds, cs) := by
  rw [readWhole?, readDigits_append ds h]
  cases ds <;> rfl

namespace Number

/-- The digits after the point with the point. -/
def fractionChars (n : Number) : List Char :=
  if n.fraction.isEmpty then [] else '.' :: n.fraction.map Digit.char

/-- The power of ten with its mark. -/
def powerChars (n : Number) : List Char := (n.exponent?.map exponentChars).getD []

variable (n : Number) {rest : List Char}

lemma readExponent?_powerChars (h : Follows rest) :
    readExponent? (n.powerChars ++ rest) = some (n.exponent?, rest) := by
  unfold powerChars
  cases n.exponent? with
  | none => cases h <;> rfl
  | some e => exact readExponent?_exponentChars e h.endsDigits

lemma endsDigits_powerChars (h : Follows rest) : EndsDigits (n.powerChars ++ rest) := by
  unfold powerChars
  cases n.exponent? with
  | none => exact h.endsDigits
  | some e => rfl

lemma readFraction?_fractionChars (h : Follows rest) :
    readFraction? (n.fractionChars ++ (n.powerChars ++ rest)) =
      some (n.fraction, n.powerChars ++ rest) := by
  have hends := n.endsDigits_powerChars h
  unfold fractionChars
  cases hfraction : n.fraction with
  | nil =>
    -- no point is read in what follows the digits before it
    unfold powerChars
    cases n.exponent? with
    | none => cases h <;> rfl
    | some e => rfl
  | cons d ds =>
    show readFraction? ('.' :: ((d :: ds).map Digit.char ++ (n.powerChars ++ rest))) = _
    rw [readFraction?, readDigits_append _ hends]

lemma endsDigits_fractionChars (h : Follows rest) :
    EndsDigits (n.fractionChars ++ (n.powerChars ++ rest)) := by
  unfold fractionChars
  split
  · exact n.endsDigits_powerChars h
  · rfl

variable {n}

lemma Legible.readWhole? (hn : n.Legible) {cs : List Char} (h : EndsDigits cs) :
    readWhole? (n.whole.map Digit.char ++ cs) = some (n.whole, cs) := by
  obtain ⟨d, ds, hwhole⟩ := List.exists_cons_of_ne_nil hn.whole_ne_nil
  rw [hwhole, readWhole?_append _ h]
  refine if_neg ?_
  rintro ⟨hd, hne⟩
  obtain rfl : d = Digit.zero := Fin.ext hd
  exact hne (hn.eq_nil_of_zero ds hwhole)

lemma Legible.readNumber? (hn : n.Legible) (h : Follows rest) :
    readNumber? n.negative
      (n.whole.map Digit.char ++ (n.fractionChars ++ (n.powerChars ++ rest))) = some (n, rest) := by
  simp only [Json.readNumber?, hn.readWhole? (n.endsDigits_fractionChars h),
    n.readFraction?_fractionChars h, n.readExponent?_powerChars h, Option.bind_eq_bind,
    Option.bind_some]
  rfl

lemma chars_append (n : Number) (rest : List Char) :
    n.chars ++ rest = (if n.negative then ['-'] else []) ++
      (n.whole.map Digit.char ++ (n.fractionChars ++ (n.powerChars ++ rest))) := by
  simp only [chars, fractionChars, powerChars, List.append_assoc]

end Number

/-! ## Texts -/

lemma hexDigit?_digitChar (n : Fin 16) : hexDigit? (Nat.digitChar n) = some n.val := by
  revert n
  decide

lemma readPieces?_letter {letter c : Char} (hletter : letter ≠ 'u') (hc : unescape? letter = some c)
    {cs rest : List Char} {pieces : List Piece} (h : readPieces? cs = some (pieces, rest)) :
    readPieces? ('\\' :: letter :: cs) = some (.char c :: pieces, rest) := by
  rw [readPieces?]
  · simp [hc, h]
  · intro _ _ _ _ _ hunit _
    exact hletter hunit

lemma readPieces?_escape (c : Char) {cs rest : List Char} {pieces : List Piece}
    (h : readPieces? cs = some (pieces, rest)) :
    ∃ piece, readPieces? (escape c ++ cs) = some (piece :: pieces, rest) ∧
      joinPieces? (piece :: pieces) = (joinPieces? pieces).map (c :: ·) := by
  unfold escape
  iterate 7
    split
    · subst c
      exact ⟨_, readPieces?_letter (by decide) rfl h, rfl⟩
  split
  · next hcontrol =>
    -- a control character is written as a 16-bit unit, of which two digits are zero
    have hhigh := hexDigit?_digitChar ⟨c.toNat / 16, by omega⟩
    have hlow := hexDigit?_digitChar ⟨c.toNat % 16, by omega⟩
    have hunit : hexUnit? '0' '0' (Nat.digitChar (c.toNat / 16)) (Nat.digitChar (c.toNat % 16)) =
        some c.toNat := by
      simp only [hexUnit?, show hexDigit? '0' = some 0 from rfl, hhigh, hlow, Option.bind_eq_bind,
        Option.bind_some, Option.pure_def]
      exact congrArg some (by omega)
    refine ⟨.unit c.toNat, ?_, ?_⟩
    · simp [readPieces?, hunit, h]
    · have hlowHalf : isLowSurrogate c.toNat = false := decide_eq_false (by omega)
      have hhighHalf : isHighSurrogate c.toNat = false := decide_eq_false (by omega)
      rw [joinPieces?.eq_def]
      simp only [hlowHalf, hhighHalf, Bool.false_eq_true, if_false, Char.ofNat_toNat]
  · next hquote hslash _ _ _ _ _ hcontrol =>
    have hplain : ¬(c.toNat < 0x20 ∨ c = '\\') := not_or.2 ⟨hcontrol, hslash⟩
    refine ⟨.char c, ?_, rfl⟩
    rw [List.singleton_append, readPieces?]
    · simp [hplain, h]
    · exact hquote
    · intro _ _ _ _ _ hc _
      exact hslash hc
    · intro _ _ hc _
      exact hslash hc

lemma readText?_quote (s : String) (rest : List Char) :
    readText? (s.toList.flatMap escape ++ '"' :: rest) = some (some s, rest) := by
  have hpieces : ∀ cs : List Char, ∃ pieces,
      readPieces? (cs.flatMap escape ++ '"' :: rest) = some (pieces, rest) ∧
        joinPieces? pieces = some cs := by
    intro cs
    induction cs with
    | nil => exact ⟨[], by simp [readPieces?], rfl⟩
    | cons c cs ih =>
      obtain ⟨pieces, hread, hjoin⟩ := ih
      obtain ⟨piece, hread', hjoin'⟩ := readPieces?_escape c hread
      refine ⟨piece :: pieces, ?_, ?_⟩
      · rw [List.flatMap_cons, List.append_assoc, hread']
      · rw [hjoin', hjoin]
        rfl
  obtain ⟨pieces, hread, hjoin⟩ := hpieces s.toList
  simp [readText?, hread, hjoin]

/-! ## Values -/

/-- Members with names that are not broken. -/
def named (members : List (String × Json)) : List (Option String × Json) :=
  members.map fun m => (some m.1, m.2)

/-- A value that can be read back: its numbers are legible and its texts are not broken. -/
inductive Legible : Json → Prop
  | null : Legible null
  | bool (b : Bool) : Legible (bool b)
  | number {n : Number} : n.Legible → Legible (number n)
  | text (s : String) : Legible (text (some s))
  | array {items : List Json} : (∀ v ∈ items, Legible v) → Legible (array items)
  | object {members : List (String × Json)} :
    (∀ m ∈ members, Legible m.2) → Legible (object (named members))

/-- Whatever follows it, the value is read from what was written, with so much fuel. -/
def ReadsBack (v : Json) : Prop :=
  ∀ fuel rest, Follows rest → 2 * v.chars.length ≤ fuel + 1 →
    readValue? fuel (v.chars ++ rest) = some (v, rest)

lemma skipBlanks_cons {c : Char} (h : isBlank c = false) (cs : List Char) :
    skipBlanks (c :: cs) = c :: cs := by
  simp [skipBlanks, h]

/-- A digit is no blank and opens nothing but a number. -/
lemma readValue?_digit (d : Digit) (fuel : Nat) (cs : List Char) :
    readValue? (fuel + 1) (d.char :: cs) =
      (readNumber? false (d.char :: cs)).map fun (n, cs) => (number n, cs) := by
  match d with
  | 0 | 1 | 2 | 3 | 4 | 5 | 6 | 7 | 8 | 9 => rfl

lemma readValue?_minus (fuel : Nat) (cs : List Char) :
    readValue? (fuel + 1) ('-' :: cs) =
      (readNumber? true cs).map fun (n, cs) => (number n, cs) := rfl

lemma isBlank_digit (d : Digit) : isBlank d.char = false ∧ d.char ≠ ']' := by
  revert d
  decide

/-- What is written of a value begins neither with a blank nor with a closing bracket. -/
lemma Legible.exists_chars {v : Json} (h : v.Legible) :
    ∃ c cs, v.chars = c :: cs ∧ isBlank c = false ∧ c ≠ ']' := by
  cases h with
  | null => exact ⟨_, _, rfl, by decide, by decide⟩
  | bool b => cases b <;> exact ⟨_, _, rfl, by decide, by decide⟩
  | text s => exact ⟨_, _, rfl, by decide, by decide⟩
  | @array items _ => cases items <;> exact ⟨_, _, by rw [chars], by decide, by decide⟩
  | @object members _ => cases members <;> exact ⟨_, _, by rfl, by decide, by decide⟩
  | @number n hn =>
    rw [chars, ← List.append_nil n.chars, n.chars_append]
    cases n.negative with
    | true => exact ⟨_, _, rfl, by decide, by decide⟩
    | false =>
      obtain ⟨d, ds, hwhole⟩ := List.exists_cons_of_ne_nil hn.whole_ne_nil
      obtain ⟨hblank, hbracket⟩ := isBlank_digit d
      rw [hwhole]
      exact ⟨_, _, rfl, hblank, hbracket⟩

/-- Something is written of every value, so there must be fuel to read it. -/
lemma Legible.exists_fuel {v : Json} (h : v.Legible) {fuel : Nat}
    (hfuel : 2 * v.chars.length ≤ fuel + 1) : ∃ more, fuel = more + 1 := by
  obtain ⟨c, cs, hchars, -⟩ := h.exists_chars
  rw [hchars, List.length_cons] at hfuel
  exact ⟨fuel - 1, by omega⟩

lemma readValue?_number {n : Number} (hwhole : n.whole ≠ []) (fuel : Nat) (rest : List Char) :
    readValue? (fuel + 1) (n.chars ++ rest) =
      (readNumber? n.negative
        (n.whole.map Digit.char ++ (n.fractionChars ++ (n.powerChars ++ rest)))).map
        fun x => (number x.1, x.2) := by
  obtain ⟨d, ds, hds⟩ := List.exists_cons_of_ne_nil hwhole
  rw [n.chars_append, hds]
  cases n.negative with
  | true => exact readValue?_minus fuel _
  | false => exact readValue?_digit d fuel _

lemma readsBack_number {n : Number} (hn : n.Legible) : (number n).ReadsBack := by
  intro fuel rest hrest hfuel
  obtain ⟨fuel, rfl⟩ := (Legible.number hn).exists_fuel hfuel
  rw [chars, readValue?_number hn.whole_ne_nil, hn.readNumber? hrest]
  rfl

/-- Nothing is read where a number has no digits before its point. -/
lemma readValue?_of_whole_eq_nil {n : Number} (hwhole : n.whole = []) (fuel : Nat) :
    readValue? (fuel + 1) (n.chars ++ []) = none := by
  rw [n.chars_append, hwhole, Number.fractionChars, Number.powerChars]
  cases n.negative <;> cases n.fraction <;> cases n.exponent? <;> rfl

lemma Number.legible_of_readValue? {n : Number} {fuel : Nat}
    (h : readValue? (fuel + 1) (n.chars ++ []) ≠ none) : n.Legible := by
  have hwhole : n.whole ≠ [] := fun hwhole => h (readValue?_of_whole_eq_nil hwhole fuel)
  refine ⟨hwhole, fun ds hds => ?_⟩
  by_contra hne
  refine h ?_
  have hnone : readWhole? (n.whole.map Digit.char ++ (n.fractionChars ++ (n.powerChars ++ []))) =
      none := by
    rw [readWhole?_append _ (n.endsDigits_fractionChars .nil), hds]
    exact if_pos ⟨rfl, hne⟩
  rw [readValue?_number hwhole, readNumber?, hnone]
  rfl

lemma readItems?_append {v : Json} {items : List Json} (hv : v.ReadsBack)
    (hitems : ∀ w ∈ items, w.ReadsBack) {fuel : Nat} (rest : List Char)
    (hfuel : 2 * (v.chars.length + (itemChars items).length) ≤ fuel) :
    readItems? fuel (v.chars ++ (itemChars items ++ rest)) = some (v :: items, rest) := by
  induction items generalizing v fuel with
  | nil =>
    rw [itemChars, List.length_singleton] at hfuel
    obtain ⟨fuel, rfl⟩ : ∃ more, fuel = more + 1 := ⟨fuel - 1, by omega⟩
    have hread := hv fuel (']' :: rest) (.bracket rest) (by omega)
    show readItems? (fuel + 1) (v.chars ++ ']' :: rest) = _
    rw [readItems?, hread]
    rfl
  | cons w items ih =>
    obtain ⟨hw, hitems⟩ := List.forall_mem_cons.1 hitems
    rw [itemChars, List.length_cons, List.length_append] at hfuel
    obtain ⟨fuel, rfl⟩ : ∃ more, fuel = more + 1 := ⟨fuel - 1, by omega⟩
    have hread := hv fuel (',' :: (w.chars ++ (itemChars items ++ rest))) (.comma _) (by omega)
    have hrest : readItems? fuel (w.chars ++ (itemChars items ++ rest)) =
        some (w :: items, rest) := ih hw hitems (by omega)
    rw [itemChars, List.cons_append, List.append_assoc, readItems?, hread]
    show (readItems? fuel (w.chars ++ (itemChars items ++ rest))).bind _ = _
    rw [hrest]
    rfl

/-- After the name and the value of a member the reader is at what follows the value. -/
lemma readMembers?_member (name : String) {v : Json} (hv : v.ReadsBack) {fuel : Nat}
    {after : List Char} (hafter : Follows after) (hfuel : 2 * v.chars.length ≤ fuel + 1) :
    readMembers? (fuel + 1) (quote name ++ ':' :: (v.chars ++ after)) =
      match after with
      | '\x7d' :: cs => some ([(some name, v)], cs)
      | ',' :: cs => do
        let (members, cs) ← readMembers? fuel cs
        return ((some name, v) :: members, cs)
      | _ => none := by
  have hquote : quote name ++ ':' :: (v.chars ++ after) =
      '"' :: (name.toList.flatMap escape ++ '"' :: ':' :: (v.chars ++ after)) := by
    simp [quote]
  rw [hquote]
  show (readText? (name.toList.flatMap escape ++ '"' :: ':' :: (v.chars ++ after))).bind _ = _
  rw [readText?_quote]
  show (readValue? fuel (v.chars ++ after)).bind _ = _
  rw [hv fuel after hafter hfuel]
  cases hafter <;> rfl

lemma readMembers?_append {name : String} {v : Json} {members : List (String × Json)}
    (hv : v.ReadsBack) (hmembers : ∀ m ∈ members, m.2.ReadsBack) {fuel : Nat} (rest : List Char)
    (hfuel : 2 * (v.chars.length + (memberChars (named members)).length) ≤ fuel) :
    readMembers? fuel
        (quote name ++ ':' :: (v.chars ++ (memberChars (named members) ++ rest))) =
      some (named ((name, v) :: members), rest) := by
  induction members generalizing name v fuel with
  | nil =>
    rw [named, List.map_nil, memberChars, List.length_singleton] at hfuel
    obtain ⟨fuel, rfl⟩ : ∃ more, fuel = more + 1 := ⟨fuel - 1, by omega⟩
    exact readMembers?_member name hv (.brace rest) (by omega)
  | cons m members ih =>
    obtain ⟨hm, hmembers⟩ := List.forall_mem_cons.1 hmembers
    have hchars : memberChars (named (m :: members)) ++ rest =
        ',' :: (quote m.1 ++ ':' :: (m.2.chars ++ (memberChars (named members) ++ rest))) := by
      simp [named, memberChars]
    have hlength := congrArg List.length hchars
    simp only [List.length_append, List.length_cons] at hlength
    obtain ⟨fuel, rfl⟩ : ∃ more, fuel = more + 1 := ⟨fuel - 1, by omega⟩
    have hrest : readMembers? fuel
        (quote m.1 ++ ':' :: (m.2.chars ++ (memberChars (named members) ++ rest))) =
        some (named (m :: members), rest) := ih hm hmembers (by omega)
    rw [hchars]
    refine (readMembers?_member name hv (.comma _) (by omega)).trans ?_
    show (readMembers? fuel _).bind _ = _
    rw [hrest]
    rfl

lemma readValue?_bracket {c : Char} (hblank : isBlank c = false) (hbracket : c ≠ ']') (fuel : Nat)
    (cs : List Char) :
    readValue? (fuel + 1) ('[' :: c :: cs) =
      (readItems? fuel (c :: cs)).map fun (items, cs) => (array items, cs) := by
  have hopen : skipBlanks ('[' :: c :: cs) = '[' :: c :: cs := skipBlanks_cons rfl _
  rw [readValue?, hopen]
  simp only [skipBlanks_cons hblank]
  split
  · next h => exact absurd (List.cons.inj h).1 hbracket
  · rfl

/-- Legible values are read back. -/
theorem Legible.readsBack {v : Json} (h : v.Legible) : v.ReadsBack := by
  induction h with
  | null =>
    intro fuel rest _ hfuel
    obtain ⟨fuel, rfl⟩ := Legible.null.exists_fuel hfuel
    rfl
  | bool b =>
    intro fuel rest _ hfuel
    obtain ⟨fuel, rfl⟩ := (Legible.bool b).exists_fuel hfuel
    cases b <;> rfl
  | number hn => exact readsBack_number hn
  | text s =>
    intro fuel rest _ hfuel
    obtain ⟨fuel, rfl⟩ := (Legible.text s).exists_fuel hfuel
    have hchars : (Json.text (some s)).chars ++ rest =
        '"' :: (s.toList.flatMap escape ++ '"' :: rest) := by
      simp [chars, quote]
    rw [hchars]
    show (readText? (s.toList.flatMap escape ++ '"' :: rest)).map _ = _
    rw [readText?_quote]
    rfl
  | @array items h ih =>
    intro fuel rest hrest hfuel
    obtain ⟨fuel, rfl⟩ := (Legible.array h).exists_fuel hfuel
    cases items with
    | nil => rfl
    | cons v items =>
      obtain ⟨hv, hitems⟩ := List.forall_mem_cons.1 ih
      obtain ⟨c, cs, hchars, hblank, hbracket⟩ := (h v List.mem_cons_self).exists_chars
      rw [chars, List.length_cons, List.length_append] at hfuel
      have hread : readItems? fuel (v.chars ++ (itemChars items ++ rest)) =
          some (v :: items, rest) := readItems?_append hv hitems rest (by omega)
      rw [chars, List.cons_append, List.append_assoc]
      rw [hchars, List.cons_append] at hread ⊢
      rw [readValue?_bracket hblank hbracket, hread]
      rfl
  | @object members h ih =>
    intro fuel rest hrest hfuel
    obtain ⟨fuel, rfl⟩ := (Legible.object h).exists_fuel hfuel
    cases members with
    | nil => rfl
    | cons m members =>
      obtain ⟨hm, hmembers⟩ := List.forall_mem_cons.1 ih
      have hchars : (Json.object (named (m :: members))).chars ++ rest =
          '\x7b' :: (quote m.1 ++ ':' :: (m.2.chars ++ (memberChars (named members) ++ rest))) := by
        simp [named, chars]
      have hlength := congrArg List.length hchars
      simp only [List.length_append, List.length_cons] at hlength
      have hread : readMembers? fuel
          (quote m.1 ++ ':' :: (m.2.chars ++ (memberChars (named members) ++ rest))) =
          some (named (m :: members), rest) := readMembers?_append hm hmembers rest (by omega)
      rw [hchars]
      -- no blank and no closing brace comes before the quote of the first name
      exact congrArg (Option.map fun x => (Json.object x.1, x.2)) hread

/-- What was written of a legible value is the text of that value. -/
theorem ofText?_compact {v : Json} (h : v.Legible) : ofText? v.compact = some v := by
  have hread := h.readsBack (2 * v.chars.length + 2) [] .nil (by omega)
  rw [List.append_nil] at hread
  unfold ofText? compact
  simp only [String.toList_ofList, hread]
  rfl

/-- A number whose text is the text of any value is legible. -/
theorem Number.legible_of_ofText? {n : Number} {v : Json}
    (h : ofText? (number n).compact = some v) : n.Legible := by
  have hread : readValue? (2 * n.chars.length + 1 + 1) (n.chars ++ []) ≠ none := by
    intro hnone
    rw [List.append_nil] at hnone
    simp [ofText?, compact, Json.chars, hnone] at h
  exact legible_of_readValue? hread

end Json

end KnapsackEvolution
