/-
# JSON values

A JSON value as it stands in a text.  A number is kept as the digits that are written, so that its
reader decides what it is worth; the members of an object are kept in order and with repetitions;
a text that is not a sequence of characters (it has half of a surrogate pair) is kept without them.
-/

namespace KnapsackEvolution

namespace Json

/-- A decimal digit. -/
abbrev Digit := Fin 10

/-- A number as it is written. -/
structure Number where
  /-- It starts with a minus sign. -/
  negative : Bool
  /-- The digits before the point. -/
  whole : List Digit
  /-- The digits after the point, none if there is no point. -/
  fraction : List Digit
  /-- The power of ten, if one is written. -/
  exponent? : Option Int
deriving DecidableEq

end Json

/-- A JSON value. -/
inductive Json where
  | null
  | bool (b : Bool)
  | number (n : Json.Number)
  /-- A text; there is nothing inside if it has half of a surrogate pair. -/
  | text (s : Option String)
  | array (items : List Json)
  /-- Named values in order; a name may be broken like a text. -/
  | object (members : List (Option String × Json))

namespace Json

/-! ## Digits -/

/-- The digit zero. -/
def Digit.zero : Digit := ⟨0, by decide⟩

/-- The character of a digit. -/
def Digit.char (d : Digit) : Char := Char.ofNat ('0'.toNat + d.val)

/-- The digit of a character. -/
def digit? (c : Char) : Option Digit :=
  if c.isDigit then some (Fin.ofNat 10 (c.toNat - '0'.toNat)) else none

/-- The number that digits spell. -/
def digitsValue (ds : List Digit) : Nat := ds.foldl (fun n d => n * 10 + d.val) 0

/-- The digits of a number, without leading zeros. -/
def digitsOf (n : Nat) : List Digit :=
  if n < 10 then [Fin.ofNat 10 n] else digitsOf (n / 10) ++ [Fin.ofNat 10 n]
termination_by n

theorem digitsValue_append (ds es : List Digit) :
    digitsValue (ds ++ es) = es.foldl (fun n d => n * 10 + d.val) (digitsValue ds) := by
  simp [digitsValue]

/-- The digits of a number spell it. -/
theorem digitsValue_digitsOf (n : Nat) : digitsValue (digitsOf n) = n := by
  induction n using digitsOf.induct with
  | case1 n h =>
    rw [digitsOf]
    simp [h, digitsValue, Fin.ofNat]
  | case2 n h ih =>
    rw [digitsOf]
    simp only [h, if_false]
    rw [digitsValue_append, ih]
    simp only [List.foldl_cons, List.foldl_nil, Fin.ofNat]
    omega

theorem digit?_char (d : Digit) : digit? d.char = some d := by
  revert d
  decide

/-! ## Writing -/

/-- The characters that stand for a character inside quotes. -/
def escape (c : Char) : List Char :=
  if c = '"' then ['\\', '"']
  else if c = '\\' then ['\\', '\\']
  else if c = '\x08' then ['\\', 'b']
  else if c = '\x0c' then ['\\', 'f']
  else if c = '\n' then ['\\', 'n']
  else if c = '\r' then ['\\', 'r']
  else if c = '\t' then ['\\', 't']
  else if c.toNat < 0x20 then
    ['\\', 'u', '0', '0', Nat.digitChar (c.toNat / 16), Nat.digitChar (c.toNat % 16)]
  else [c]

/-- A text in quotes. -/
def quote (s : String) : List Char := '"' :: (s.toList.flatMap escape ++ ['"'])

/-- A power of ten with its sign. -/
def exponentChars (e : Int) : List Char :=
  'e' :: (if e < 0 then '-' else '+') :: (digitsOf e.natAbs).map Digit.char

/-- A number as it is written. -/
def Number.chars (n : Number) : List Char :=
  (if n.negative then ['-'] else []) ++ n.whole.map Digit.char
    ++ (if n.fraction.isEmpty then [] else '.' :: n.fraction.map Digit.char)
    ++ (n.exponent?.map exponentChars).getD []

mutual

/-- The value without blanks. -/
def chars : Json → List Char
  | null => ['n', 'u', 'l', 'l']
  | bool true => ['t', 'r', 'u', 'e']
  | bool false => ['f', 'a', 'l', 's', 'e']
  | number n => n.chars
  | text s => quote (s.getD "")
  | array [] => ['[', ']']
  | array (v :: rest) => '[' :: (chars v ++ itemChars rest)
  | object [] => ['\x7b', '\x7d']
  | object ((name, v) :: rest) =>
    '\x7b' :: (quote (name.getD "") ++ ':' :: (chars v ++ memberChars rest))

/-- The rest of an array after a value. -/
def itemChars : List Json → List Char
  | [] => [']']
  | v :: rest => ',' :: (chars v ++ itemChars rest)

/-- The rest of an object after a value. -/
def memberChars : List (Option String × Json) → List Char
  | [] => ['\x7d']
  | (name, v) :: rest => ',' :: (quote (name.getD "") ++ ':' :: (chars v ++ memberChars rest))

end

/-- The value without blanks. -/
def compact (v : Json) : String := String.ofList v.chars

end Json

end KnapsackEvolution
