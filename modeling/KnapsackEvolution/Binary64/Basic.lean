/-
# Double-precision numbers as exact integers

A probability is stored as the 64 bits of an IEEE 754 double.  Every finite double is a whole
multiple of `2 ^ -1074`, so its size is a natural number (`magnitude`) and every question asked
about it here (is it a probability, does it exceed `k / 2 ^ 53`, which double is nearest to a
ratio) is settled by integer arithmetic, without rounding on the way.
-/

namespace KnapsackEvolution

/-- A double-precision number, given by its bits: sign, eleven exponent bits, 52 fraction bits. -/
structure Binary64 where
  /-- The sign in the top bit, then the exponent, then the fraction. -/
  bits : UInt64
deriving DecidableEq

namespace Binary64

/-! ## Fields -/

/-- The sign bit is set. -/
def isNegative (x : Binary64) : Bool := decide (Nat.pow 2 63 ≤ x.bits.toNat)

/-- The eleven bits of the exponent. -/
def exponentField (x : Binary64) : Nat := x.bits.toNat / Nat.pow 2 52 % Nat.pow 2 11

/-- The 52 bits below the exponent. -/
def fractionField (x : Binary64) : Nat := x.bits.toNat % Nat.pow 2 52

/-- The exponent that marks infinities and values that are not numbers. -/
def topExponent : Nat := 2047

/-- Neither an infinity nor a value that is not a number. -/
def isFinite (x : Binary64) : Bool := x.exponentField != topExponent

/-- Not a number: the top exponent with a fraction. -/
def isNaN (x : Binary64) : Bool := x.exponentField == topExponent && x.fractionField != 0

/-- How often the smallest positive double is doubled to give the last place of `x`. -/
def scale (x : Binary64) : Nat := x.exponentField - 1

/-- The significand as an integer: normal numbers have a leading one that is not stored. -/
def significand (x : Binary64) : Nat :=
  if x.exponentField = 0 then x.fractionField else Nat.pow 2 52 + x.fractionField

/-- The absolute value of a finite double, in units of `2 ^ -1074`.  An infinity gets a magnitude
above that of every finite double. -/
def magnitude (x : Binary64) : Nat := x.significand * Nat.pow 2 x.scale

/-- The number one in units of `2 ^ -1074`. -/
def oneMagnitude : Nat := Nat.pow 2 1074

/-- Positive or negative zero. -/
def isZero (x : Binary64) : Bool := x.magnitude == 0

/-! ## Comparisons -/

/-- Equality of numbers: both zeros are equal, and what is not a number equals nothing. -/
def sameNumber (x y : Binary64) : Bool :=
  !x.isNaN && !y.isNaN && (x == y || (x.isZero && y.isZero))

/-- The number lies in `[0, 1]`; negative zero does. -/
def isProbability (x : Binary64) : Bool :=
  !x.isNaN && (x.isZero || (!x.isNegative && decide (x.magnitude ≤ oneMagnitude)))

/-- The number is above `k / 2 ^ 53`. -/
def exceeds (x : Binary64) (k : Nat) : Bool :=
  !x.isNaN && !x.isNegative && decide (k * Nat.pow 2 1021 < x.magnitude)

/-! ## Rounding -/

/-- The integer nearest to `num / den`; a half goes to the even neighbour. -/
def divideToEven (num den : Nat) : Nat :=
  let whole := num / den
  let rest := num % den
  if 2 * rest < den then whole
  else if den < 2 * rest then whole + 1
  else whole + whole % 2

/-- The bits of positive infinity. -/
def infinityBits : Nat := topExponent * Nat.pow 2 52

/-- The double nearest to `num / den`, or to its negative: 53 significant bits are kept (fewer
near zero), a half goes to the even neighbour, and what is too large becomes an infinity.  A
significand that is rounded up to 54 bits carries into the exponent field by plain addition. -/
def ofRatio (negative : Bool) (num den : Nat) : Binary64 :=
  let scaled := num * oneMagnitude
  let shift := (scaled / den).log2 + 1 - 53
  let code := shift * Nat.pow 2 52 + divideToEven scaled (den * Nat.pow 2 shift)
  ⟨UInt64.ofNat ((if negative then Nat.pow 2 63 else 0) + min code infinityBits)⟩

/-- One half. -/
def half : Binary64 := ⟨0x3FE0000000000000⟩

/-- Zero. -/
def zero : Binary64 := ⟨0⟩

/-- One. -/
def one : Binary64 := ⟨0x3FF0000000000000⟩

/-- Positive infinity, or negative infinity. -/
def infinity (negative : Bool) : Binary64 :=
  ⟨UInt64.ofNat ((if negative then Nat.pow 2 63 else 0) + infinityBits)⟩

/-- The value that is not a number. -/
def nan : Binary64 := ⟨0x7FF8000000000000⟩

end Binary64

end KnapsackEvolution
