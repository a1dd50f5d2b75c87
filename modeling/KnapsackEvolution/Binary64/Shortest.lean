/-
# The shortest decimal of a double

The doubles next to `x` leave an interval of reals around `x` that all round to `x`.  Among the
decimals in that interval the ones with the fewest digits are singled out, and of those the one
nearest to `x`.  Digits are looked for on decimal grids of growing fineness; on each grid only
the two neighbours of `x` can be the nearest hit.
-/
import KnapsackEvolution.Binary64.Basic

namespace KnapsackEvolution

/-- The decimal number `digits * 10 ^ exponent`. -/
structure Decimal where
  /-- The digits, read as one natural number. -/
  digits : Nat
  /-- The power of ten of the last digit. -/
  exponent : Int
deriving DecidableEq

namespace Decimal

/-- Drops trailing zeros, at most `fuel` of them. -/
def trim : Nat → Decimal → Decimal
  | 0, d => d
  | fuel + 1, d =>
    if d.digits ≠ 0 ∧ d.digits % 10 = 0 then trim fuel ⟨d.digits / 10, d.exponent + 1⟩ else d

end Decimal

namespace Binary64

/-- Which of two equally near decimals is chosen. -/
inductive Tie where
  /-- The larger one. -/
  | up
  /-- The one whose last digit is even. -/
  | even
deriving DecidableEq

/-- The reals that round to a finite double, in units of `2 ^ -1076`; the two ends belong to the
interval exactly when the significand is even. -/
structure Basin where
  /-- Halfway to the next smaller double. -/
  low : Nat
  /-- The double itself. -/
  centre : Nat
  /-- Halfway to the next larger double. -/
  high : Nat
  /-- The two ends round to the double as well. -/
  closed : Bool

/-- The interval of reals that round to `x`.  Below a power of two the doubles are twice as
dense, so the lower half is narrower there. -/
def basin (x : Binary64) : Basin :=
  let above := 2 * Nat.pow 2 x.scale
  let below := if x.fractionField = 0 ∧ 1 < x.exponentField then above / 2 else above
  ⟨4 * x.magnitude - below, 4 * x.magnitude, 4 * x.magnitude + above, x.significand % 2 == 0⟩

/-- The point of the grid `10 ^ k` in the interval that is nearest to its centre, if any. -/
def Basin.onGrid? (b : Basin) (tie : Tie) (k : Int) : Option Nat :=
  let up := Nat.pow 10 (-k).toNat
  let unit := Nat.pow 2 1076 * Nat.pow 10 k.toNat
  let hit (c : Nat) : Bool :=
    if b.closed then decide (b.low * up ≤ c * unit ∧ c * unit ≤ b.high * up)
    else decide (b.low * up < c * unit ∧ c * unit < b.high * up)
  let floor := b.centre * up / unit
  let rest := b.centre * up % unit
  match hit floor, hit (floor + 1) with
  | false, false => none
  | true, false => some floor
  | false, true => some (floor + 1)
  | true, true =>
    if 2 * rest < unit then some floor
    else if unit < 2 * rest then some (floor + 1)
    else match tie with
      | .up => some (floor + 1)
      | .even => some (floor + floor % 2)

/-- The power of ten just above a positive double: `10 ^ (e - 1) ≤ x < 10 ^ e`. -/
def decimalExponent (x : Binary64) : Int :=
  let shifted := x.magnitude * Nat.pow 10 330 / oneMagnitude
  ((Nat.toDigits 10 shifted).length : Int) - 330

/-- The shortest decimal that rounds to the absolute value of a finite double that is not zero;
seventeen digits always suffice. -/
def shortest (tie : Tie) (x : Binary64) : Decimal :=
  let top := x.decimalExponent
  let found := (List.range 17).findSome? fun n =>
    (x.basin.onGrid? tie (top - (n + 1 : Nat))).map fun c => (⟨c, top - (n + 1 : Nat)⟩ : Decimal)
  (found.getD ⟨x.magnitude, 0⟩).trim 18

end Binary64

end KnapsackEvolution
