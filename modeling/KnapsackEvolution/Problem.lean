/-
# Knapsack problems

A problem is a table of item values, a table of item weights and a capacity, all in 64-bit words.
The score of a selection is its total value if it fits, and otherwise minus the weight above the
capacity.  Totals are summed in 64 bits item by item, and a sum that does not fit is a fault.
-/
import KnapsackEvolution.Random.Generator

namespace KnapsackEvolution

/-- How good a selection is; the larger the better. -/
abbrev Fitness := Int64

/-- Items to choose from and the weight that can be carried. -/
structure Problem where
  /-- What each item is worth. -/
  values : Array UInt64
  /-- What each item weighs. -/
  weights : Array UInt64
  /-- The total weight that fits. -/
  capacity : UInt64
deriving DecidableEq

namespace Problem

/-! ## Problems -/

/-- The item count of a standard problem. -/
def standardSize : Nat := 1000

/-- The capacity of a standard problem. -/
def standardCapacity : UInt64 := 300

/-- The seed of the default problem. -/
def standardSeed : UInt64 := 1

/-- Drawn values and weights lie below this. -/
def itemRange : Nat := 100

/-- A problem with the given tables, which must have items and agree in length. -/
def ofTables (values weights : Array UInt64) (capacity : UInt64) : Except Error Problem :=
  if values.size = 0 then .error (.configuration .noItems)
  else if values.size ≠ weights.size then
    .error (.configuration (.tableLengths values.size weights.size))
  else .ok ⟨values, weights, capacity⟩

/-- The next number below `itemRange`. -/
def drawAmount : Sample UInt64 := do
  let i ← Generator.below itemRange (by decide)
  return i.val.toUInt64

/-- The next `n` items, each one its value and then its weight. -/
def drawItems : Nat → Sample (List (UInt64 × UInt64))
  | 0 => pure []
  | n + 1 => do
    let value ← drawAmount
    let weight ← drawAmount
    let rest ← drawItems n
    return (value, weight) :: rest

/-- A problem of `size` drawn items; the seed fixes it. -/
def ofSeed (seed : UInt64) (size : Nat) (capacity : UInt64) : Problem :=
  let items := (drawItems size (.ofSeed seed)).1
  ⟨(items.map (·.1)).toArray, (items.map (·.2)).toArray, capacity⟩

/-- The standard problem of a seed. -/
def standard (seed : UInt64) : Problem := ofSeed seed standardSize standardCapacity

/-- The default problem. -/
def default : Problem := standard standardSeed

/-- How many items there are. -/
def size (p : Problem) : Nat := p.values.size

/-- The entry of a table; there is none past its end. -/
def entry (table : Array UInt64) (item : Nat) : Except Fault UInt64 :=
  if h : item < table.size then .ok table[item]
  else .error (.indexOutOfBounds table.size item)

/-- What an item is worth. -/
def value (p : Problem) (item : Nat) : Except Fault UInt64 := entry p.values item

/-- What an item weighs. -/
def weight (p : Problem) (item : Nat) : Except Fault UInt64 := entry p.weights item

/-! ## Scores -/

/-- The sum of two words, if it is a word. -/
def addWords (a b : UInt64) : Except Fault UInt64 :=
  if a.toNat + b.toNat < UInt64.size then .ok (a + b) else .error .addOverflow

/-- The negation of an integer, if it is a 64-bit integer. -/
def negate (n : Int64) : Except Fault Int64 :=
  if n = Int64.minValue then .error .negOverflow else .ok (-n)

/-- What a selection is worth and what it weighs. -/
structure Totals where
  value : UInt64
  weight : UInt64
deriving DecidableEq

/-- Adds the selected items from `item` on to the sums so far, for each item first its value and
then its weight. -/
def totalsFrom (p : Problem) (item : Nat) (sums : Totals) : List Bool → Except Fault Totals
  | [] => .ok sums
  | false :: genes => p.totalsFrom (item + 1) sums genes
  | true :: genes => do
    let value ← p.value item
    let value ← addWords sums.value value
    let weight ← p.weight item
    let weight ← addWords sums.weight weight
    p.totalsFrom (item + 1) ⟨value, weight⟩ genes

/-- Total value and total weight of the selected items. -/
def totals (p : Problem) (genes : List Bool) : Except Fault Totals := p.totalsFrom 0 ⟨0, 0⟩ genes

/-- The selection can be carried. -/
def fits (p : Problem) (genes : List Bool) : Except Fault Bool := do
  let sums ← p.totals genes
  return decide (sums.weight ≤ p.capacity)

/-- The score of totals: minus the excess weight if there is any, and the value otherwise, both
read as signed words. -/
def scoreOf (p : Problem) (sums : Totals) : Except Fault Fitness :=
  if p.capacity < sums.weight then negate (sums.weight - p.capacity).toInt64
  else .ok sums.value.toInt64

/-- The score of a selection. -/
def score (p : Problem) (genes : List Bool) : Except Fault Fitness := do
  let sums ← p.totals genes
  p.scoreOf sums

end Problem

end KnapsackEvolution
