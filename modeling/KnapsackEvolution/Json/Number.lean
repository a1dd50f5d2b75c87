/-
# JSON numbers as words and doubles

A whole number in range is an integer; a number with a point or an exponent never is, nor is minus
zero.  A double is read as the nearest one, and a number that is too large for any double is
refused.  A double is written with the fewest digits that read back, positionally up to sixteen
digits before the point and four zeros after it, and otherwise with the exponent and its sign.
-/
import KnapsackEvolution.Binary64.Text
import KnapsackEvolution.Json.Basic

namespace KnapsackEvolution

namespace Json

namespace Number

/-! ## Integers -/

/-- The number has neither a point nor an exponent. -/
def isWhole (n : Number) : Bool := n.fraction.isEmpty && n.exponent?.isNone

/-- The number of a word. -/
def ofUInt64 (w : UInt64) : Number := ⟨false, digitsOf w.toNat, [], none⟩

/-- The number of a signed word. -/
def ofInt64 (n : Int64) : Number := ⟨decide (n < 0), digitsOf n.toInt.natAbs, [], none⟩

/-- The word that a number is. -/
def toUInt64? (n : Number) : Option UInt64 :=
  let size := digitsValue n.whole
  if n.isWhole ∧ !n.negative ∧ size < UInt64.size then some (UInt64.ofNat size) else none

/-- The signed word that a number is. -/
def toInt64? (n : Number) : Option Int64 :=
  let size := digitsValue n.whole
  if !n.isWhole then none
  else if n.negative then
    if 0 < size ∧ size ≤ Nat.pow 2 63 then some (Int64.ofInt (-size)) else none
  else if size < Nat.pow 2 63 then some (Int64.ofInt size) else none

/-! ## Doubles -/

/-- The decimal that is written, without its sign. -/
def decimal (n : Number) : Decimal :=
  ⟨digitsValue (n.whole ++ n.fraction), n.exponent?.getD 0 - n.fraction.length⟩

/-- The double nearest to a number; none if it is too large. -/
def toBinary64? (n : Number) : Option Binary64 :=
  let x := Binary64.ofDecimal n.negative n.decimal
  if x.isFinite then some x else none

/-- The fewest digits that read back, of two equally near ones the even one. -/
def ofBinary64 (x : Binary64) : Number :=
  if x.isZero then ⟨x.isNegative, [Digit.zero], [Digit.zero], none⟩
  else
    let d := x.shortest .even
    let ds := digitsOf d.digits
    let point := (ds.length : Int) + d.exponent
    if 0 ≤ d.exponent ∧ point ≤ 16 then
      ⟨x.isNegative, ds ++ List.replicate d.exponent.toNat Digit.zero, [Digit.zero], none⟩
    else if 0 < point ∧ point ≤ 16 then
      ⟨x.isNegative, ds.take point.toNat, ds.drop point.toNat, none⟩
    else if -5 < point ∧ point ≤ 0 then
      ⟨x.isNegative, [Digit.zero], List.replicate (-point).toNat Digit.zero ++ ds, none⟩
    else ⟨x.isNegative, ds.take 1, ds.drop 1, some (point - 1)⟩

/-- A whole double has a zero after the point. -/
example : (ofBinary64 .one).chars = ['1', '.', '0'] := by decide +kernel

/-- From ten to the sixteenth on the exponent is written, with its sign. -/
example : (ofBinary64 (.ofRatio false (10 ^ 22) 1)).chars = ['1', 'e', '+', '2', '2'] := by
  decide +kernel

/-- Five zeros after the point are not written. -/
example : (ofBinary64 (.ofRatio true 15 (10 ^ 7))).chars = ['-', '1', '.', '5', 'e', '-', '6'] := by
  decide +kernel

/-- Half a last place goes to the even double. -/
example : toBinary64? ⟨false, digitsOf 9007199254740993, [0], none⟩
    = some (.ofRatio false 9007199254740992 1) := by decide +kernel

end Number

/-- A double as a JSON value; there is no number for what is not finite. -/
def ofBinary64 (x : Binary64) : Json :=
  if x.isFinite then number (.ofBinary64 x) else null

/-- A word as a JSON value. -/
def ofUInt64 (w : UInt64) : Json := number (.ofUInt64 w)

/-- A signed word as a JSON value. -/
def ofInt64 (n : Int64) : Json := number (.ofInt64 n)

/-! ## Reading values -/

/-- The word that a value is. -/
def toUInt64? : Json → Option UInt64
  | number n => n.toUInt64?
  | _ => none

/-- The signed word that a value is. -/
def toInt64? : Json → Option Int64
  | number n => n.toInt64?
  | _ => none

/-- The double that a value is. -/
def toBinary64? : Json → Option Binary64
  | number n => n.toBinary64?
  | _ => none

end Json

end KnapsackEvolution
