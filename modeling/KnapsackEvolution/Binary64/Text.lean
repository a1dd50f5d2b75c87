/-
# Doubles as text

Writing uses the fewest digits that read back, always positionally: no exponent and no point
without digits after it.  Reading accepts an optional sign, digits with an optional point and an
optional power of ten, or the names of the infinities and of the value that is not a number, and
rounds to the nearest double.
-/
import KnapsackEvolution.Binary64.Shortest

namespace KnapsackEvolution

namespace Decimal

/-- The digits followed or split by zeros and a point, without an exponent. -/
def positional (d : Decimal) : String :=
  let ds := Nat.toDigits 10 d.digits
  let point := (ds.length : Int) + d.exponent
  if 0 ≤ d.exponent then String.ofList (ds ++ List.replicate d.exponent.toNat '0')
  else if 0 < point then
    String.ofList (ds.take point.toNat ++ '.' :: ds.drop point.toNat)
  else String.ofList ('0' :: '.' :: (List.replicate (-point).toNat '0' ++ ds))

end Decimal

namespace Binary64

/-- The number with the fewest digits that read back, never with an exponent. -/
def text (x : Binary64) : String :=
  if x.isNaN then "NaN"
  else
    let size :=
      if !x.isFinite then "inf"
      else if x.isZero then "0"
      else (x.shortest .up).positional
    if x.isNegative then "-" ++ size else size

/-- A number without a fraction has no point. -/
example : one.text = "1" := by decide +kernel

/-- The sign of zero is kept. -/
example : (ofRatio true 0 1).text = "-0" := by decide +kernel

/-- Small numbers have no exponent. -/
example : (ofRatio false 1 10000000).text = "0.0000001" := by decide +kernel

/-- Of two nearest decimals with the fewest digits the larger one is written. -/
example : (ofRatio false 4503599627370497 4).text = "1125899906842624.3" := by decide +kernel

/-! ## Reading -/

/-- The value of a run of digits. -/
def digitsValue (ds : List Char) : Nat :=
  ds.foldl (fun n c => n * 10 + (c.toNat - '0'.toNat)) 0

/-- The double nearest to `digits * 10 ^ exponent`.  A number far outside the range is settled by
its count of digits alone, so that no huge power is built. -/
def ofDecimal (negative : Bool) (d : Decimal) : Binary64 :=
  let top := ((Nat.toDigits 10 d.digits).length : Int) + d.exponent
  if d.digits = 0 ∨ top < -330 then ofRatio negative 0 1
  else if 310 < top then infinity negative
  else ofRatio negative (d.digits * Nat.pow 10 d.exponent.toNat)
    (Nat.pow 10 (-d.exponent).toNat)

/-- The power of ten after the mark `e`: an optional sign and at least one digit. -/
def exponentOfText? : List Char → Option Int
  | [] => some 0
  | e :: rest =>
    if e ≠ 'e' ∧ e ≠ 'E' then none
    else
      let (negative, ds) := match rest with
        | '-' :: ds => (true, ds)
        | '+' :: ds => (false, ds)
        | ds => (false, ds)
      if ds.isEmpty || !ds.all Char.isDigit then none
      else some (if negative then -(digitsValue ds : Int) else digitsValue ds)

/-- Digits with an optional point, at least one of them, and an optional power of ten. -/
def decimalOfText? (cs : List Char) : Option Decimal :=
  let whole := cs.takeWhile Char.isDigit
  let (fraction, rest) := match cs.dropWhile Char.isDigit with
    | '.' :: more => (more.takeWhile Char.isDigit, more.dropWhile Char.isDigit)
    | more => ([], more)
  if whole.isEmpty && fraction.isEmpty then none
  else (exponentOfText? rest).map fun e => ⟨digitsValue (whole ++ fraction), e - fraction.length⟩

/-- The double nearest to the number that the text spells, if it spells one. -/
def ofText? (s : String) : Option Binary64 :=
  let (negative, cs) := match s.toList with
    | '-' :: cs => (true, cs)
    | '+' :: cs => (false, cs)
    | cs => (false, cs)
  let word := String.ofList (cs.map Char.toLower)
  if word = "inf" ∨ word = "infinity" then some (infinity negative)
  else if word = "nan" then
    some (if negative then ⟨nan.bits ^^^ 0x8000000000000000⟩ else nan)
  else (decimalOfText? cs).map (ofDecimal negative)

/-- Reading rounds to the nearest double. -/
example : (ofText? "0.1").map Binary64.text = some "0.1" := by decide +kernel

/-- Half of the least positive double is read as zero. -/
example : ofText? "2.4703282292062327e-324" = some zero := by decide +kernel

/-- What is too large is an infinity. -/
example : ofText? "1.7976931348623159e308" = some (infinity false) := by decide +kernel

end Binary64

end KnapsackEvolution
