import RemoteRecords.Binary64.Basic
import RemoteRecords.Text.Decimal

namespace RemoteRecords.Binary64

/-! ## The shortest decimal that reads back -/

/-- The decimal `significand * 10 ^ exponent`. -/
structure Decimal where
  significand : Nat
  exponent : Int
  deriving DecidableEq, Repr

/-- A positive number with the interval of reals that round to it, all in units of
`2 ^ (exponent - 2)`. The ends belong to the interval when the mantissa is even. -/
structure Neighbourhood where
  value : Nat
  low : Nat
  high : Nat
  closed : Bool
  unit : Int

def neighbourhood (mantissa : Nat) (exponent : Int) : Neighbourhood where
  value := 4 * mantissa
  low := if mantissa = leastNormal ∧ -1074 < exponent then 4 * mantissa - 1 else 4 * mantissa - 2
  high := 4 * mantissa + 2
  closed := mantissa % 2 = 0
  unit := exponent - 2

/-- Whether `left * 2 ^ unit ≤ point * 10 ^ scale`. -/
def reaches (unit : Int) (left : Nat) (point : Nat) (scale : Int) : Bool :=
  let l := Ratio.scaled left unit
  let r := decimalRatio point scale
  l.num * r.den ≤ r.num * l.den

/-- Whether `point * 10 ^ scale ≤ right * 2 ^ unit`. -/
def within (unit : Int) (right : Nat) (point : Nat) (scale : Int) : Bool :=
  let l := decimalRatio point scale
  let r := Ratio.scaled right unit
  l.num * r.den ≤ r.num * l.den

/-- Whether `point * 10 ^ scale` rounds to the number. -/
def Neighbourhood.holds (area : Neighbourhood) (point : Nat) (scale : Int) : Bool :=
  if area.closed then
    reaches area.unit area.low point scale && within area.unit area.high point scale
  else
    !within area.unit area.low point scale && !reaches area.unit area.high point scale

/-- The nearer of the two grid points around the number that rounds to it, on the grid of
multiples of `10 ^ scale`; of two equally near ones the even one. -/
def Neighbourhood.onGrid? (area : Neighbourhood) (scale : Int) : Option Nat :=
  let quotient := (Ratio.scaled area.value area.unit).div (decimalRatio 1 scale)
  let below := quotient.num / quotient.den
  let above := below + 1
  match area.holds below scale, area.holds above scale with
  | true, true => some quotient.roundEven
  | true, false => some below
  | false, true => some above
  | false, false => none

/-- The exponent of the first digit: `10 ^ k ≤ value < 10 ^ (k + 1)`. -/
def leadingExponent (ratio : Ratio) : Int :=
  if ratio.den ≤ ratio.num then
    ((Text.digits (ratio.num / ratio.den)).length : Int) - 1
  else
    let inverse := (ratio.den + ratio.num - 1) / ratio.num
    Int.negOfNat (Text.digits (inverse - 1)).length

/-- The first grid of `digits`, `digits + 1`, … digits with a point that rounds to the number. -/
def Neighbourhood.search (area : Neighbourhood) (leading : Int) : Nat → Nat → Decimal
  | _, 0 => ⟨area.value, area.unit⟩
  | digits, fuel + 1 =>
      let scale := leading + 1 - digits
      match area.onGrid? scale with
      | some point => ⟨point, scale⟩
      | none => area.search leading (digits + 1) fuel

/-- The same decimal without trailing zeros of the significand. -/
def Decimal.reduced (decimal : Decimal) : Decimal :=
  if decimal.significand = 0 then ⟨0, 0⟩
  else if decimal.significand % 10 = 0 then
    Decimal.reduced ⟨decimal.significand / 10, decimal.exponent + 1⟩
  else decimal
termination_by decimal.significand
decreasing_by omega

/-- The decimal with the fewest digits that rounds to the positive number `mantissa * 2 ^ exponent`,
and of those the nearest one. Seventeen digits always suffice. -/
def shortest (mantissa : Nat) (exponent : Int) : Decimal :=
  let area := neighbourhood mantissa exponent
  let leading := leadingExponent (.scaled mantissa exponent)
  (area.search leading 1 17).reduced

/-! ## Positional text -/

/-- The digits of `significand * 10 ^ exponent` with a point at its place; `whole` follows a number
that has no fraction. -/
def Decimal.positional (decimal : Decimal) (whole : String) : List Char :=
  let digits := Text.digits decimal.significand
  let point : Int := digits.length + decimal.exponent
  if 0 ≤ decimal.exponent then
    digits ++ List.replicate decimal.exponent.natAbs '0' ++ whole.toList
  else if 0 < point then
    digits.take point.natAbs ++ '.' :: digits.drop point.natAbs
  else
    '0' :: '.' :: List.replicate point.natAbs '0' ++ digits

/-- The text with all digits written out and no fraction for a whole number. -/
def plainText : Binary64 → String
  | nan => "NaN"
  | infinite negative => if negative then "-inf" else "inf"
  | finite negative mantissa exponent =>
      let body :=
        if mantissa = 0 then ['0'] else (shortest mantissa exponent).positional ""
      String.ofList (if negative then '-' :: body else body)

end RemoteRecords.Binary64
