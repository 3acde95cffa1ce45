import RemoteRecords.Json.Basic
import RemoteRecords.Binary64.Shortest

namespace RemoteRecords.Json

/-! ## Writing floating-point numbers -/

/-- The sign and digits of a decimal exponent; the sign is always written. -/
def exponentChars (exponent : Int) : List Char :=
  (if exponent < 0 then '-' else '+') :: Text.digits exponent.natAbs

/-- The text of a positive finite number: all digits from `1e-5` up to `1e16`, with a fraction in
any case, and one digit before the point and an exponent elsewhere. -/
def decimalChars (decimal : Binary64.Decimal) : List Char :=
  let digits := Text.digits decimal.significand
  let point : Int := digits.length + decimal.exponent
  if -5 < point ∧ point ≤ 16 then
    decimal.positional ".0"
  else
    let mantissa :=
      match digits with
      | first :: second :: more => first :: '.' :: second :: more
      | short => short
    mantissa ++ 'e' :: exponentChars (point - 1)

/-- The text of a floating-point number; there is none in JSON for one that is not finite. -/
def floatChars : Binary64 → List Char
  | .finite negative mantissa exponent =>
      let body :=
        if mantissa = 0 then "0.0".toList
        else decimalChars (Binary64.shortest mantissa exponent)
      if negative then '-' :: body else body
  | _ => "null".toList

/-! ## Reading number literals -/

/-- A number as written: the digits before the point, those after it, and the exponent. -/
structure Literal where
  negative : Bool
  whole : List Char
  fraction : Option (List Char)
  exponent : Option Int
  deriving DecidableEq, Repr

/-- The largest significand that is kept exactly. -/
def maxSignificand : Nat := Bounds.greatestNat64

/-- The largest exponent that is kept exactly. -/
def maxExponent : Nat := 2147483647

/-- A decimal read so far: `significand * 10 ^ exponent`, and whether a digit had to be dropped. -/
structure Accumulated where
  significand : Nat
  exponent : Int
  full : Bool

/-- One more digit before the point. Digits that the significand has no room for count as zeros. -/
def Accumulated.pushWhole (acc : Accumulated) (digit : Char) : Accumulated :=
  let next := 10 * acc.significand + (digit.toNat - 48)
  if acc.full || maxSignificand < next then
    { acc with exponent := acc.exponent + 1, full := true }
  else { acc with significand := next }

/-- One more digit after the point. Digits that the significand has no room for, and all after
them, are dropped. -/
def Accumulated.pushFraction (acc : Accumulated) (digit : Char) : Accumulated :=
  let next := 10 * acc.significand + (digit.toNat - 48)
  if acc.full || maxSignificand < next then { acc with full := true }
  else { acc with significand := next, exponent := acc.exponent - 1 }

/-- `value * 10 ^ exponent` in steps of at most 308 decimal places, each step rounded; `none` when
a step overflows. -/
def scaleByTen (value : Binary64) (exponent : Int) : Option Binary64 :=
  if exponent.natAbs ≤ 308 then
    let power := Binary64.powerOfTen exponent.natAbs
    if 0 ≤ exponent then
      match value.mul power with
      | .infinite _ => none
      | product => some product
    else some (value.div power)
  else if value.isZero then some value
  else if 0 ≤ exponent then none
  else scaleByTen (value.div (Binary64.powerOfTen 308)) (exponent + 308)
termination_by exponent.natAbs
decreasing_by omega

/-- The floating-point number of a literal; `none` when it is too large. -/
def Literal.toFloat? (literal : Literal) : Option Binary64 :=
  let start : Accumulated := ⟨0, 0, false⟩
  let whole := literal.whole.foldl Accumulated.pushWhole start
  let all := (literal.fraction.getD []).foldl Accumulated.pushFraction
    { whole with full := maxSignificand < 10 * whole.significand }
  let all := if literal.fraction.isSome then all else whole
  let exponent := literal.exponent.getD 0
  if maxExponent < exponent.natAbs then
    if all.significand ≠ 0 ∧ 0 < exponent then none
    else some (.zero literal.negative)
  else
    (scaleByTen (.ofNat all.significand) (all.exponent + exponent)).map
      (.withSign literal.negative)

/-- The number of a literal: an integer when it has no fraction and no exponent, is not a negative
zero, and fits 64 bits. -/
def Literal.value? (literal : Literal) : Option Json :=
  match literal.fraction, literal.exponent, Text.ofDigits? literal.whole with
  | none, none, some number =>
      if !literal.negative && number ≤ Bounds.greatestNat64 then some (.int number)
      else if literal.negative && 0 < number && Bounds.fits64 (-number) then some (.int (-number))
      else literal.toFloat?.map .float
  | _, _, _ => literal.toFloat?.map .float

end RemoteRecords.Json
