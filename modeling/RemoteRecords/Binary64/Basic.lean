namespace RemoteRecords

/-- A number of the 64-bit binary format. A finite one is `mantissa * 2 ^ exponent`; it is in
canonical form when `2 ^ 52 ≤ mantissa < 2 ^ 53` or `exponent = -1074` with a smaller mantissa. -/
inductive Binary64 where
  | finite (negative : Bool) (mantissa : Nat) (exponent : Int)
  | infinite (negative : Bool)
  | nan
  deriving DecidableEq, Repr

/-- The powers of two and of ten. -/
def twoTo (exponent : Nat) : Nat := Nat.pow 2 exponent

def tenTo (exponent : Nat) : Nat := Nat.pow 10 exponent

/-- A ratio of naturals; the denominator of one that a function of this library returns is
positive. -/
structure Ratio where
  num : Nat
  den : Nat

namespace Ratio

/-- The ratio `number * 2 ^ exponent`. -/
def scaled (number : Nat) (exponent : Int) : Ratio :=
  if exponent < 0 then ⟨number, twoTo exponent.natAbs⟩
  else ⟨number * twoTo exponent.natAbs, 1⟩

/-- The ratio times `2 ^ exponent`. -/
def shift (ratio : Ratio) (exponent : Int) : Ratio :=
  if exponent < 0 then ⟨ratio.num, ratio.den * twoTo exponent.natAbs⟩
  else ⟨ratio.num * twoTo exponent.natAbs, ratio.den⟩

def mul (left right : Ratio) : Ratio := ⟨left.num * right.num, left.den * right.den⟩

def div (left right : Ratio) : Ratio := ⟨left.num * right.den, left.den * right.num⟩

/-- The nearest natural number; of two equally near ones the even one. -/
def roundEven (ratio : Ratio) : Nat :=
  let low := ratio.num / ratio.den
  let double := 2 * (ratio.num % ratio.den)
  if double < ratio.den then low
  else if double = ratio.den then (if low % 2 = 0 then low else low + 1)
  else low + 1

/-- The nearest natural number; a half goes up. -/
def roundHalfUp (ratio : Ratio) : Nat :=
  (2 * ratio.num + ratio.den) / (2 * ratio.den)

end Ratio

namespace Binary64

def isNegative : Binary64 → Bool
  | finite negative _ _ => negative
  | infinite negative => negative
  | nan => false

/-- The absolute value; zero for what is not finite. -/
def magnitude : Binary64 → Ratio
  | finite _ mantissa exponent => .scaled mantissa exponent
  | _ => ⟨0, 1⟩

def isZero : Binary64 → Bool
  | finite _ mantissa _ => mantissa == 0
  | _ => false

def zero (negative : Bool) : Binary64 := finite negative 0 (-1074)

/-- The least mantissa of 53 bits, which is `2 ^ 52`. -/
def leastNormal : Nat := 4503599627370496

/-- The exponent for which `ratio / 2 ^ exponent` rounds to a mantissa of 53 bits, or the least
exponent of the format when that is larger. -/
def exponentOf (ratio : Ratio) : Int :=
  let estimate : Int := (Nat.log2 ratio.num : Int) - (Nat.log2 ratio.den : Int) - 53
  let scaledDown := ratio.shift (-estimate)
  let fitted := if 2 * leastNormal * scaledDown.den ≤ scaledDown.num then estimate + 1 else estimate
  max fitted (-1074)

/-- The nearest number of the format; of two equally near ones the one with the even mantissa.
What lies beyond the largest number is infinite. -/
def ofRatio (negative : Bool) (ratio : Ratio) : Binary64 :=
  if ratio.num = 0 then zero negative
  else
    let exponent := exponentOf ratio
    let mantissa := (ratio.shift (-exponent)).roundEven
    let (mantissa, exponent) :=
      if mantissa = 2 * leastNormal then (leastNormal, exponent + 1) else (mantissa, exponent)
    if 971 < exponent then infinite negative else finite negative mantissa exponent

def ofNat (number : Nat) : Binary64 := ofRatio false ⟨number, 1⟩

def ofInt (number : Int) : Binary64 := ofRatio (number < 0) ⟨number.natAbs, 1⟩

/-- The product of two finite numbers, rounded. -/
def mul (left right : Binary64) : Binary64 :=
  ofRatio (left.isNegative != right.isNegative) (left.magnitude.mul right.magnitude)

/-- The quotient of two finite numbers, rounded; the divisor is not zero. -/
def div (left right : Binary64) : Binary64 :=
  ofRatio (left.isNegative != right.isNegative) (left.magnitude.div right.magnitude)

def withSign (negative : Bool) : Binary64 → Binary64
  | finite _ mantissa exponent => finite negative mantissa exponent
  | infinite _ => infinite negative
  | nan => nan

/-- The ratio `significand * 10 ^ exponent`. -/
def decimalRatio (significand : Nat) (exponent : Int) : Ratio :=
  if exponent < 0 then ⟨significand, tenTo exponent.natAbs⟩
  else ⟨significand * tenTo exponent.natAbs, 1⟩

/-- The power of ten nearest to `10 ^ exponent` in the format. -/
def powerOfTen (exponent : Nat) : Binary64 := ofNat (tenTo exponent)

end Binary64

end RemoteRecords
