import RemoteRecords.Binary64.Basic
import RemoteRecords.Text.Decimal

namespace RemoteRecords.Binary64

/-- The number nearest to `significand * 10 ^ exponent`. -/
def ofDecimal (negative : Bool) (significand : Nat) (exponent : Int) : Binary64 :=
  let leading : Int := (Text.digits significand).length + exponent
  if significand = 0 then zero negative
  else if 310 < leading then infinite negative
  else if leading < -330 then zero negative
  else ofRatio negative (decimalRatio significand exponent)

/-- The exponent that a decimal ends with; zero when it has none. -/
def exponentOf? : List Char → Option Int
  | [] => some 0
  | mark :: rest =>
      if mark = 'e' ∨ mark = 'E' then
        match rest with
        | '-' :: digits => (Text.ofDigits? digits).map fun number => -(number : Int)
        | '+' :: digits => (Text.ofDigits? digits).map Int.ofNat
        | digits => (Text.ofDigits? digits).map Int.ofNat
      else none

/-- The number nearest to a decimal without a sign: digits, of which some may stand behind a point,
and perhaps an exponent. -/
def ofUnsigned? (negative : Bool) (chars : List Char) : Option Binary64 :=
  let (whole, rest) := chars.span Char.isDigit
  let (fraction, rest) :=
    match rest with
    | '.' :: rest => rest.span Char.isDigit
    | rest => ([], rest)
  match Text.ofDigits? (whole ++ fraction), exponentOf? rest with
  | some significand, some exponent =>
      some (ofDecimal negative significand (exponent - fraction.length))
  | _, _ => none

/-- The number nearest to a decimal, which may have a sign. -/
def ofChars? : List Char → Option Binary64
  | '-' :: rest => ofUnsigned? true rest
  | '+' :: rest => ofUnsigned? false rest
  | chars => ofUnsigned? false chars

end RemoteRecords.Binary64
