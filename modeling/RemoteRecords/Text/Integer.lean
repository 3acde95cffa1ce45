import RemoteRecords.Bounds
import RemoteRecords.Text.Decimal

namespace RemoteRecords.Text

/-- Why a text is no integer of a range. -/
inductive IntegerFault where
  | empty
  | invalidDigit
  | tooLarge
  | tooSmall
  deriving DecidableEq, Repr

def IntegerFault.message : IntegerFault → String
  | .empty => "cannot parse integer from empty string"
  | .invalidDigit => "invalid digit found in string"
  | .tooLarge => "number too large to fit in target type"
  | .tooSmall => "number too small to fit in target type"

/-- The number that digits spell after those of `high`, as long as it does not exceed `limit`;
`excess` is the fault when it does. What goes wrong first counts. -/
def boundedDigits (limit : Nat) (excess : IntegerFault) (high : Nat) :
    List Char → Except IntegerFault Nat
  | [] => .ok high
  | c :: rest =>
      match digitValue? c with
      | none => .error .invalidDigit
      | some digit =>
          let next := 10 * high + digit
          if limit < next then .error excess else boundedDigits limit excess next rest

/-- The magnitude that one or more digits spell. -/
def magnitude (limit : Nat) (excess : IntegerFault) (digits : List Char) :
    Except IntegerFault Nat :=
  if digits.isEmpty then .error .invalidDigit else boundedDigits limit excess 0 digits

/-- The integer that an optional sign and digits spell, from `-2 ^ 63` to `2 ^ 63 - 1`. -/
def toInt64 (chars : List Char) : Except IntegerFault Int :=
  match chars with
  | [] => .error .empty
  | '-' :: digits =>
      (magnitude Bounds.least64.natAbs .tooSmall digits).map fun number => -(number : Int)
  | '+' :: digits => (magnitude Bounds.greatest64.natAbs .tooLarge digits).map Int.ofNat
  | digits => (magnitude Bounds.greatest64.natAbs .tooLarge digits).map Int.ofNat

/-- The natural number that an optional plus sign and digits spell, up to `limit`. -/
def toBoundedNat (limit : Nat) (chars : List Char) : Except IntegerFault Nat :=
  match chars with
  | [] => .error .empty
  | '+' :: digits => magnitude limit .tooLarge digits
  | digits => magnitude limit .tooLarge digits

end RemoteRecords.Text
