import RemoteRecords.Binary64.Shortest
import RemoteRecords.Text.Integer
import RemoteRecords.Text.Quoted

namespace RemoteRecords.Settings

/-- The value of a setting as its source gives it. No setting takes a collection, so what is in one
is not kept. -/
inductive Value where
  | null
  | bool (value : Bool)
  | int (value : Int)
  | float (value : Binary64)
  | string (text : String)
  | sequence
  | map
  deriving DecidableEq

/-- What a message calls the value. -/
def Value.description : Value → String
  | .null => "unit value"
  | .bool value => "boolean \x60" ++ (if value then "true" else "false") ++ "\x60"
  | .int value => "64-bit integer \x60" ++ Text.ofInt value ++ "\x60"
  | .float value => "floating point \x60" ++ value.plainText ++ "\x60"
  | .string text => "string " ++ Text.shown text
  | .sequence => "sequence"
  | .map => "map"

/-- Why a value does not fit its setting. -/
inductive Mismatch where
  | notString (found : Value)
  | notInteger (found : Value)
  | negative (found : Int)
  /-- An integer of more than 32 bits. -/
  | tooLarge (found : Nat)
  deriving DecidableEq

def Mismatch.message : Mismatch → String
  | .notString found => "invalid type: " ++ found.description ++ ", expected a string"
  | .notInteger found => "invalid type: " ++ found.description ++ ", expected an integer"
  | .negative found =>
      "invalid type: " ++ (Value.int found).description ++
        ", expected an unsigned 64 bit or less integer"
  | .tooLarge found =>
      "invalid type: 64-bit unsigned integer \x60" ++ Text.ofNat found ++
        "\x60, expected an unsigned 32 bit integer"

/-- Whether a message tells where the value comes from. -/
def Mismatch.showsOrigin : Mismatch → Bool
  | .tooLarge _ => false
  | _ => true

/-! ## Texts -/

/-- The value of a setting that is a text. -/
def Value.toText : Value → Except Mismatch String
  | .string text => .ok text
  | .int value => .ok (Text.ofInt value)
  | .float value => .ok value.plainText
  | .bool value => .ok (if value then "true" else "false")
  | found => .error (.notString found)

/-! ## Numbers -/

/-- The nearest natural number of at most 64 bits; a half goes up. -/
def nearestNat : Binary64 → Nat
  | .nan => 0
  | .infinite negative => if negative then 0 else Bounds.greatestNat64
  | .finite negative mantissa exponent =>
      if negative then 0 else min (Ratio.scaled mantissa exponent).roundHalfUp Bounds.greatestNat64

/-- The truth value that a word stands for, in any case. -/
def switch? (text : String) : Option Bool :=
  let word := text.map Char.toLower
  if ["true", "on", "yes"].contains word then some true
  else if ["false", "off", "no"].contains word then some false
  else none

/-- The natural number that a value stands for. -/
def Value.toWide : Value → Except Mismatch Nat
  | .int value => if value < 0 then .error (.negative value) else .ok value.toNat
  | .float value => .ok (nearestNat value)
  | .bool value => .ok value.toNat
  | .string text =>
      match switch? text with
      | some value => .ok value.toNat
      | none =>
          match Text.toBoundedNat Bounds.greatestNat64 text.toList with
          | .ok number => .ok number
          | .error _ => .error (.notInteger (.string text))
  | found => .error (.notInteger found)

/-- The value of a setting that is a number of 32 bits. -/
def Value.toNumber (value : Value) : Except Mismatch Nat :=
  match value.toWide with
  | .ok number => if Bounds.greatestNat32 < number then .error (.tooLarge number) else .ok number
  | .error mismatch => .error mismatch

end RemoteRecords.Settings
