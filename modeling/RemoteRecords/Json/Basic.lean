import RemoteRecords.Binary64.Basic
import RemoteRecords.Bounds
import RemoteRecords.Fields

namespace RemoteRecords

/-- A JSON value. A number is an integer when it is written as one and fits 64 bits, and a binary
floating-point number otherwise; the members of an object stand in the order of their names. -/
inductive Json where
  | null
  | bool (value : Bool)
  | int (value : Int)
  | float (value : Binary64)
  | string (value : String)
  | array (items : List Json)
  | object (members : List (String × Json))

/-- One record of a model: the values of its fields by name. -/
abbrev Record := Fields Json

namespace Json

/-- The text of a string value. -/
def asString? : Json → Option String
  | string value => some value
  | _ => none

/-- The integer of a number between `-2 ^ 63` and `2 ^ 63 - 1` that is no floating-point number. -/
def asInt64? : Json → Option Int
  | int value => if Bounds.fits64 value then some value else none
  | _ => none

theorem asInt64?_eq_some_iff {value : Json} {number : Int} :
    value.asInt64? = some number ↔ value = .int number ∧ Bounds.fits64 number = true := by
  cases value with
  | int other =>
      by_cases fits : Bounds.fits64 other = true
      · simp only [asInt64?, if_pos fits, Option.some.injEq, int.injEq]
        exact ⟨fun same => ⟨same, same ▸ fits⟩, And.left⟩
      · simp only [asInt64?, if_neg fits, int.injEq]
        exact ⟨fun absent => (by cases absent), fun ⟨same, later⟩ => absurd (same ▸ later) fits⟩
  | _ => simp [asInt64?]

def asBool? : Json → Option Bool
  | bool value => some value
  | _ => none

def asArray? : Json → Option (List Json)
  | array items => some items
  | _ => none

def asObject? : Json → Option Record
  | object members => some members
  | _ => none

/-- The object with the given members. -/
def ofMembers (pairs : List (String × Json)) : Json :=
  object (Fields.ofPairs pairs)

def ofStrings (texts : List String) : Json :=
  array (texts.map string)

def ofNat (number : Nat) : Json := int number

end Json

end RemoteRecords
