import RemoteRecords.Json.Printer
import RemoteRecords.Session.Error

namespace RemoteRecords.Session

/-! ## Reported errors -/

/-- An error as the server reports it. -/
structure Report where
  message : Option String
  detail : Option String
  deriving DecidableEq, Repr

/-- The report that says nothing. -/
def Report.blank : Report := ⟨none, none⟩

def Report.text (report : Report) : String :=
  report.message.getD "" ++
    match report.detail with
    | some detail => ": " ++ detail
    | none => ""

/-- A text that may be null; `none` for any other value. -/
def optionalText? : Json → Option (Option String)
  | .null => some none
  | .string text => some (some text)
  | _ => none

/-- The value of the member `name`, null when it is missing. -/
def memberOrNull (name : String) (members : Record) : Json :=
  (members.find? name).getD .null

/-- The message inside the data of a report: a member of an object, or the only item of a list. -/
def detail? : Json → Option (Option String)
  | .null => some none
  | .object members => optionalText? (memberOrNull "message" members)
  | .array [] => some none
  | .array [message] => optionalText? message
  | _ => none

/-- The report in an object, or in a list that has the message and the data in this order; `none`
for any other value. -/
def report? : Json → Option Report
  | .object members => do
      let message ← optionalText? (memberOrNull "message" members)
      let detail ← detail? (memberOrNull "data" members)
      return ⟨message, detail⟩
  | .array items =>
      match items with
      | [] => some .blank
      | [message] => do
          let message ← optionalText? message
          return ⟨message, none⟩
      | [message, data] => do
          let message ← optionalText? message
          let detail ← detail? data
          return ⟨message, detail⟩
      | _ => none
  | _ => none

/-! ## Response bodies -/

/-- The result in a response body. An error in it comes first, whatever its value. -/
def resultOf (body : Json) : Except Error Json :=
  match body with
  | .object members =>
      match Fields.find? "error" members with
      | some error => .error (.remote ((report? error).getD .blank).text)
      | none =>
          match Fields.find? "result" members with
          | some result => .ok result
          | none => .error (.unexpectedResponse "missing 'result' member")
  | other => .error (.unexpectedResponse other.compact)

end RemoteRecords.Session
