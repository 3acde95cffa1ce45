import RemoteRecords.Json.Printer
import RemoteRecords.Text.Utf8

namespace RemoteRecords.Session

/-- A call of a method of one of the server's services, posted to `url`. -/
structure Request where
  url : String
  service : String
  method : String
  args : List Json

/-- What identifies the called method and gives its arguments. -/
def Request.params (request : Request) : Json :=
  .ofMembers [
    ("service", .string request.service),
    ("method", .string request.method),
    ("args", .array request.args)]

/-- The call without a number. -/
def Request.call (request : Request) : Fields Json :=
  .ofPairs [
    ("jsonrpc", .string "2.0"),
    ("method", .string "call"),
    ("params", request.params)]

/-- Numbers of calls are smaller than this. -/
def Request.numberBound : Nat := 100000000

/-- The call under the number `id`. -/
def Request.envelope (request : Request) (id : Nat) : Json :=
  .object (request.call.insert "id" (.ofNat id))

/-- The body that is posted for the call under the number `id`. -/
def Request.body (request : Request) (id : Nat) : Bytes :=
  Bytes.ofText (request.envelope id).compact

end RemoteRecords.Session
