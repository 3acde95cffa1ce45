import RemoteRecords.Filter.Printer
import RemoteRecords.Session.Dialogue
import RemoteRecords.Session.Response

namespace RemoteRecords

/-- A connection whose endpoint is valid, and the user id of the last successful login. -/
structure Session where
  connection : Connection
  url : String
  uid : Option Int

namespace Session

/-- What an operation gives once its request has been answered. -/
abbrev Outcome (α : Type) := Dialogue (Except Error α)

/-- A session that nobody has logged in to. -/
def start (connection : Connection) : Except Error Session :=
  match connection.endpoint with
  | .ok url => .ok ⟨connection, url, none⟩
  | .error fault => .error (.badEndpoint fault)

/-! ## Calls -/

/-- Calls a method of a service. -/
def call (session : Session) (service method : String) (args : List Json) : Outcome Json :=
  .post ⟨session.url, service, method, args⟩ fun reply => .done (reply.bind resultOf)

/-- The user id that a server answers a login with. -/
def uidOf (result : Json) : Except Error Int :=
  match result.asInt64? with
  | some uid => .ok uid
  | none => .error .loginFailed

/-- The session after a login: a failed one changes nothing. -/
def afterLogin (session : Session) : Except Error Int → Session
  | .ok uid => { session with uid := some uid }
  | .error _ => session

/-- Logs in with the connection's credentials. -/
def login (session : Session) : Dialogue (Except Error Int × Session) :=
  (session.call "common" "login"
    [.string session.connection.database, .string session.connection.username,
      .string session.connection.password]).map fun result =>
    let answer := result.bind uidOf
    (answer, session.afterLogin answer)

/-- Calls a method of a model as the user who is logged in; `read` makes sense of the result. -/
def execute {α : Type} (session : Session) (model method : String) (args : List Json)
    (read : Json → Except Error α) : Outcome α :=
  match session.uid with
  | none => .done (.error .notLoggedIn)
  | some uid =>
      (session.call "object" "execute"
        ([.string session.connection.database, .int uid, .string session.connection.password,
          .string model, .string method] ++ args)).map (·.bind read)

/-! ## Results -/

/-- The objects of a list. -/
def recordsOf : Json → Except Error (List Record)
  | .array items => .ok (items.filterMap Json.asObject?)
  | other => .error (.unexpectedResponse ("expected a list of records, got " ++ other.compact))

/-- The 64-bit integers of a list. -/
def idsOf : Json → Except Error (List Int)
  | .array items => .ok (items.filterMap Json.asInt64?)
  | other => .error (.unexpectedResponse ("expected a list of ids, got " ++ other.compact))

/-- The 64-bit integer, or -1 in place of anything else. -/
def numberOf (result : Json) : Except Error Int :=
  .ok (result.asInt64?.getD (-1))

/-- Whether the result is the boolean true. -/
def flagOf (result : Json) : Except Error Bool :=
  .ok (result.asBool?.getD false)

/-! ## Operations on models -/

/-- Creates a record and gives its id, -1 when the server answers with no number. -/
def create (session : Session) (model : String) (record : Record) : Outcome Int :=
  session.execute model "create" [.object record] numberOf

/-- Loads rows under a header and gives the server's own report. -/
def load (session : Session) (model : String) (header : List String) (rows : List (List String)) :
    Outcome Json :=
  session.execute model "load" [.ofStrings header, .array (rows.map .ofStrings)] .ok

/-- The fields of the records that pass the filter. A limit of zero is no limit. -/
def searchRead (session : Session) (model : String) (filter : Filter) (offset limit : Nat)
    (fields : List String) : Outcome (List Record) :=
  session.execute model "search_read"
    [filter.wire, .ofStrings fields, .ofNat offset, .ofNat limit] recordsOf

/-- The ids of the records that pass a filter in wire form. -/
def searchWhere (session : Session) (model : String) (domain : Json) : Outcome (List Int) :=
  session.execute model "search" [domain] idsOf

/-- The ids of the records that pass the filter. -/
def search (session : Session) (model : String) (filter : Filter) : Outcome (List Int) :=
  session.searchWhere model filter.wire

/-- The first id among the records that pass a filter in wire form. -/
def getIdWhere (session : Session) (model : String) (domain : Json) : Outcome (Option Int) :=
  (session.searchWhere model domain).map fun ids => ids.map List.head?

/-- The first id among the records that pass the filter. -/
def getId (session : Session) (model : String) (filter : Filter) : Outcome (Option Int) :=
  session.getIdWhere model filter.wire

/-- The fields of the records with the given ids. -/
def read (session : Session) (model : String) (ids : List Int) (fields : List String) :
    Outcome (List Record) :=
  session.execute model "read" [.array (ids.map .int), .ofStrings fields] recordsOf

/-- Writes a record's fields; true when the server says so. -/
def update (session : Session) (model : String) (id : Int) (record : Record) : Outcome Bool :=
  session.execute model "write" [.int id, .object record] flagOf

/-- Deletes records; true when the server says so. -/
def unlink (session : Session) (model : String) (ids : List Int) : Outcome Bool :=
  session.execute model "unlink" [.array (ids.map .int)] flagOf

/-- A filter that every stored record passes; servers refuse to count with an empty one. -/
def everyRecord : Filter :=
  .ofTerm ⟨"id", .notEqual, "-1"⟩

/-- The number of the records that pass the filter, -1 when the server answers with no number. -/
def count (session : Session) (model : String) (filter : Filter) : Outcome Int :=
  let filter := if filter.isEmpty then everyRecord else filter
  session.execute model "search_count" [filter.wire] numberOf

end Session

end RemoteRecords
