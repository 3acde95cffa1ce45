import RemoteRecords.Session.Lookup

namespace RemoteRecords.Session

/-- Everything that can be asked of a server, with its arguments. -/
inductive Operation where
  | login
  | call (service method : String) (args : List Json)
  | create (model : String) (record : Record)
  | load (model : String) (header : List String) (rows : List (List String))
  | searchRead (model : String) (filter : Filter) (offset limit : Nat) (fields : List String)
  | search (model : String) (filter : Filter)
  | searchWhere (model : String) (domain : Json)
  | getId (model : String) (filter : Filter)
  | getIdWhere (model : String) (domain : Json)
  | read (model : String) (ids : List Int) (fields : List String)
  | update (model : String) (id : Int) (record : Record)
  | unlink (model : String) (ids : List Int)
  | count (model : String) (filter : Filter)
  | modelMap (model field : String)
  | companyId (name : String)
  | partnerId (name : String)
  | countryId (name : String)
  | stateId (country : Int) (name : String)
  | fiscalPositionId (country : Int) (name : String)

/-! ## Answers as JSON values -/

def ofIds (ids : List Int) : Json := .array (ids.map .int)

def ofId? : Option Int → Json
  | some id => .int id
  | none => .null

def ofRecords (records : List Record) : Json := .array (records.map .object)

def ofKeys (keys : Fields Int) : Json := .object (keys.map fun key => (key.1, .int key.2))

/-- An outcome as a JSON value; the session stays as it is. -/
def answerWith {α : Type} (session : Session) (encode : α → Json) (outcome : Outcome α) :
    Dialogue (Except Error Json × Session) :=
  outcome.map fun result => (result.map encode, session)

/-- Performs an operation and gives its answer and the session afterwards. -/
def perform (session : Session) : Operation → Dialogue (Except Error Json × Session)
  | .login => session.login.map fun (answer, after) => (answer.map .int, after)
  | .call service method args => session.answerWith id (session.call service method args)
  | .create model record => session.answerWith .int (session.create model record)
  | .load model header rows => session.answerWith id (session.load model header rows)
  | .searchRead model filter offset limit fields =>
      session.answerWith ofRecords (session.searchRead model filter offset limit fields)
  | .search model filter => session.answerWith ofIds (session.search model filter)
  | .searchWhere model domain => session.answerWith ofIds (session.searchWhere model domain)
  | .getId model filter => session.answerWith ofId? (session.getId model filter)
  | .getIdWhere model domain => session.answerWith ofId? (session.getIdWhere model domain)
  | .read model ids fields => session.answerWith ofRecords (session.read model ids fields)
  | .update model id record => session.answerWith .bool (session.update model id record)
  | .unlink model ids => session.answerWith .bool (session.unlink model ids)
  | .count model filter => session.answerWith .int (session.count model filter)
  | .modelMap model field => session.answerWith ofKeys (session.modelMap model field)
  | .companyId name => session.answerWith ofId? (session.companyId name)
  | .partnerId name => session.answerWith ofId? (session.partnerId name)
  | .countryId name => session.answerWith ofId? (session.countryId name)
  | .stateId country name => session.answerWith ofId? (session.stateId country name)
  | .fiscalPositionId country name =>
      session.answerWith ofId? (session.fiscalPositionId country name)

end RemoteRecords.Session
