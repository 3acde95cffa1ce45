import RemoteRecords.Session.Basic
import RemoteRecords.Model

namespace RemoteRecords.Session

/-! ## Looking up ids -/

/-- The condition that the name is `name`. It goes to the server as it is: a name need not fit the
syntax of filter texts. -/
def nameIs (name : String) : Json :=
  .ofStrings ["name", "=", name]

/-- The condition that a record belongs to the country with the id `country`. -/
def countryIs (country : Int) : Json :=
  .array [.string "country_id", .string "=", .int country]

def companyId (session : Session) (name : String) : Outcome (Option Int) :=
  session.getIdWhere "res.company" (.array [nameIs name])

def partnerId (session : Session) (name : String) : Outcome (Option Int) :=
  session.getIdWhere "res.partner" (.array [nameIs name])

def countryId (session : Session) (name : String) : Outcome (Option Int) :=
  session.getIdWhere "res.country" (.array [nameIs name])

/-- The state `name` of a country. -/
def stateId (session : Session) (country : Int) (name : String) : Outcome (Option Int) :=
  session.getIdWhere "res.country.state" (.array [nameIs name, countryIs country])

/-- The fiscal position of a country whose name is like `name`. -/
def fiscalPositionId (session : Session) (country : Int) (name : String) :
    Outcome (Option Int) :=
  session.getIdWhere "account.fiscal.position"
    (.array [countryIs country, .ofStrings ["name", "like", name]])

/-- The string under `field` and the id of a record that has both. -/
def keyed? (field : String) (record : Record) : Option (String × Int) := do
  let key ← (← record.find? field).asString?
  let id ← (← record.find? "id").asInt64?
  return (key, id)

/-- The id of every record of a model by the string under `field`; of several records with one
string the last counts. -/
def modelMap (session : Session) (model field : String) : Outcome (Fields Int) :=
  (session.searchRead (Model.serverName model) .empty 0 0 [field]).map fun records =>
    records.map fun records => .ofPairs (records.filterMap (keyed? field))

end RemoteRecords.Session
