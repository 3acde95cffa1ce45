import RemoteRecords.Connection
import RemoteRecords.Settings.File

namespace RemoteRecords.Settings

/-! ## The sources around the file -/

/-- What the names of environment variables with settings begin with, in any case. -/
def variableStart : String := "odooq_"

/-- The setting that an environment variable is about. -/
def variableKey? (name : String) : Option String :=
  let lower := (name.map Char.toLower).toList
  if variableStart.toList.isPrefixOf lower then
    some (String.ofList (lower.drop variableStart.length))
  else none

/-- The entries of the environment, given as names and values. -/
def environmentLayer (environment : List (String × String)) : Layer :=
  environment.filterMap fun (name, text) =>
    (variableKey? name).map fun key => (key, .ofSource .environment (.string text))

/-- The values that are given for one run and win over all others. -/
structure Overrides where
  hostname : Option String
  port : Option Nat
  database : Option String
  username : Option String
  password : Option String
  schema : Option String
  deriving DecidableEq

def Overrides.none : Overrides := ⟨.none, .none, .none, .none, .none, .none⟩

def textEntry (text : String) : Entry := ⟨.string text, .none⟩

def numberEntry (number : Nat) : Entry := ⟨.int number, .none⟩

def Overrides.layer (overrides : Overrides) : Layer :=
  [("hostname", overrides.hostname.map textEntry), ("port", overrides.port.map numberEntry),
    ("database", overrides.database.map textEntry),
    ("username", overrides.username.map textEntry),
    ("password", overrides.password.map textEntry),
    ("schema", overrides.schema.map textEntry)].filterMap fun (name, entry) =>
      entry.map fun entry => (name, entry)

/-- The entries of a connection. -/
def connectionLayer (connection : Connection) : Layer :=
  [("hostname", textEntry connection.hostname), ("port", numberEntry connection.port),
    ("database", textEntry connection.database), ("username", textEntry connection.username),
    ("password", textEntry connection.password), ("schema", textEntry connection.schema)]

/-! ## Loading -/

/-- Why there is no connection. -/
inductive LoadError where
  | file (fault : FileFault)
  | field (name : String) (mismatch : Mismatch) (origin : Option Origin)
  | missing (name : String)
  deriving DecidableEq

def LoadError.message : LoadError → String
  | .file fault => fault.message
  | .field name mismatch origin =>
      "failed to load settings: " ++ mismatch.message ++ " for key \x60" ++ name ++ "\x60" ++
        (if mismatch.showsOrigin then (origin.map Origin.note).getD "" else "")
  | .missing name => "failed to load settings: missing configuration field \"" ++ name ++ "\""

/-- The value of one setting. -/
def field {α : Type} (settings : Settings) (name : String) (read : Value → Except Mismatch α) :
    Except LoadError α :=
  match settings.find? name with
  | some entry => (read entry.value).mapError fun mismatch => .field name mismatch entry.origin
  | none => .error (.missing name)

/-- The connection that the settings describe. -/
def toConnection (settings : Settings) : Except LoadError Connection := do
  let hostname ← settings.field "hostname" Value.toText
  let port ← settings.field "port" Value.toNumber
  let database ← settings.field "database" Value.toText
  let username ← settings.field "username" Value.toText
  let password ← settings.field "password" Value.toText
  let schema ← settings.field "schema" Value.toText
  return ⟨hostname, port, database, username, password, schema⟩

/-- All settings: the defaults, and over them the file's entries, those of the environment and the
overrides. -/
def merge (file : Layer) (environment : List (String × String)) (overrides : Overrides) :
    Settings :=
  (((apply [] (connectionLayer .default)).apply file).apply
    (environmentLayer environment)).apply overrides.layer

/-- The connection that a settings file, which need not exist, the environment and the overrides
describe. -/
def load (files : FileTree) (environment : List (String × String)) (path : Option Path)
    (overrides : Overrides) (formats : List Format := standardFormats) :
    Except LoadError Connection :=
  match path.map (fileLayer formats files) with
  | some (.error fault) => .error (.file fault)
  | some (.ok layer) => (merge layer environment overrides).toConnection
  | none => (merge [] environment overrides).toConnection

end RemoteRecords.Settings
