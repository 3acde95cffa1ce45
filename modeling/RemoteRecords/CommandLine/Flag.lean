import RemoteRecords.CommandLine.Basic

namespace RemoteRecords.CommandLine

/-- What can be set on a command line. -/
inductive Flag where
  | config
  | hostname
  | database
  | username
  | password
  | schema
  | port
  | workers
  | verbose
  | model
  | field
  | domain
  | offset
  | limit
  | file
  | separator
  | help
  | version
  deriving DecidableEq, Repr

namespace Flag

/-- The name behind two dashes. -/
def name : Flag → String
  | config => "config"
  | hostname => "hostname"
  | database => "database"
  | username => "username"
  | password => "password"
  | schema => "schema"
  | port => "port"
  | workers => "workers"
  | verbose => "verbose"
  | model => "model"
  | field => "field"
  | domain => "domain"
  | offset => "offset"
  | limit => "limit"
  | file => "file"
  | separator => "separator"
  | help => "help"
  | version => "version"

/-- The letter behind a single dash. -/
def letter? : Flag → Option Char
  | config => some 'c'
  | workers => some 'w'
  | verbose => some 'v'
  | model => some 'm'
  | field => some 'f'
  | domain => some 'd'
  | offset => some 'o'
  | limit => some 'l'
  | separator => some 's'
  | help => some 'h'
  | version => some 'V'
  | _ => none

def takesValue : Flag → Bool
  | verbose => false
  | help => false
  | version => false
  | _ => true

/-- The variable that gives a value where the command line gives none. -/
def variableName : Flag → Option String
  | config => some "ODOOQ_CONFIG"
  | workers => some "ODOOQ_WORKERS"
  | _ => none

/-! ## Values -/

/-- A port of 32 bits. -/
def portOf? (text : String) : Option Nat :=
  match Text.toInt64 text.toList with
  | .ok value => if 0 ≤ value ∧ value ≤ Bounds.greatestNat32 then some value.toNat else none
  | .error _ => none

/-- A number of 64 bits. -/
def countOf? (text : String) : Option Nat :=
  (Text.toBoundedNat Bounds.greatestNat64 text.toList).toOption

/-- Whether the flag takes the value. -/
def check (flag : Flag) (text : String) : Except Usage Unit :=
  match flag with
  | config | file => if text.isEmpty then .error .invalidValue else .ok ()
  | port => if (portOf? text).isSome then .ok () else .error .unfitValue
  | workers | offset | limit => if (countOf? text).isSome then .ok () else .error .unfitValue
  | _ => .ok ()

/-! ## Levels -/

/-- The flags that stand before the command or behind it. -/
def everywhere : List Flag :=
  [config, hostname, database, username, password, schema, port, workers, verbose]

/-- The flags that stand before the command. -/
def beforeCommand : List Flag := everywhere ++ [help, version]

/-- The flags that stand behind the command. -/
def behindCommand (own : List Flag) : List Flag := own ++ everywhere ++ [help]

end Flag

/-! ## Command names -/

/-- The commands by name. -/
inductive Verb where
  | query
  | save
  | send
  deriving DecidableEq, Repr

namespace Verb

def all : List Verb := [query, save, send]

def name : Verb → String
  | query => "query"
  | save => "export"
  | send => "import"

def ofName? (name : String) : Option Verb := all.find? fun verb => verb.name == name

/-- The flags of the command itself. -/
def flags : Verb → List Flag
  | query => [.model, .field, .domain, .offset, .limit]
  | save => [.model, .field, .domain, .offset, .limit, .file, .separator]
  | send => [.model, .offset, .limit, .file, .separator]

end Verb

end RemoteRecords.CommandLine
