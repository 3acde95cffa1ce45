import RemoteRecords.Path
import RemoteRecords.Settings.Load

namespace RemoteRecords

/-! ## Commands -/

/-- Which records of a model are wanted, and which of their fields. A limit of zero is no limit. -/
structure Selection where
  model : String
  /-- The names of the fields, with commas between them. -/
  field : Option String
  /-- The text of the filter. -/
  domain : Option String
  offset : Nat
  limit : Nat
  deriving DecidableEq

/-- The text of the filter; nothing is filtered when it is not given. -/
def Selection.domainText (selection : Selection) : String := selection.domain.getD ""

/-- A file with a table. -/
structure DataFile where
  /-- The path; one that follows from the model when it is not given. -/
  path : Option Path
  separator : String
  deriving DecidableEq

/-- The path of the file for a model. -/
def DataFile.pathFor (file : DataFile) (model : String) : Path :=
  file.path.getD (.ofText (model ++ ".csv"))

/-- What the program is asked to do. -/
inductive Command where
  /-- Prints records. -/
  | query (selection : Selection)
  /-- Writes records to a file. -/
  | save (selection : Selection) (file : DataFile)
  /-- Sends the rows of a file, at most `limit` after the first `offset`; a limit of zero is no
  limit. -/
  | send (model : String) (offset limit : Nat) (file : DataFile)
  deriving DecidableEq

/-- A command and how to connect for it. -/
structure Invocation where
  /-- The path of the settings file. -/
  config : Path
  overrides : Settings.Overrides
  workers : Option Nat
  verbose : Bool
  command : Command
  deriving DecidableEq

/-! ## Rejected command lines -/

/-- Why a command line is not carried out. -/
inductive Usage where
  | missingArgument
  | unknownArgument
  /-- A value is missing or empty. -/
  | invalidValue
  /-- A value is no number of the right range. -/
  | unfitValue
  /-- A flag that takes no value has one. -/
  | unneededValue
  /-- A flag is given twice. -/
  | conflict
  | unknownCommand
  | missingCommand
  /-- Nothing is asked for. -/
  | nothingAsked
  | helpAsked
  | versionAsked
  deriving DecidableEq, Repr

/-- Two for a faulty command line, and zero when the user has asked about the program. -/
def Usage.exitCode : Usage → Nat
  | .helpAsked => 0
  | .versionAsked => 0
  | _ => 2

def Usage.message : Usage → String
  | .missingArgument => "a required argument is missing"
  | .unknownArgument => "unexpected argument"
  | .invalidValue => "a value is required"
  | .unfitValue => "invalid value"
  | .unneededValue => "unexpected value"
  | .conflict => "an argument cannot be used multiple times"
  | .unknownCommand => "unrecognized subcommand"
  | .missingCommand => "a subcommand is required"
  | .nothingAsked => "commands: query, export, import"
  | .helpAsked => "commands: query, export, import"
  | .versionAsked => "0.1.0"

end RemoteRecords
