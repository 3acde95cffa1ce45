import RemoteRecords.Filter.Parser
import RemoteRecords.Import.Run
import RemoteRecords.Run.Platform
import RemoteRecords.Settings.Load
import RemoteRecords.Table.File

namespace RemoteRecords.Run

/-- Why a command fails. -/
inductive Failure where
  | filter (text : String) (error : Filter.SyntaxError)
  | separator (found : Char)
  | settings (path : Path) (error : Settings.LoadError)
  | start (error : Session.Error)
  | login (error : Session.Error)
  | search (model : String) (error : Session.Error)
  /-- The records do not all come out. -/
  | output (message : String)
  /-- The file for the records cannot be created. -/
  | target (path : Path) (error : FileError)
  /-- The file for the records does not take all of them. -/
  | targetFault (path : Path) (part : Part) (message : String)
  | record (mismatch : Table.WidthMismatch)
  | data (error : Table.ReadError)
  /-- The file for rejected rows cannot be created. -/
  | errorFile (path : Path) (error : FileError)
  /-- The file for rejected rows does not take its header. -/
  | errorHeader (path : Path) (message : String)
  /-- The file for rejected rows could not take a row. -/
  | errorRow (mismatch : Table.WidthMismatch)
  /-- The file for rejected rows does not take all of them. -/
  | errorFault (message : String)
  | rejected (count : Nat) (path : Path)

namespace Failure

def message : Failure → String
  | filter text _ => Filter.rejection text
  | separator found => Table.Separator.rejection found
  | settings path _ => "Config: Failed to load settings from " ++ Text.shown path.text
  | start _ => "RPC: Failed to create client"
  | login _ => "login error"
  | search model _ => "RPC: search_read on " ++ model ++ " failed"
  | output _ => "Query: Failed to write records"
  | target path _ => "Export: Failed to create " ++ Text.shown path.text
  | targetFault path .header _ => "Export: Failed to create " ++ Text.shown path.text
  | targetFault _ .row message => message
  | targetFault _ .rest _ => "Export: Failed to finalize CSV"
  | record mismatch => mismatch.message
  | data error => error.message
  | errorFile path _ => "Import: Failed to create " ++ Text.shown path.text
  | errorHeader path _ => "Import: Failed to create " ++ Text.shown path.text
  | errorRow _ => Import.brokenMessage
  | errorFault _ => Import.brokenMessage
  | rejected count path =>
      "Import: " ++ Text.ofNat count ++ " rows rejected, see " ++ Text.shown path.text

/-- The messages below the failure's own, down to the first cause. -/
def causes : Failure → List String
  | filter _ error => [error.message]
  | settings _ error => [error.message]
  | start error => error.causes
  | login error => error.causes
  | search _ error => error.causes
  | output message => [message]
  | target _ error => [error.message]
  | targetFault _ .header message => [message]
  | targetFault _ .rest message => [message]
  | data error => error.causes
  | errorFile _ error => [error.message]
  | errorHeader _ message => [message]
  | errorRow mismatch => [mismatch.message]
  | errorFault message => [message]
  | _ => []

end Failure

end RemoteRecords.Run
