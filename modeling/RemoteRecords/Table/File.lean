import RemoteRecords.FileTree
import RemoteRecords.Table.Basic
import RemoteRecords.Text.Quoted

namespace RemoteRecords.Table

/-- Why a data file gives no table. -/
inductive ReadError where
  | notOpened (path : Path) (error : FileError)
  /-- The data file is a directory. -/
  | directory (path : Path)
  | header (path : Path) (bad : BadCell)
  /-- The data row with the given number, from one on. -/
  | row (number : Nat) (bad : BadCell)

def ReadError.message : ReadError → String
  | .notOpened path _ => "CSV: Failed to open " ++ Text.shown path.text
  | .directory path => "CSV: Failed to read header of " ++ Text.shown path.text
  | .header path _ => "CSV: Failed to read header of " ++ Text.shown path.text
  | .row number _ => "CSV: Failed to read data row " ++ Text.ofNat number

def ReadError.causes : ReadError → List String
  | .notOpened _ error => [error.message]
  | .directory _ => [FileError.isDirectory.message]
  | .header _ bad => [bad.message]
  | .row _ bad => [bad.message]

/-- The table in the file at a path. -/
def read (files : FileTree) (path : Path) (separator : Separator) : Except ReadError Table :=
  match files.openFile path with
  | .error error => .error (.notOpened path error)
  | .ok none => .error (.directory path)
  | .ok (some bytes) =>
      match ofBytes separator bytes with
      | .ok table => .ok table
      | .error bad => .error (if bad.row = 0 then .header path bad else .row bad.row bad)

end RemoteRecords.Table
