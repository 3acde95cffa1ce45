import RemoteRecords.Import.ErrorFile
import RemoteRecords.Run.Basic

namespace RemoteRecords.Run

/-! ## Paths that matter -/

/-- The names on the way to a path from the root. -/
def namesOf (place : List String) (path : Path) : List String :=
  path.segments.foldl
    (fun names segment =>
      if Path.isIdle segment then names
      else if segment = ['.', '.'] then names.dropLast
      else names ++ [String.ofList segment])
    (if path.rooted then [] else place)

/-- The paths that a command reads or writes. -/
def commandPaths : Command → List Path
  | .query _ => []
  | .save selection file => [file.pathFor selection.model]
  | .send model _ _ file =>
      let path := file.pathFor model
      [path, Import.errorPath path]

/-- The paths that an invocation may read or write. -/
def reach (invocation : Invocation) : List Path :=
  (invocation.config ::
      (Settings.completions Settings.standardFormats invocation.config).map Prod.fst) ++
    commandPaths invocation.command

/-- The files that were not there before or held something else. -/
def changes (before after : FileTree) : List (List String × Bytes) :=
  after.files.filter fun file => !before.files.contains file

/-! ## Variables -/

/-- The pieces between zero bytes. -/
def splitZeros : Bytes → List Bytes
  | [] => [[]]
  | byte :: rest =>
      match splitZeros rest with
      | [] => [[byte]]
      | piece :: pieces =>
          if byte = 0 then [] :: piece :: pieces else (byte :: piece) :: pieces

/-- The names and values of variables, each written `name=value` and ended by a zero byte. -/
def variablesOf (bytes : Bytes) : List (String × String) :=
  ((splitZeros bytes).filter fun piece => !piece.isEmpty).map fun piece =>
    let (name, rest) := piece.lossyText.toList.span (· ≠ '=')
    (String.ofList name, String.ofList rest.tail)

/-! ## Reports -/

/-- The lines below a failure's own message. -/
def causeLines (causes : List String) : List String :=
  match causes with
  | [] => []
  | [cause] => ["", "Caused by:", "    " ++ cause]
  | causes =>
      "" :: "Caused by:" ::
        causes.zipIdx.map fun (cause, number) => "    " ++ Text.ofNat number ++ ": " ++ cause

/-- A failure with all its causes. -/
def Failure.report (failure : Failure) : String :=
  Text.joinWith "\n" (("Error: " ++ failure.message) :: causeLines failure.causes)

end RemoteRecords.Run
