import RemoteRecords.Import.ErrorFile
import RemoteRecords.Model
import RemoteRecords.Run.Basic

namespace RemoteRecords.Run

/-- What is printed when a file has no rows below its header. -/
def noRows : String := "file too short\n"

/-- What is printed when no row is left. -/
def noRowsLeft : String := "offset too large\n"

/-- Rows that can be sent. -/
structure Task where
  /-- The session behind the login. -/
  session : Session
  /-- The model's name for the server. -/
  model : String
  header : List String
  rows : List (List String)
  separator : Table.Separator
  /-- The path of the file for rejected rows. -/
  path : Path
  /-- The names under which this file is found. -/
  names : List String

/-- Comes as far as the rows of a file: the login, and the file for rejected rows, which is created
or emptied. The outcome is there already when there is nothing to send. -/
def prepare {platform : Platform} (surroundings : Surroundings platform) (invocation : Invocation)
    (model : String) (offset limit : Nat) (file : DataFile) : Step (Outcome ⊕ Task) :=
  let path := file.pathFor model
  let errors := Import.errorPath path
  given (separatorOf file.separator) fun separator =>
    given ((Table.read surroundings.files path separator).mapError .data) fun table =>
      if table.rows.isEmpty then .done (.ok (.inl (.printed surroundings.files noRows)))
      else if table.rows.length ≤ offset then
        .done (.ok (.inl (.printed surroundings.files noRowsLeft)))
      else
        andThen (connect surroundings invocation) fun session =>
          given ((surroundings.files.target errors).mapError (.errorFile errors)) fun names =>
            .done (.ok (.inr ⟨session, Model.serverName model, table.header,
              table.select offset limit, separator, errors, names⟩))

/-- Whether an import has ended well. -/
def resultOf (path : Path) (closing : Import.Closing) : Except Failure Unit :=
  match closing.outcome with
  | .error (.width mismatch) => .error (.errorRow mismatch)
  | .error (.fault fault) => .error (.errorFault fault.message)
  | .ok summary => if 0 < summary.failed then .error (.rejected summary.failed path) else .ok ()

/-- The outcome of an import. -/
def Task.outcome (task : Task) (files : FileTree) (closing : Import.Closing) : Outcome :=
  ⟨resultOf task.path closing, "", closing.progress.text, closing.warnings,
    files.put task.names closing.errors⟩

/-- Sends rows one after another, which is a way in which one worker can send them. -/
def Task.carryOut (task : Task) (files : FileTree) : Session.Dialogue Outcome :=
  (Import.importRows task.session task.model task.header task.rows
    (.start task.separator task.header)).map fun report => task.outcome files report.closing

/-- Sends the rows of a file to the server, one after another. -/
def send {platform : Platform} (surroundings : Surroundings platform) (invocation : Invocation)
    (model : String) (offset limit : Nat) (file : DataFile) : Step Outcome :=
  andThen (prepare surroundings invocation model offset limit file) fun
    | .inl outcome => .done (.ok outcome)
    | .inr task => (task.carryOut surroundings.files).map .ok

end RemoteRecords.Run
