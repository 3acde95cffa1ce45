import RemoteRecords.Import.Plan
import RemoteRecords.Progress
import RemoteRecords.Session.Basic
import RemoteRecords.Table.Writer

namespace RemoteRecords.Import

/-! ## One row -/

/-- Why a row is rejected. -/
inductive Rejection where
  | plan (error : PlanError)
  | session (error : Session.Error)
  | noId
  | notWritten (id : Int)
  deriving DecidableEq, Repr

def Rejection.message : Rejection → String
  | .plan error => error.message
  | .session error => Text.joinWith ": " error.causes
  | .noId => "create returned no id"
  | .notWritten id => "write on id " ++ Text.ofInt id ++ " returned false"

/-- What has been done with an accepted row. -/
inductive Done where
  | created
  | updated
  deriving DecidableEq, Repr

/-- Whether a creation has succeeded. -/
def createdOr : Except Session.Error Int → Except Rejection Done
  | .error error => .error (.session error)
  | .ok id => if id = newRecordId then .error .noId else .ok .created

/-- Whether a write on `id` has succeeded. -/
def updatedOr (id : Int) : Except Session.Error Bool → Except Rejection Done
  | .error error => .error (.session error)
  | .ok flag => if flag then .ok .updated else .error (.notWritten id)

/-- Does what a row asks for. -/
def sendRow (session : Session) (model : String) (header row : List String) :
    Session.Dialogue (Except Rejection Done) :=
  match plan header row with
  | .error error => .done (.error (.plan error))
  | .ok (.create record) => (session.create model record).map createdOr
  | .ok (.update id record) => (session.update model id record).map (updatedOr id)

/-! ## All rows -/

/-- A rejected row by its number, from one on, and the reason. -/
structure Warning where
  row : Nat
  reason : Rejection
  deriving DecidableEq, Repr

def Warning.message (warning : Warning) : String :=
  "Import: row rejected: " ++ warning.reason.message

/-- An import under way. -/
structure State where
  created : Nat
  updated : Nat
  failed : Nat
  errors : Table.Writer
  /-- Why the error file takes no more rows. -/
  broken : Option Table.WidthMismatch
  progress : Progress
  warnings : List Warning

def start (errors : Table.Writer) : State :=
  ⟨0, 0, 0, errors, none, .start "Import: rows" 100, []⟩

/-- The state after a row that has been sent. -/
def State.accept (state : State) (done : Done) : State :=
  let progress := state.progress.advance 1
  match done with
  | .created => { state with created := state.created + 1, progress }
  | .updated => { state with updated := state.updated + 1, progress }

/-- The state after a rejected row: it goes to the error file. -/
def State.reject (state : State) (warning : Warning) (row : List String) : State :=
  let warnings := state.warnings ++ [warning]
  let progress := state.progress.advance 1
  match state.errors.addRow row with
  | (.ok _, errors) =>
      { state with failed := state.failed + 1, errors, progress, warnings }
  | (.error mismatch, errors) =>
      { state with broken := some mismatch, errors, progress, warnings }

/-- Sends the rows, the first of which has the given number, one after another, as a single worker
does when each rejected row is written at once. Once the error file is broken, the next rejected row
ends the import. -/
def sendRows (session : Session) (model : String) (header : List String) :
    Nat → List (List String) → State → Session.Dialogue State
  | _, [], state => .done state
  | number, row :: rows, state =>
      (sendRow session model header row).bind fun result =>
        match result with
        | .ok done => sendRows session model header (number + 1) rows (state.accept done)
        | .error reason =>
            let warning : Warning := ⟨number, reason⟩
            if state.broken.isSome then
              .done { state with warnings := state.warnings ++ [warning] }
            else sendRows session model header (number + 1) rows (state.reject warning row)

/-- How many rows have had which end. -/
structure Summary where
  created : Nat
  updated : Nat
  failed : Nat
  deriving DecidableEq, Repr

/-- A finished import. It fails as a whole when the error file could not take a row. -/
structure Report where
  outcome : Except Table.WidthMismatch Summary
  errors : Table.Writer
  progress : Progress
  warnings : List Warning

/-- The message that the error file could not take a row. -/
def brokenMessage : String := "Import: Error file writer failed"

def State.report (state : State) : Report :=
  match state.broken with
  | some mismatch => ⟨.error mismatch, state.errors, state.progress, state.warnings⟩
  | none =>
      ⟨.ok ⟨state.created, state.updated, state.failed⟩, state.errors, state.progress.finish,
        state.warnings⟩

/-- Why the error file takes no more rows. -/
inductive Refusal where
  | width (mismatch : Table.WidthMismatch)
  | fault (fault : WriteFault Bytes)
  deriving DecidableEq

/-- The end of an import and of its error file. -/
structure Closing where
  outcome : Except Refusal Summary
  /-- What the error file holds. -/
  errors : Bytes
  progress : Progress
  warnings : List Warning

def Report.closing (report : Report) : Closing :=
  ⟨report.outcome.mapError .width, report.errors.bytes, report.progress, report.warnings⟩

/-- Imports rows into a model one after another; rejected ones go to the error file, which holds the
header and takes everything that the system is asked to write. This is one way in which a single
worker can do it; what any number of workers can do is said by `Pool`. -/
def importRows (session : Session) (model : String) (header : List String)
    (rows : List (List String)) (errors : Table.Writer) : Session.Dialogue Report :=
  (sendRows session model header 1 rows (start errors)).map State.report

end RemoteRecords.Import
