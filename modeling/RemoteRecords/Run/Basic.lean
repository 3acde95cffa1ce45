import RemoteRecords.CommandLine.Basic
import RemoteRecords.Run.Failure

namespace RemoteRecords.Run

variable {platform : Platform}

/-! ## Outcomes -/

/-- What the program finds when it starts on a platform. -/
structure Surroundings (platform : Platform := .plain) where
  files : FileTree
  /-- The environment variables by name. -/
  environment : List (String × String)

/-- What a command leaves behind. -/
structure Outcome where
  result : Except Failure Unit
  /-- What it prints. -/
  output : String
  /-- What it shows of its progress. -/
  progress : String
  warnings : List Import.Warning
  /-- The files afterwards. -/
  files : FileTree

namespace Outcome

/-- A failure that leaves everything as it is. -/
def failed (files : FileTree) (failure : Failure) : Outcome := ⟨.error failure, "", "", [], files⟩

def printed (files : FileTree) (output : String) : Outcome := ⟨.ok (), output, "", [], files⟩

end Outcome

/-! ## Steps -/

/-- A step of a command, which may fail. -/
abbrev Step (α : Type) := Session.Dialogue (Except Failure α)

/-- Goes on with the value of a step that has not failed. -/
def andThen {α β : Type} (step : Step α) (next : α → Step β) : Step β :=
  step.bind fun
    | .ok value => next value
    | .error failure => .done (.error failure)

/-- Goes on with the value of something that needs no server. -/
def given {α β : Type} (value : Except Failure α) (next : α → Step β) : Step β :=
  andThen (.done value) next

/-- The outcome of a command: its own, or that of the step that has failed. -/
def finish (surroundings : Surroundings platform) (step : Step Outcome) : Session.Dialogue Outcome :=
  step.map fun
    | .ok outcome => outcome
    | .error failure => .failed surroundings.files failure

/-! ## Preparations -/

/-- The filter in a text. -/
def filterOf (text : String) : Except Failure Filter :=
  (Filter.parse text).mapError (.filter text)

/-- The separator in a text. -/
def separatorOf (text : String) : Except Failure Table.Separator :=
  (Table.Separator.ofText text).mapError .separator

/-- The connection for an invocation. -/
def connectionOf (surroundings : Surroundings platform) (invocation : Invocation) :
    Except Failure Connection :=
  (Settings.load surroundings.files surroundings.environment (some invocation.config)
    invocation.overrides platform.formats).mapError (.settings invocation.config)

/-- A session for an invocation, before the login. -/
def sessionOf (surroundings : Surroundings platform) (invocation : Invocation) :
    Except Failure Session :=
  match connectionOf surroundings invocation with
  | .ok connection => (Session.start connection).mapError .start
  | .error failure => .error failure

/-- Logs in. -/
def login (session : Session) : Step Session :=
  session.login.map fun (answer, after) =>
    match answer with
    | .ok _ => .ok after
    | .error error => .error (.login error)

/-- The session of an invocation after its login. -/
def connect (surroundings : Surroundings platform) (invocation : Invocation) : Step Session :=
  given (sessionOf surroundings invocation) login

end RemoteRecords.Run
