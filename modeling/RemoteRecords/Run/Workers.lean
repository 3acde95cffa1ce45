import RemoteRecords.Import.Workers
import RemoteRecords.Run.Command

namespace RemoteRecords.Run

open Session (Reply)

/-! ## Courses -/

/-- A course that an import can take. -/
structure Course where
  workers : Nat
  /-- What goes wrong with the header of the error file. -/
  header : Option (WriteFault Bytes)
  /-- What the workers and the error file do, in order. -/
  moves : List Import.Move
  /-- What goes wrong with what has been held back of the error file until the end. -/
  rest : Option (WriteFault Bytes)

/-- Whether the number of workers is the one that an invocation asks for. When it asks for none, or
for zero, the machine decides. -/
def Course.suits (course : Course) (invocation : Invocation) : Bool :=
  0 < course.workers &&
    match invocation.workers with
    | some (count + 1) => course.workers == count + 1
    | _ => true

/-- Sends rows on workers. There is no outcome when the moves are not possible or lead to no end. -/
def Task.carryOutOn (task : Task) (course : Course) (files : FileTree) (exhausted : Reply)
    (replies : List Reply) : Option (Session.Dialogue.Replay Outcome) :=
  match course.header with
  | some fault =>
      some ⟨⟨.error (.errorHeader task.path fault.message), "", "", [],
        files.put task.names fault.left⟩, [], replies⟩
  | none =>
      let pool := Import.Pool.start course.workers task.rows replies
        (.start task.separator task.header)
      (pool.follow ⟨task.session, task.model, task.header, exhausted⟩ course.moves).bind fun pool =>
        if pool.finished then
          some ⟨task.outcome files (pool.close course.rest), pool.sent, pool.replies⟩
        else none

/-- Sends the rows of a file to the server on workers. -/
def sendOn {platform : Platform} (course : Course) (surroundings : Surroundings platform)
    (invocation : Invocation) (model : String) (offset limit : Nat) (file : DataFile)
    (exhausted : Reply) (replies : List Reply) : Option (Session.Dialogue.Replay Outcome) :=
  let prepared := (prepare surroundings invocation model offset limit file).replay exhausted replies
  match prepared.value with
  | .error failure =>
      some ⟨.failed surroundings.files failure, prepared.sent, prepared.unused⟩
  | .ok (.inl outcome) => some ⟨outcome, prepared.sent, prepared.unused⟩
  | .ok (.inr task) =>
      (task.carryOutOn course surroundings.files exhausted prepared.unused).map fun ended =>
        ⟨ended.value, prepared.sent ++ ended.sent, ended.unused⟩

/-- Carries out a command against a script of replies. An import takes the given course. -/
def runOn {platform : Platform} (course : Course) (surroundings : Surroundings platform)
    (invocation : Invocation) (exhausted : Reply) (replies : List Reply) :
    Option (Session.Dialogue.Replay Outcome) :=
  if course.suits invocation then
    match invocation.command with
    | .send model offset limit file =>
        sendOn course surroundings invocation model offset limit file exhausted replies
    | _ => some ((run surroundings invocation).replay exhausted replies)
  else none

end RemoteRecords.Run
