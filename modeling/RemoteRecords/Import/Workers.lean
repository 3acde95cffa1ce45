import RemoteRecords.Import.Run

namespace RemoteRecords.Import

/-! ## Workers -/

/-- A row of a data file by its number. -/
structure Numbered where
  number : Nat
  row : List String
  deriving DecidableEq

/-- Rows with their numbers, the first of which is given. -/
def numberedFrom (number : Nat) : List (List String) → List Numbered
  | [] => []
  | row :: rows => ⟨number, row⟩ :: numberedFrom (number + 1) rows

/-- What a worker is at. -/
inductive Activity where
  | idle
  /-- It is about to send a row, which nobody takes from it any more. -/
  | begun (item : Numbered)
  /-- It has posted what a row asks for, if anything, and is about to see the result. -/
  | sending (item : Numbered) (result : Except Rejection Done)
  /-- It has a rejected row for the error file. -/
  | handing (row : List String)
  /-- It has done with a row that is not counted yet. -/
  | counting
  /-- It has a count to show. -/
  | showing (count : Nat)

/-- A worker with the rows that it has still to begin, in order. -/
structure Worker where
  share : List Numbered
  activity : Activity

/-- Whether a worker has nothing to do. -/
def Worker.isThrough : Worker → Bool
  | ⟨[], .idle⟩ => true
  | _ => false

/-- How many rejected rows can be on their way to the error file: 64 in the queue and the one that
is being written. -/
def queueBound : Nat := 65

/-- An import that workers have under way. -/
structure Pool where
  workers : List Worker
  /-- The replies to come. -/
  replies : List Session.Reply
  sent : List Session.Request
  created : Nat
  updated : Nat
  warnings : List Warning
  /-- Rejected rows on their way to the error file. -/
  queue : List (List String)
  /-- How many rows the error file has taken. -/
  failed : Nat
  errors : Table.Writer
  broken : Option Refusal
  /-- Whether a worker could not get rid of a rejected row, so that all are to give up. -/
  stopped : Bool
  progress : Progress

/-- What the rows of an import are sent with. -/
structure Job where
  session : Session
  model : String
  header : List String
  /-- What every further post gets when no reply is left. -/
  exhausted : Session.Reply

/-! ## Moves -/

/-- What can happen next. Workers are named by their places. -/
inductive Move where
  /-- An idle worker without rows takes over those that another one has behind the first `kept`. -/
  | steal (thief victim kept : Nat)
  | pick (place : Nat)
  | send (place : Nat)
  | see (place : Nat)
  | hand (place : Nat)
  | count (place : Nat)
  | display (place : Nat)
  | quit (place : Nat)
  /-- The error file takes a row. -/
  | write
  /-- The system does not let the error file take a row. -/
  | refuse (fault : WriteFault Bytes)

namespace Pool

/-- The pool with another worker at a place. -/
def assign (pool : Pool) (place : Nat) (worker : Worker) : Pool :=
  { pool with workers := pool.workers.set place worker }

/-- An idle worker without rows begins the first of the rows that it takes over. -/
def steal (pool : Pool) (thief victim kept : Nat) : Option Pool :=
  match pool.workers[thief]?, pool.workers[victim]? with
  | some ⟨[], .idle⟩, some ⟨share, activity⟩ =>
      match share.drop kept with
      | item :: rest =>
          some ((pool.assign victim ⟨share.take kept, activity⟩).assign thief ⟨rest, .begun item⟩)
      | [] => none
  | _, _ => none

/-- A worker begins the first row of its share. -/
def pick (pool : Pool) (place : Nat) : Option Pool :=
  match pool.workers[place]? with
  | some ⟨item :: share, .idle⟩ => some (pool.assign place ⟨share, .begun item⟩)
  | _ => none

/-- A worker posts what its row asks for. The reply is the next one. -/
def send (pool : Pool) (job : Job) (place : Nat) : Option Pool :=
  match pool.workers[place]? with
  | some ⟨share, .begun item⟩ =>
      let ended := (sendRow job.session job.model job.header item.row).replay job.exhausted
        pool.replies
      some { pool.assign place ⟨share, .sending item ended.value⟩ with
        replies := ended.unused, sent := pool.sent ++ ended.sent }
  | _ => none

/-- The pool behind a row whose result is there. -/
def settle (pool : Pool) (place : Nat) (share : List Numbered) (item : Numbered) :
    Except Rejection Done → Pool
  | .ok .created =>
      { pool.assign place ⟨share, .counting⟩ with created := pool.created + 1 }
  | .ok .updated =>
      { pool.assign place ⟨share, .counting⟩ with updated := pool.updated + 1 }
  | .error reason =>
      { pool.assign place ⟨share, .handing item.row⟩ with
        warnings := pool.warnings ++ [⟨item.number, reason⟩] }

/-- A worker sees the result of its row. -/
def see (pool : Pool) (place : Nat) : Option Pool :=
  match pool.workers[place]? with
  | some ⟨share, .sending item result⟩ => some (pool.settle place share item result)
  | _ => none

/-- A worker puts its rejected row into the queue once there is room. When the error file is broken
it gives up, and all others are to do so. -/
def hand (pool : Pool) (place : Nat) : Option Pool :=
  match pool.workers[place]? with
  | some ⟨share, .handing row⟩ =>
      if pool.broken.isSome then some { pool.assign place ⟨[], .idle⟩ with stopped := true }
      else if pool.queue.length < queueBound then
        some { pool.assign place ⟨share, .counting⟩ with queue := pool.queue ++ [row] }
      else none
  | _ => none

/-- A worker counts a row; showing the new count, if need be, is a move of its own. -/
def count (pool : Pool) (place : Nat) : Option Pool :=
  match pool.workers[place]? with
  | some ⟨share, .counting⟩ =>
      let progress := pool.progress.add 1
      let next : Activity := if pool.progress.passes 1 then .showing progress.count else .idle
      some { pool.assign place ⟨share, next⟩ with progress }
  | _ => none

def display (pool : Pool) (place : Nat) : Option Pool :=
  match pool.workers[place]? with
  | some ⟨share, .showing count⟩ =>
      some { pool.assign place ⟨share, .idle⟩ with progress := pool.progress.display count }
  | _ => none

/-- A worker gives up the rest of its share after another one has given up. -/
def quit (pool : Pool) (place : Nat) : Option Pool :=
  match pool.workers[place]? with
  | some ⟨_ :: _, .idle⟩ => if pool.stopped then some (pool.assign place ⟨[], .idle⟩) else none
  | _ => none

/-- The first row of the queue goes to the error file. When it cannot be taken, the queue ends. -/
def write (pool : Pool) : Option Pool :=
  match pool.broken, pool.queue with
  | none, row :: queue =>
      match pool.errors.addRow row with
      | (.ok _, errors) => some { pool with queue, errors, failed := pool.failed + 1 }
      | (.error mismatch, errors) =>
          some { pool with queue := [], errors, broken := some (.width mismatch) }
  | _, _ => none

def refuse (pool : Pool) (fault : WriteFault Bytes) : Option Pool :=
  match pool.broken, pool.queue with
  | none, _ :: _ => some { pool with queue := [], broken := some (.fault fault) }
  | _, _ => none

/-- The pool behind a move, if the move is possible. -/
def step (job : Job) (pool : Pool) : Move → Option Pool
  | .steal thief victim kept => pool.steal thief victim kept
  | .pick place => pool.pick place
  | .send place => pool.send job place
  | .see place => pool.see place
  | .hand place => pool.hand place
  | .count place => pool.count place
  | .display place => pool.display place
  | .quit place => pool.quit place
  | .write => pool.write
  | .refuse fault => pool.refuse fault

/-- The pool behind moves in order, if all are possible. -/
def follow (job : Job) (pool : Pool) : List Move → Option Pool
  | [] => some pool
  | move :: moves => (pool.step job move).bind fun next => next.follow job moves

/-! ## Beginning and end -/

/-- A pool of at least one worker. The first one has all rows. -/
def start (workers : Nat) (rows : List (List String)) (replies : List Session.Reply)
    (errors : Table.Writer) : Pool where
  workers := ⟨numberedFrom 1 rows, .idle⟩ :: List.replicate (workers - 1) ⟨[], .idle⟩
  replies
  sent := []
  created := 0
  updated := 0
  warnings := []
  queue := []
  failed := 0
  errors
  broken := none
  stopped := false
  progress := (Import.start errors).progress

/-- No worker has anything to do, and the error file has taken what is in the queue. -/
def finished (pool : Pool) : Bool :=
  pool.workers.all Worker.isThrough && (pool.broken.isSome || pool.queue.isEmpty)

end Pool

/-- Closes the error file, which may lose what has been held back. -/
def Pool.close (pool : Pool) (rest : Option (WriteFault Bytes)) : Closing :=
  match pool.broken, rest with
  | some (.width mismatch), rest =>
      ⟨.error (.width mismatch), (rest.map (·.left)).getD pool.errors.bytes, pool.progress,
        pool.warnings⟩
  | some (.fault fault), _ => ⟨.error (.fault fault), fault.left, pool.progress, pool.warnings⟩
  | none, some fault => ⟨.error (.fault fault), fault.left, pool.progress, pool.warnings⟩
  | none, none =>
      ⟨.ok ⟨pool.created, pool.updated, pool.failed⟩, pool.errors.bytes, pool.progress.finish,
        pool.warnings⟩

end RemoteRecords.Import
