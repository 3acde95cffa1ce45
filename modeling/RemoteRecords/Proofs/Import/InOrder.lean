import RemoteRecords.Proofs.Import.Workers

/-!
# The import of rows one after another

What an import does that sends one row after another is what a single worker does when each rejected
row is written at once (`exists_schedule`), also when a row does not have the width of the header.
-/

namespace RemoteRecords.Import

open Session (Reply Request)

/-- A pool of one worker that is between two rows. -/
def State.pool (state : State) (share : List Numbered) (replies : List Reply)
    (sent : List Request) : Pool where
  workers := [⟨share, .idle⟩]
  replies
  sent
  created := state.created
  updated := state.updated
  warnings := state.warnings
  queue := []
  failed := state.failed
  errors := state.errors
  broken := state.broken.map .width
  stopped := false
  progress := state.progress

/-- The moves with which a row is counted. -/
def counting (progress : Progress) : List Move :=
  if progress.passes 1 then [.count 0, .display 0] else [.count 0]

/-- The moves of a row between its result and its count. -/
def settling : Except Rejection Done → List Move
  | .ok _ => [.see 0]
  | .error _ => [.see 0, .hand 0, .write]

/-- The moves of a row. -/
def movesOf (progress : Progress) (result : Except Rejection Done) : List Move :=
  [.pick 0, .send 0] ++ settling result ++ counting progress

theorem follow_append (job : Job) (pool : Pool) (moves more : List Move) :
    pool.follow job (moves ++ more) =
      (pool.follow job moves).bind fun next => next.follow job more := by
  induction moves generalizing pool with
  | nil => rfl
  | cons move moves inductionHypothesis =>
      simp only [List.cons_append, Pool.follow, inductionHypothesis, Option.bind_assoc]

theorem follow_counting (job : Job) (pool : Pool) {share : List Numbered}
    (alone : pool.workers = [⟨share, .counting⟩]) :
    pool.follow job (counting pool.progress) =
      some { pool with workers := [⟨share, .idle⟩], progress := pool.progress.advance 1 } := by
  rw [counting, Progress.advance_eq]
  split <;>
    simp_all [Pool.follow, Pool.step, Pool.count, Pool.display, Pool.assign]

section Row

variable (job : Job) (state : State) (item : Numbered) (share : List Numbered)
  (replies : List Reply) (sent : List Request)

/-- The pool in which the row of an item has been sent. -/
def sentPool (result : Except Rejection Done) : Pool :=
  let posted := (requestOf job.session job.model job.header item.row).toList
  { state.pool share (replies.drop posted.length) (sent ++ posted) with
    workers := [⟨share, .sending item result⟩] }

/-- The pool in which the row of an item is settled and not counted yet. -/
def settledPool (result : Except Rejection Done) : Pool :=
  let posted := (requestOf job.session job.model job.header item.row).toList
  { (state.settle item.number item.row result).pool share (replies.drop posted.length)
      (sent ++ posted) with
    workers := [⟨share, .counting⟩], progress := state.progress }

variable {result : Except Rejection Done}

theorem follow_begin
    (ended : verdict job.session job.header item.row (replies.headD job.exhausted) = result) :
    (state.pool (item :: share) replies sent).follow job [.pick 0, .send 0] =
      some (sentPool job state item share replies sent result) := by
  simp only [Pool.follow, Pool.step, Pool.pick, Pool.send, Pool.assign, State.pool, replay_sendRow,
    List.getElem?_cons_zero, List.set_cons_zero, Option.bind_some, sentPool, ended]

theorem follow_settling (goesOn : result.isOk = true ∨ state.broken = none) :
    (sentPool job state item share replies sent result).follow job (settling result) =
      some (settledPool job state item share replies sent result) := by
  cases result with
  | ok done =>
      cases done <;>
        simp [settling, Pool.follow, Pool.step, Pool.see, Pool.settle, Pool.assign, sentPool,
          settledPool, State.settle, State.accept, State.pool]
  | error reason =>
      have whole : state.broken = none := goesOn.resolve_left Bool.false_ne_true
      rcases taken : state.errors.addRow item.row with ⟨result, errors⟩
      cases result <;>
        simp [settling, Pool.follow, Pool.step, Pool.see, Pool.hand, Pool.write, Pool.settle,
          Pool.assign, sentPool, settledPool, whole, taken, State.settle, State.reject,
          State.pool, queueBound]

theorem progress_settle (number : Nat) (row : List String) (result : Except Rejection Done) :
    (state.settle number row result).progress = state.progress.advance 1 := by
  cases result with
  | ok done => cases done <;> rfl
  | error reason =>
      rw [State.settle, State.reject]
      split <;> rfl

theorem follow_movesOf
    (ended : verdict job.session job.header item.row (replies.headD job.exhausted) = result)
    (goesOn : result.isOk = true ∨ state.broken = none) :
    let posted := (requestOf job.session job.model job.header item.row).toList
    (state.pool (item :: share) replies sent).follow job (movesOf state.progress result) =
      some ((state.settle item.number item.row result).pool share (replies.drop posted.length)
        (sent ++ posted)) := by
  intro posted
  have counted := follow_counting job (settledPool job state item share replies sent result) rfl
  rw [movesOf, List.append_assoc, follow_append,
    follow_begin job state item share replies sent ended, Option.bind_some, follow_append,
    follow_settling job state item share replies sent goesOn, Option.bind_some]
  refine counted.trans ?_
  rw [State.pool, progress_settle]
  rfl

/-- With a broken error file the next rejected row is the last. -/
theorem follow_last {reason : Rejection}
    (ended : verdict job.session job.header item.row (replies.headD job.exhausted) =
      .error reason)
    (broken : state.broken.isSome = true) :
    let posted := (requestOf job.session job.model job.header item.row).toList
    (state.pool (item :: share) replies sent).follow job [.pick 0, .send 0, .see 0, .hand 0] =
      some { ({ state with warnings := state.warnings ++ [⟨item.number, reason⟩] } : State).pool []
          (replies.drop posted.length) (sent ++ posted) with stopped := true } := by
  intro posted
  have began := follow_append job (state.pool (item :: share) replies sent) [.pick 0, .send 0]
    [.see 0, .hand 0]
  rw [follow_begin job state item share replies sent ended, Option.bind_some] at began
  refine began.trans ?_
  simp [Pool.follow, Pool.step, Pool.see, Pool.hand, Pool.settle, Pool.assign, sentPool, broken,
    State.pool, posted]

end Row

theorem refuse_not_mem_movesOf (progress : Progress) (result : Except Rejection Done)
    (fault : WriteFault Bytes) : Move.refuse fault ∉ movesOf progress result := by
  rw [movesOf, counting]
  split <;> cases result <;> simp [settling]

theorem close_pool (state : State) (share : List Numbered) (replies : List Reply)
    (sent : List Request) (stopped : Bool) :
    ({ state.pool share replies sent with stopped } : Pool).close none = state.report.closing := by
  cases broken : state.broken <;>
    simp [Pool.close, State.pool, State.report, Report.closing, broken, Except.mapError]

section Rows

variable (job : Job) {state : State} (number : Nat) {row : List String}
  (rows : List (List String)) {replies : List Reply} {result : Except Rejection Done}

theorem replay_sendRows_of_goesOn
    (settled : verdict job.session job.header row (replies.headD job.exhausted) = result)
    (goesOn : result.isOk = true ∨ state.broken = none) :
    (sendRows job.session job.model job.header number (row :: rows) state).replay job.exhausted
        replies =
      let posted := (requestOf job.session job.model job.header row).toList
      let later := (sendRows job.session job.model job.header (number + 1) rows
        (state.settle number row result)).replay job.exhausted (replies.drop posted.length)
      ⟨later.value, posted ++ later.sent, later.unused⟩ := by
  rw [sendRows, Session.Dialogue.replay_bind, replay_sendRow, settled]
  cases result with
  | ok done => rfl
  | error reason =>
      have whole : state.broken = none := goesOn.resolve_left Bool.false_ne_true
      simp only [whole, Option.isSome_none, State.settle]
      rfl

theorem replay_sendRows_of_last {reason : Rejection}
    (settled : verdict job.session job.header row (replies.headD job.exhausted) = .error reason)
    (broken : state.broken.isSome = true) :
    (sendRows job.session job.model job.header number (row :: rows) state).replay job.exhausted
        replies =
      let posted := (requestOf job.session job.model job.header row).toList
      ⟨{ state with warnings := state.warnings ++ [⟨number, reason⟩] }, posted,
        replies.drop posted.length⟩ := by
  rw [sendRows, Session.Dialogue.replay_bind, replay_sendRow, settled]
  simp only [broken, if_true, Session.Dialogue.replay, List.append_nil]

/-- One worker can do what sending the rows one after another does. -/
theorem exists_moves (state : State) (replies : List Reply) (sent : List Request) :
    let ended := (sendRows job.session job.model job.header number rows state).replay job.exhausted
      replies
    ∃ moves pool, (∀ fault, Move.refuse fault ∉ moves) ∧
      (state.pool (numberedFrom number rows) replies sent).follow job moves = some pool ∧
      pool.finished = true ∧ pool.close none = ended.value.report.closing ∧
      pool.sent = sent ++ ended.sent ∧ pool.replies = ended.unused := by
  induction rows generalizing number state replies sent with
  | nil =>
      have closed := close_pool state [] replies sent false
      refine ⟨[], state.pool [] replies sent, fun _ => List.not_mem_nil, rfl, ?_, closed, ?_, rfl⟩
      · simp [Pool.finished, State.pool, Worker.isThrough]
      · exact (List.append_nil sent).symm
  | cons row rows inductionHypothesis =>
      obtain ⟨result, settled⟩ : ∃ result,
          verdict job.session job.header row (replies.headD job.exhausted) = result := ⟨_, rfl⟩
      by_cases goesOn : result.isOk = true ∨ state.broken = none
      · obtain ⟨moves, pool, undisturbed, followed, finished, closed, posts, unused⟩ :=
          inductionHypothesis (number + 1) (state.settle number row result)
            (replies.drop (requestOf job.session job.model job.header row).toList.length)
            (sent ++ (requestOf job.session job.model job.header row).toList)
        have first := follow_movesOf job state ⟨number, row⟩ (numberedFrom (number + 1) rows) replies
          sent settled goesOn
        rw [replay_sendRows_of_goesOn job number rows settled goesOn]
        refine ⟨movesOf state.progress result ++ moves, pool, ?_, ?_, finished, closed, ?_, unused⟩
        · intro fault member
          rcases List.mem_append.1 member with here | later
          · exact refuse_not_mem_movesOf _ _ fault here
          · exact undisturbed fault later
        · rw [numberedFrom, follow_append, first, Option.bind_some]
          exact followed
        · rw [posts, List.append_assoc]
      · obtain ⟨notOk, notWhole⟩ := not_or.1 goesOn
        have broken : state.broken.isSome = true := Option.ne_none_iff_isSome.1 notWhole
        cases result with
        | ok done => exact absurd rfl notOk
        | error reason =>
            rw [replay_sendRows_of_last job number rows settled broken]
            refine ⟨_, _, ?_, follow_last job state ⟨number, row⟩ (numberedFrom (number + 1) rows)
              replies sent settled broken, ?_, close_pool _ _ _ _ true, rfl, rfl⟩
            · simp
            · simp [Pool.finished, State.pool, Worker.isThrough, broken]

end Rows

/-- An import of rows one after another is one of the schedules of a single worker. -/
theorem exists_schedule (separator : Table.Separator) (job : Job) (rows : List (List String))
    (replies : List Reply) :
    let ended := replayImport separator job.session job.model job.header rows job.exhausted replies
    ∃ moves pool, (∀ fault, Move.refuse fault ∉ moves) ∧
      (Pool.start 1 rows replies (.start separator job.header)).follow job moves = some pool ∧
      pool.finished = true ∧ pool.close none = ended.value.closing ∧ pool.sent = ended.sent ∧
      pool.replies = ended.unused := by
  have schedule := exists_moves job 1 rows (start (.start separator job.header)) replies []
  rw [replayImport, importRows, Session.Dialogue.replay_map]
  exact schedule

end RemoteRecords.Import
