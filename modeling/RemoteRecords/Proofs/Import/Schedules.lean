import RemoteRecords.Proofs.Import.Workers

/-!
# Finished imports

A finished import on workers whose error file takes everything has done what an import in order does
to the rows in the order in which the workers have taken them (`refines_of_finished`). The results
can then be told in the order of the data file (`Refines.exists_results`).
-/

namespace RemoteRecords.Import

open Session (Reply Request)

/-! ## Rows on their way -/

theorem map_row_numberedFrom (number : Nat) (rows : List (List String)) :
    (numberedFrom number rows).map Numbered.row = rows := by
  induction rows generalizing number with
  | nil => rfl
  | cons row rows inductionHypothesis =>
      rw [numberedFrom, List.map_cons, inductionHypothesis]

section Unbroken

variable {alone : Prop} {job : Job} {separator : Table.Separator} {rows : List (List String)}
  {replies : List Reply} {pool : Pool} {history : History}
  (accounted : Accounted alone job separator rows replies pool history)

include accounted

theorem Accounted.mem_rows_of_seen {result : Result} (seen : result ∈ history.seen) :
    result.1.row ∈ rows := by
  have taken : result ∈ history.taken :=
    accounted.results.perm.subset (List.mem_append_left _ seen)
  have numbered : result.1 ∈ numberedFrom 1 rows :=
    accounted.rows.perm.subset (List.mem_append_left _ (List.mem_map_of_mem taken))
  rw [← map_row_numberedFrom 1 rows]
  exact List.mem_map_of_mem numbered

theorem Accounted.mem_rows_of_rejected {row : List String}
    (rejected : row ∈ history.seen.filterMap rejectedRow) : row ∈ rows := by
  obtain ⟨⟨item, result⟩, seen, found⟩ := List.mem_filterMap.1 rejected
  cases result with
  | ok done => cases found
  | error reason =>
      cases found
      exact accounted.mem_rows_of_seen seen

variable (fit : ∀ row ∈ rows, row.length = job.header.length)

include fit

/-- The error file takes the next row when all rows have the width of the header. -/
theorem Accounted.addRow_eq_ok (whole : pool.broken = none) {row : List String}
    {queue : List (List String)} (waiting : pool.queue = row :: queue) :
    (pool.errors.addRow row).1 = .ok () := by
  obtain ⟨-, -, -, -, errors⟩ := accounted.whole whole
  have fits : ∀ other, other ∈ history.written ∨ other ∈ pool.queue →
      other.length = job.header.length := by
    intro other member
    refine fit other (accounted.mem_rows_of_rejected (accounted.rejected.perm.subset ?_))
    simp only [List.mem_append]
    exact member.imp id fun queued => .inr (.inl queued)
  have rowFits : row.length = job.header.length :=
    fits row (.inr (waiting ▸ List.mem_cons_self))
  rw [errors, Table.Writer.start_eq, Table.Writer.addRows_atRowStart separator _
    fun other written => fits other (.inl written),
    Table.Writer.addRow_atRowStart separator _ rowFits]

theorem Accounted.broken_step (whole : pool.broken = none) {move : Move}
    (undisturbed : ∀ fault, move ≠ .refuse fault) {next : Pool}
    (stepped : Stepped job pool move next) : next.broken = none := by
  cases stepped with
  | @see place share item result here =>
      rcases result with reason | done
      · exact whole
      · cases done <;> exact whole
  | misfit _ waiting refused =>
      have taken := accounted.addRow_eq_ok fit whole waiting
      rw [refused] at taken
      cases taken
  | refuse fault _ waiting => exact absurd rfl (undisturbed fault)
  | _ => exact whole

/-- An error file that the system always lets take its rows does not break. -/
theorem Accounted.broken_follow (whole : pool.broken = none) {moves : List Move}
    (undisturbed : ∀ fault, Move.refuse fault ∉ moves) {next : Pool}
    (reached : pool.follow job moves = some next) : next.broken = none := by
  induction moves generalizing pool history with
  | nil =>
      cases reached
      exact whole
  | cons move moves inductionHypothesis =>
      obtain ⟨middle, step, followed⟩ := Option.bind_eq_some_iff.1 reached
      have stepped := stepped_of_step step
      obtain ⟨later, accountedLater, -⟩ := accounted.step stepped
      have wholeLater := accounted.broken_step fit whole
        (fun fault same => undisturbed fault (same ▸ List.mem_cons_self)) stepped
      exact inductionHypothesis accountedLater wholeLater
        (fun fault later => undisturbed fault (List.mem_cons_of_mem _ later)) followed

end Unbroken

/-! ## Finished pools -/

theorem worker_eq_of_finished {pool : Pool} (finished : pool.finished = true) {worker : Worker}
    (member : worker ∈ pool.workers) : worker = ⟨[], .idle⟩ := by
  rw [Pool.finished, Bool.and_eq_true, List.all_eq_true] at finished
  have through := finished.1 worker member
  rw [Worker.isThrough.eq_def] at through
  split at through
  · rfl
  · cases through

theorem flatMap_of_finished {α : Type} {pool : Pool} (finished : pool.finished = true)
    (f : Worker → List α) (nothing : f ⟨[], .idle⟩ = []) : pool.workers.flatMap f = [] := by
  rw [List.flatMap_eq_nil_iff]
  intro worker member
  rw [worker_eq_of_finished finished member, nothing]

theorem queue_of_finished {pool : Pool} (finished : pool.finished = true)
    (whole : pool.broken = none) : pool.queue = [] := by
  rw [Pool.finished, Bool.and_eq_true, whole] at finished
  exact List.isEmpty_iff.1 finished.2

theorem undone_rowsOf (results : List Result) :
    undone (rowsOf results) (results.map fun result => result.2.toOption) =
      results.filterMap rejectedRow := by
  induction results with
  | nil => rfl
  | cons result results inductionHypothesis =>
      obtain ⟨item, result⟩ := result
      rw [rowsOf, List.map_cons, List.map_cons, undone_cons]
      cases result with
      | ok done => exact inductionHypothesis
      | error reason => exact congrArg (item.row :: ·) inductionHypothesis

theorem count_none_results (results : List Result) :
    (results.map fun result => result.2.toOption).count none =
      (results.filterMap rejectedRow).length := by
  induction results with
  | nil => rfl
  | cons result results inductionHypothesis =>
      obtain ⟨item, result⟩ := result
      rw [List.map_cons, List.count_cons, inductionHypothesis]
      cases result <;> rfl

theorem rowsOf_eq_map (results : List Result) :
    rowsOf results = (results.map Prod.fst).map Numbered.row :=
  (List.map_map ..).symm

theorem close_of_whole {pool : Pool} (whole : pool.broken = none) :
    pool.close none = ⟨.ok ⟨pool.created, pool.updated, pool.failed⟩, pool.errors.bytes,
      pool.progress.finish, pool.warnings⟩ := by
  simp only [Pool.close, whole]

/-- An import fails when its error file breaks, or when this file cannot be closed. -/
theorem close_cases (pool : Pool) (rest : Option (WriteFault Bytes)) :
    (∃ refusal, (pool.close rest).outcome = .error refusal ∧
      (pool.close rest).progress = pool.progress) ∨ pool.broken = none ∧ rest = none := by
  cases broken : pool.broken with
  | some refusal =>
      refine .inl ⟨refusal, ?_⟩
      cases refusal <;> simp only [Pool.close, broken, and_self]
  | none =>
      cases rest with
      | some fault => exact .inl ⟨.fault fault, by simp only [Pool.close, broken, and_self]⟩
      | none => exact .inr ⟨rfl, rfl⟩

/-- One worker with one rejected row, which the system does not let the error file take. -/
def losing (fault : WriteFault Bytes) : List Move :=
  [.pick 0, .send 0, .see 0, .hand 0, .refuse fault, .count 0]

/-- What workers have done is what an import in order does to rows in the order in which they have
been taken. The rows in the error file are those of this import in some order. With one worker both
orders are as in the data file. -/
structure Refines (workers : Nat) (separator : Table.Separator) (job : Job)
    (rows : List (List String)) (replies : List Reply) (pool : Pool) (taken : List Result)
    (rejected : List (List String)) : Prop where
  rows : Rearranged (workers = 1) (taken.map Prod.fst) (numberedFrom 1 rows)
  accounts : Accounts separator job.session job.model job.header (rowsOf taken) job.exhausted
    replies (replayImport separator job.session job.model job.header (rowsOf taken) job.exhausted
      replies) (taken.map fun result => result.2.toOption)
  sent : pool.sent = (replayImport separator job.session job.model job.header (rowsOf taken)
    job.exhausted replies).sent
  unused : pool.replies = (replayImport separator job.session job.model job.header (rowsOf taken)
    job.exhausted replies).unused
  outcome : (pool.close none).outcome = .ok
    ⟨(taken.map fun result => result.2.toOption).count (some .created),
      (taken.map fun result => result.2.toOption).count (some .updated),
      (taken.map fun result => result.2.toOption).count none⟩
  errors : (pool.close none).errors =
    ((Table.Writer.start separator job.header).addRows rejected).bytes
  rejected : Rearranged (workers = 1) rejected (taken.filterMap rejectedRow)
  warnings : Rearranged (workers = 1) (pool.close none).warnings (taken.filterMap warningOf)

theorem refines_of_finished {workers : Nat} {separator : Table.Separator} {job : Job}
    {rows : List (List String)} {replies : List Reply}
    (fit : ∀ row ∈ rows, row.length = job.header.length) {moves : List Move}
    (undisturbed : ∀ fault, Move.refuse fault ∉ moves) {pool : Pool}
    (reached : (Pool.start workers rows replies (.start separator job.header)).follow job moves =
      some pool)
    (finished : pool.finished = true) :
    ∃ taken rejected, Refines workers separator job rows replies pool taken rejected := by
  have begins := accounted_start separator job rows replies workers
  obtain ⟨history, accounted⟩ := begins.follow reached
  have whole := begins.broken_follow fit rfl undisturbed reached
  obtain ⟨-, nobody, nothing, failed, errors⟩ := accounted.whole whole
  have rowsTaken := accounted.rows
  have results := accounted.results
  have rejected := accounted.rejected
  rw [Pool.unsent, flatMap_of_finished finished Worker.unsent rfl, nobody, List.append_nil,
    List.append_nil] at rowsTaken
  rw [Pool.unseen, flatMap_of_finished finished Worker.unseen rfl, List.append_nil] at results
  rw [Pool.handed, flatMap_of_finished finished Worker.handed rfl, nothing,
    queue_of_finished finished whole, List.append_nil, List.append_nil, List.append_nil]
    at rejected
  have ends := results.map fun result => result.2.toOption
  have written := rejected.trans (results.filterMap rejectedRow)
  have orderFits : ∀ row ∈ rowsOf history.taken, row.length = job.header.length := by
    intro row member
    refine fit row ?_
    rw [← map_row_numberedFrom 1 rows]
    rw [rowsOf_eq_map] at member
    exact (rowsTaken.perm.map Numbered.row).subset member
  have account := accounts_fates separator job.session job.model job.exhausted replies orderFits
  rw [← accounted.fates] at account
  have count : (history.taken.map fun result => result.2.toOption).count none =
      history.written.length := (count_none_results history.taken).trans written.perm.length_eq.symm
  refine ⟨history.taken, history.written, rowsTaken, account, ?_, ?_, ?_, ?_, written, ?_⟩
  · rw [account.sent, accounted.sent]
  · rw [account.unused, account.sent, accounted.unused, accounted.sent]
  · rw [close_of_whole whole, accounted.created, accounted.updated, failed, count,
      ends.perm.count_eq, ends.perm.count_eq]
  · rw [close_of_whole whole, errors]
  · rw [close_of_whole whole, accounted.warnings]
    exact results.filterMap warningOf

section Ends

variable {workers : Nat} {separator : Table.Separator} {job : Job} {rows : List (List String)}
  {replies : List Reply} {pool : Pool} {taken : List Result} {rejected : List (List String)}
  (refines : Refines workers separator job rows replies pool taken rejected)

include refines

/-- The results in the order of the data file. -/
theorem Refines.exists_results :
    ∃ results : List Result, results.map Prod.fst = numberedFrom 1 rows ∧
      Rearranged (workers = 1) taken results :=
  refines.rows.exists_map_eq Prod.fst

theorem Refines.rejected_undone {results : List Result}
    (file : results.map Prod.fst = numberedFrom 1 rows)
    (same : Rearranged (workers = 1) taken results) :
    Rearranged (workers = 1) rejected
      (undone rows (results.map fun result => result.2.toOption)) := by
  have inFile : rowsOf results = rows := by
    rw [rowsOf_eq_map, file, map_row_numberedFrom]
  have missing := undone_rowsOf results
  rw [inFile] at missing
  rw [missing]
  exact refines.rejected.trans (same.filterMap rejectedRow)

theorem Refines.sent_perm :
    Rearranged (workers = 1) pool.sent
      (rows.filterMap (requestOf job.session job.model job.header)) := by
  have order := (refines.rows.map Numbered.row).filterMap
    (requestOf job.session job.model job.header)
  rw [map_row_numberedFrom, ← rowsOf_eq_map] at order
  rw [refines.sent, refines.accounts.sent]
  exact order

end Ends

end RemoteRecords.Import
