import RemoteRecords.Proofs.Import.Ending
import RemoteRecords.Proofs.Import.Schedules
import RemoteRecords.Proofs.Table.RoundTrip
import RemoteRecords.Table.File

/-!
# Retrying rejected rows

The error file of an import is a table of the rows that were neither created nor updated. When this
table is imported, what these rows ask for is posted again (`workers_errors_read_back`). With one
worker the rows are in the order of the data file; several workers can bring them into another one,
and a fault of the system can keep a row out of the file (`errors_out_of_order_or_lost`).
-/

namespace RemoteRecords.Import

open Session (Reply)

/-- The error file of a finished import as a table. `results` are those of the rows of the data file
in its order, `rejected` the rows in the error file. -/
structure ReadsBack (workers : Nat) (separator : Table.Separator) (job : Job)
    (rows : List (List String)) (replies : List Reply) (pool : Pool)
    (taken results : List Result) (rejected : List (List String)) : Prop where
  refines : Refines workers separator job rows replies pool taken rejected
  file : results.map Prod.fst = numberedFrom 1 rows
  same : Rearranged (workers = 1) taken results
  table : Table.ofBytes separator (pool.close none).errors = .ok ⟨job.header, rejected⟩
  undone : Rearranged (workers = 1) rejected
    (undone rows (results.map fun result => result.2.toOption))
  read : ∀ (files : FileTree) (path : Path),
    files.openFile path = .ok (some (pool.close none).errors) →
      Table.read files path separator = .ok ⟨job.header, rejected⟩
  /-- An import of the error file posts what the rows ask for that have not been done. -/
  retried : ∀ (later : Job) (laterWorkers : Nat) (laterReplies : List Reply) (moves : List Move)
    (laterPool : Pool), later.header = job.header → (∀ fault, Move.refuse fault ∉ moves) →
      (Pool.start laterWorkers rejected laterReplies (.start separator later.header)).follow later
        moves = some laterPool → laterPool.finished = true →
      Rearranged (workers = 1 ∧ laterWorkers = 1) laterPool.sent
        ((Import.undone rows (results.map fun result => result.2.toOption)).filterMap
          (requestOf later.session later.model later.header))

/-- An import comes to its end whatever its workers do. When the system lets the error file take
every row, it is read back as the header and the rows with which nothing has been done, each once
and cell for cell, and an import of it posts what these rows ask for. With one worker they are in the
order of the data file. -/
theorem workers_errors_read_back {separator : Table.Separator} (ordinary : separator.Ordinary)
    {job : Job} (readable : Table.ReadableHeader job.header) {rows : List (List String)}
    (fit : ∀ row ∈ rows, row.length = job.header.length) (workers : Nat) (replies : List Reply) :
    (∀ moves pool,
      (Pool.start workers rows replies (.start separator job.header)).follow job moves =
        some pool →
      moves.length ≤ 7 * rows.length ∧ ∃ more final, (∀ fault, Move.refuse fault ∉ more) ∧
        pool.follow job more = some final ∧ final.finished = true) ∧
    ∀ moves pool, (∀ fault, Move.refuse fault ∉ moves) →
      (Pool.start workers rows replies (.start separator job.header)).follow job moves =
        some pool →
      pool.finished = true →
      ∃ taken results rejected,
        ReadsBack workers separator job rows replies pool taken results rejected := by
  refine ⟨fun moves pool => always_ends job workers rows replies _, ?_⟩
  intro moves pool undisturbed reached finished
  obtain ⟨taken, rejected, refines⟩ := refines_of_finished fit undisturbed reached finished
  obtain ⟨results, file, same⟩ := refines.exists_results
  have undone := refines.rejected_undone file same
  have rejectedFit : ∀ row ∈ rejected, row.length = job.header.length := fun row member =>
    undone_fit fit _ row (undone.perm.subset member)
  have table : Table.ofBytes separator (pool.close none).errors = .ok ⟨job.header, rejected⟩ := by
    rw [refines.errors]
    exact Table.ofBytes_bytes_addRows ordinary readable rejectedFit
  refine ⟨taken, results, rejected, refines, file, same, table, undone, ?_, ?_⟩
  · intro files path opened
    simp only [Table.read, opened, table]
  · intro later laterWorkers laterReplies laterMoves laterPool sameHeader smooth followed ended
    obtain ⟨laterTaken, laterRejected, laterRefines⟩ := refines_of_finished
      (sameHeader ▸ rejectedFit) smooth followed ended
    have sent : Rearranged (workers = 1 ∧ laterWorkers = 1) laterPool.sent _ :=
      laterRefines.sent_perm.mono And.right
    exact sent.trans ((undone.mono And.left).filterMap _)

/-- Two workers: the second one takes over the second row and is done with it first. -/
def overtaking : List Move :=
  [.steal 1 0 1, .pick 0, .send 0, .send 1, .see 1, .hand 1, .count 1, .see 0, .hand 0, .count 0,
    .write, .write]

theorem undisturbed_overtaking (fault : WriteFault Bytes) : Move.refuse fault ∉ overtaking := by
  simp [overtaking]

theorem workers_errors_read_back_quoted_cells :
    let job : Job := ⟨plainSession, "res.partner", ["id", "name"], .error .post⟩
    let rows := [["5", "Azure, \"Interior\""], ["x", "two\r\nlines"]]
    let replies := [replyWith (.bool false)]
    let run := (Pool.start 2 rows replies (.start .comma job.header)).follow job overtaking
    Table.Separator.comma.Ordinary ∧ Table.ReadableHeader job.header ∧
      (∀ row ∈ rows, row.length = job.header.length) ∧
      (∀ fault, Move.refuse fault ∉ overtaking) ∧
      ∃ pool, run = some pool ∧ pool.finished = true ∧
        ∃ taken results rejected,
          ReadsBack 2 .comma job rows replies pool taken results rejected := by
  intro job rows replies run
  have ordinary : Table.Separator.comma.Ordinary := by
    refine ⟨?_, ?_, ?_⟩ <;> decide
  have readable : Table.ReadableHeader job.header := ⟨"id", ["name"], rfl, by decide⟩
  have fit : ∀ row ∈ rows, row.length = job.header.length := by decide
  have through : run.map Pool.finished = some true := by decide +kernel
  obtain ⟨pool, reached, finished⟩ := Option.map_eq_some_iff.1 through
  have readBack := (workers_errors_read_back ordinary readable fit 2 replies).2 overtaking pool
    undisturbed_overtaking reached finished
  exact ⟨ordinary, readable, fit, undisturbed_overtaking, pool, reached, finished, readBack⟩

/-- A row that the server does not write and one that is not sent stand in the error file in the
other order than in the data file. When the system does not let the error file take a rejected row,
the row is not in it. -/
theorem errors_out_of_order_or_lost :
    let job : Job := ⟨plainSession, "res.partner", ["id", "name"], .error .post⟩
    let rows := [["5", "Azure"], ["x", "Gemini"]]
    let replies := [replyWith (.bool false)]
    let full : WriteFault Bytes := ⟨.ofText "id,name\n", "No space left on device"⟩
    ((∀ fault, Move.refuse fault ∉ overtaking) ∧
      ∃ pool, (Pool.start 2 rows replies (.start .comma job.header)).follow job overtaking =
          some pool ∧
        pool.finished = true ∧ (pool.close none).outcome = .ok ⟨0, 0, 2⟩ ∧
        Table.ofBytes .comma (pool.close none).errors =
          .ok ⟨["id", "name"], [["x", "Gemini"], ["5", "Azure"]]⟩ ∧
        ∀ ends : List (Option Done), ends.length = rows.length → ends.count none = 2 →
          Table.ofBytes .comma (pool.close none).errors ≠
            .ok ⟨["id", "name"], undone rows ends⟩) ∧
      ∃ pool, (Pool.start 1 [["x", "Gemini"]] [] (.start .comma job.header)).follow job
          (losing full) = some pool ∧
        pool.finished = true ∧
        Table.ofBytes .comma (pool.close none).errors = .ok ⟨["id", "name"], []⟩ := by
  intro job rows replies full
  let run := (Pool.start 2 rows replies (.start .comma job.header)).follow job overtaking
  let runFull := (Pool.start 1 [["x", "Gemini"]] [] (.start .comma job.header)).follow job
    (losing full)
  have observed : run.map (fun pool => (pool.finished, (pool.close none).outcome,
      (pool.close none).errors)) = some (true, .ok ⟨0, 0, 2⟩,
        .ofText "id,name\nx,Gemini\n5,Azure\n") := by decide +kernel
  have observedFull : runFull.map (fun pool => (pool.finished, (pool.close none).errors)) =
      some (true, .ofText "id,name\n") := by decide +kernel
  obtain ⟨pool, reached, seen⟩ := Option.map_eq_some_iff.1 observed
  obtain ⟨poolFull, reachedFull, seenFull⟩ := Option.map_eq_some_iff.1 observedFull
  rw [Prod.mk.injEq, Prod.mk.injEq] at seen
  rw [Prod.mk.injEq] at seenFull
  obtain ⟨finished, outcome, errors⟩ := seen
  have read : Table.ofBytes .comma (.ofText "id,name\nx,Gemini\n5,Azure\n") =
      .ok ⟨["id", "name"], [["x", "Gemini"], ["5", "Azure"]]⟩ := by decide +kernel
  have readFull : Table.ofBytes .comma (.ofText "id,name\n") = .ok ⟨["id", "name"], []⟩ := by
    decide +kernel
  rw [← errors] at read
  rw [← seenFull.2] at readFull
  refine ⟨⟨undisturbed_overtaking, pool, reached, finished, outcome, read, ?_⟩, poolFull,
    reachedFull, seenFull.1, readFull⟩
  intro ends length count same
  have nothingDone : ends = List.replicate rows.length none :=
    List.eq_replicate_iff.2 ⟨length, fun fate member =>
      (List.count_eq_length.1 (count.trans length.symm) fate member).symm⟩
  rw [nothingDone, undone_replicate_none, read] at same
  exact absurd same (by decide +kernel)

end RemoteRecords.Import
