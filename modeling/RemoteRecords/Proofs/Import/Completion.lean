import RemoteRecords.Proofs.Import.Schedules
import RemoteRecords.Run.Send

/-!
# Imports that go through

An import ends well exactly when nothing has gone wrong with its error file and every row has been
created or updated (`resultOf_close_eq_ok_iff`).
-/

namespace RemoteRecords.Import

open Session (Reply Request answer)

/-! ## Success -/

/-- The row at an index asks for a record that its reply says has been created, or for an update
that its reply says has been made. -/
def Succeeds (session : Session) (model : String) (header : List String) (exhausted : Reply)
    (rows : List (List String)) (replies : List Reply) (index : Nat) : Prop :=
  ∃ row, rows[index]? = some row ∧
    ((∃ record id, plan header row = .ok (.create record) ∧
        answer (replyTo session model header exhausted rows replies index) = .ok (.int id) ∧
        Bounds.fits64 id = true ∧ id ≠ newRecordId) ∨
      (∃ id record, plan header row = .ok (.update id record) ∧
        answer (replyTo session model header exhausted rows replies index) = .ok (.bool true)))

section Success

variable {session : Session} (model : String) {header : List String} (exhausted : Reply)
  {rows : List (List String)} (replies : List Reply)

theorem succeeds_iff (loggedIn : session.uid.isSome = true) {index : Nat}
    (inRange : index < rows.length) :
    Succeeds session model header exhausted rows replies index ↔
      ∃ done, verdict session header rows[index]
        (replyTo session model header exhausted rows replies index) = .ok done := by
  rw [Succeeds, List.getElem?_eq_getElem inRange]
  constructor
  · rintro ⟨row, same, ⟨record, id, planned, answered, fits, fresh⟩ |
      ⟨id, record, planned, answered⟩⟩
    · cases same
      exact ⟨.created, verdict_eq_created_iff.2
        ⟨loggedIn, ⟨record, planned⟩, id, answered, fits, fresh⟩⟩
    · cases same
      exact ⟨.updated, verdict_eq_updated_iff.2 ⟨loggedIn, ⟨id, record, planned⟩, answered⟩⟩
  · rintro ⟨done, settled⟩
    refine ⟨rows[index], rfl, ?_⟩
    cases done with
    | created =>
        obtain ⟨-, ⟨record, planned⟩, id, answered, fits, fresh⟩ :=
          verdict_eq_created_iff.1 settled
        exact .inl ⟨record, id, planned, answered, fits, fresh⟩
    | updated =>
        obtain ⟨-, ⟨id, record, planned⟩, answered⟩ := verdict_eq_updated_iff.1 settled
        exact .inr ⟨id, record, planned, answered⟩

theorem none_not_mem_fates_iff (loggedIn : session.uid.isSome = true) :
    none ∉ fates session model header exhausted rows replies ↔
      ∀ index, index < rows.length →
        Succeeds session model header exhausted rows replies index := by
  have length := length_fates session model header exhausted rows replies
  constructor
  · intro complete index inRange
    rw [succeeds_iff model exhausted replies loggedIn inRange]
    have held := getElem?_fates session model header exhausted inRange replies
    cases settled : verdict session header rows[index]
        (replyTo session model header exhausted rows replies index) with
    | ok done => exact ⟨done, rfl⟩
    | error reason =>
        rw [settled] at held
        exact absurd (List.mem_of_getElem? held) complete
  · intro every missing
    obtain ⟨index, inRange, held⟩ := List.mem_iff_getElem.1 missing
    have known : index < rows.length := length ▸ inRange
    obtain ⟨done, settled⟩ :=
      (succeeds_iff model exhausted replies loggedIn known).1 (every index known)
    have found := getElem?_fates session model header exhausted known replies
    rw [settled, List.getElem?_eq_getElem inRange, held] at found
    cases found

end Success

section Finished

variable {alone : Prop} {job : Job} {separator : Table.Separator} {rows : List (List String)}
  {replies : List Reply} {pool : Pool} {history : History}
  (accounted : Accounted alone job separator rows replies pool history)

include accounted

/-- Nothing is rejected when every row that has been taken has been created or updated. -/
theorem Accounted.rejected_eq_nil_iff (loggedIn : job.session.uid.isSome = true) :
    history.taken.filterMap rejectedRow = [] ↔
      ∀ index, index < (rowsOf history.taken).length →
        Succeeds job.session job.model job.header job.exhausted (rowsOf history.taken) replies
          index := by
  rw [← none_not_mem_fates_iff job.model job.exhausted replies loggedIn, ← accounted.fates,
    ← List.count_eq_zero, count_none_results, List.length_eq_zero_iff]

variable (finished : pool.finished = true)

include finished

theorem Accounted.seen_of_finished : Rearranged alone history.seen history.taken := by
  have results := accounted.results
  rwa [Pool.unseen, flatMap_of_finished finished Worker.unseen rfl, List.append_nil] at results

/-- An import ends well exactly when its error file could be closed, every row has been taken and
each of them has been created or updated. -/
theorem Accounted.resultOf_close_eq_ok_iff (loggedIn : job.session.uid.isSome = true)
    (rest : Option (WriteFault Bytes)) (path : Path) :
    Run.resultOf path (pool.close rest) = .ok () ↔
      rest = none ∧ history.left = [] ∧ ∀ index, index < (rowsOf history.taken).length →
        Succeeds job.session job.model job.header job.exhausted (rowsOf history.taken) replies
          index := by
  have seen := accounted.seen_of_finished finished
  have rejected := (accounted.rejected.trans (seen.filterMap rejectedRow)).perm
  rw [← accounted.rejected_eq_nil_iff loggedIn]
  constructor
  · intro succeeded
    rcases close_cases pool rest with ⟨refusal, outcome, -⟩ | ⟨whole, rfl⟩
    · rw [Run.resultOf, outcome] at succeeded
      cases refusal <;> cases succeeded
    · obtain ⟨-, nobody, nothing, failed, -⟩ := accounted.whole whole
      rw [Run.resultOf, close_of_whole whole] at succeeded
      dsimp only at succeeded
      split at succeeded
      · cases succeeded
      · next none =>
          have written : history.written = [] :=
            List.eq_nil_of_length_eq_zero (failed ▸ Nat.eq_zero_of_not_pos none)
          rw [written, nothing, queue_of_finished finished whole, Pool.handed,
            flatMap_of_finished finished Worker.handed rfl] at rejected
          exact ⟨rfl, nobody, rejected.symm.eq_nil⟩
  · rintro ⟨rfl, -, accepted⟩
    rw [accepted] at rejected
    have nothing := rejected.eq_nil
    simp only [List.append_eq_nil_iff] at nothing
    have whole : pool.broken = none := by
      by_contra broken
      exact (accounted.broken (Option.ne_none_iff_isSome.1 broken)).2 nothing.2.1
    obtain ⟨-, -, -, failed, -⟩ := accounted.whole whole
    rw [Run.resultOf, close_of_whole whole]
    dsimp only
    rw [failed, nothing.1]
    rfl

end Finished

end RemoteRecords.Import
