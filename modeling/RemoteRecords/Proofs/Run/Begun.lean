import RemoteRecords.Proofs.Import.InOrder
import RemoteRecords.Proofs.Run.Script
import RemoteRecords.Run.Workers

/-!
# The way to the first row

A command that sends rows has nothing to do, lacks something before its first request, is not logged
in, cannot create the error file, or comes to its rows (`begun_prepare`).
-/

namespace RemoteRecords.Run

open Session (Reply Request answer loginRequest)

variable {platform : Platform}

/-! ## What a command needs -/

/-- Everything that a sending command needs for its first request: a separator, a table with more
rows than are left out, and a connection. -/
structure HasRows (surroundings : Surroundings platform) (invocation : Invocation) (offset : Nat)
    (path : Path) (separator : String) (table : Table) (connection : Connection)
    (url : String) : Prop where
  reads : ∃ accepted, Table.Separator.ofText separator = .ok accepted ∧
    Table.read surroundings.files path accepted = .ok table
  more : offset < table.rows.length
  connects : Connects surroundings invocation connection url

/-- A sending command has nothing to do: its table has no rows, or none behind those that are left
out. -/
def HasNoRows (surroundings : Surroundings platform) (offset : Nat) (path : Path)
    (separator : String) : Prop :=
  ∃ accepted table, Table.Separator.ofText separator = .ok accepted ∧
    Table.read surroundings.files path accepted = .ok table ∧
    (table.rows = [] ∨ table.rows.length ≤ offset)

section Ends

variable {surroundings : Surroundings platform} {invocation : Invocation} {model : String}
  {offset limit : Nat} {file : DataFile} {table : Table} {connection : Connection} {url : String}
  {exhausted : Reply} {replies : List Reply}

theorem HasRows.unique {otherTable : Table} {otherConnection : Connection} {otherUrl : String}
    {path : Path} {separator : String}
    (first : HasRows surroundings invocation offset path separator table connection url)
    (second : HasRows surroundings invocation offset path separator otherTable otherConnection
      otherUrl) :
    table = otherTable ∧ connection = otherConnection ∧ url = otherUrl := by
  obtain ⟨accepted, found, read⟩ := first.reads
  obtain ⟨otherAccepted, otherFound, otherRead⟩ := second.reads
  cases Except.ok.inj (found.symm.trans otherFound)
  exact ⟨Except.ok.inj (read.symm.trans otherRead), first.connects.unique second.connects⟩

theorem HasNoRows.not_hasRows {path : Path} {separator : String}
    (nothing : HasNoRows surroundings offset path separator) :
    ¬ HasRows surroundings invocation offset path separator table connection url := by
  rintro ⟨⟨accepted, found, read⟩, more, -⟩
  obtain ⟨otherAccepted, otherTable, otherFound, otherRead, short⟩ := nothing
  cases Except.ok.inj (found.symm.trans otherFound)
  cases Except.ok.inj (read.symm.trans otherRead)
  rcases short with empty | short
  · rw [empty] at more
    exact Nat.not_lt_zero _ more
  · exact Nat.not_lt_of_le short more

/-- What a command does once it has rows to send. -/
theorem prepare_of_more
    {accepted : Table.Separator} (found : Table.Separator.ofText file.separator = .ok accepted)
    (read : Table.read surroundings.files (file.pathFor model) accepted = .ok table)
    (more : offset < table.rows.length) :
    prepare surroundings invocation model offset limit file =
      andThen (connect surroundings invocation) fun session =>
        given ((surroundings.files.target (Import.errorPath (file.pathFor model))).mapError
            (.errorFile (Import.errorPath (file.pathFor model)))) fun names =>
          .done (.ok (.inr ⟨session, Model.serverName model, table.header,
            table.select offset limit, accepted, Import.errorPath (file.pathFor model), names⟩)) := by
  have filled : ¬ table.rows.isEmpty = true := by
    rw [List.isEmpty_iff]
    intro empty
    rw [empty] at more
    exact Nat.not_lt_zero _ more
  simp only [prepare, separatorOf, found, Except.mapError, given_ok, read, if_neg filled,
    if_neg (Nat.not_le_of_lt more)]

theorem prepare_of_hasNoRows
    (nothing : HasNoRows surroundings offset (file.pathFor model) file.separator) :
    ∃ output, prepare surroundings invocation model offset limit file =
      .done (.ok (.inl (.printed surroundings.files output))) := by
  obtain ⟨accepted, table, found, read, short⟩ := nothing
  simp only [prepare, separatorOf, found, Except.mapError, given_ok, read]
  by_cases empty : table.rows = []
  · rw [if_pos (List.isEmpty_iff.2 empty)]
    exact ⟨noRows, rfl⟩
  · have filled : ¬ table.rows.isEmpty = true := fun isEmpty => empty (List.isEmpty_iff.1 isEmpty)
    rw [if_neg filled, if_pos (short.resolve_left empty)]
    exact ⟨noRowsLeft, rfl⟩

theorem prepare_of_lacking
    (busy : ¬ HasNoRows surroundings offset (file.pathFor model) file.separator)
    (lacking : ∀ table connection url, ¬ HasRows surroundings invocation offset
      (file.pathFor model) file.separator table connection url) :
    ∃ failure, prepare surroundings invocation model offset limit file = .done (.error failure) := by
  cases found : Table.Separator.ofText file.separator with
  | error c =>
      simp only [prepare, separatorOf, found, Except.mapError, given_error]
      exact ⟨_, rfl⟩
  | ok accepted =>
      cases read : Table.read surroundings.files (file.pathFor model) accepted with
      | error error =>
          simp only [prepare, separatorOf, found, read, Except.mapError, given_ok, given_error]
          exact ⟨_, rfl⟩
      | ok table =>
          have more : offset < table.rows.length := by
            by_contra short
            exact busy ⟨accepted, table, found, read, .inr (Nat.le_of_not_lt short)⟩
          obtain ⟨failure, stopped⟩ := connect_of_not_connects fun connection url connects =>
            lacking table connection url ⟨⟨accepted, found, read⟩, more, connects⟩
          rw [prepare_of_more found read more, stopped]
          exact ⟨failure, rfl⟩

end Ends

/-! ## How far a command comes -/

/-- How far a sending command comes before its first row. -/
inductive Begun (surroundings : Surroundings platform) (invocation : Invocation) (model : String)
    (offset limit : Nat) (file : DataFile) (exhausted : Reply) (replies : List Reply) :
    Session.Dialogue.Replay (Except Failure (Outcome ⊕ Task)) → Prop where
  | idle (output : String)
      (nothing : HasNoRows surroundings offset (file.pathFor model) file.separator) :
      Begun surroundings invocation model offset limit file exhausted replies
        ⟨.ok (.inl (.printed surroundings.files output)), [], replies⟩
  | lacking (failure : Failure)
      (busy : ¬ HasNoRows surroundings offset (file.pathFor model) file.separator)
      (lacking : ∀ table connection url, ¬ HasRows surroundings invocation offset
        (file.pathFor model) file.separator table connection url) :
      Begun surroundings invocation model offset limit file exhausted replies
        ⟨.error failure, [], replies⟩
  | refused (failure : Failure) {table : Table} {connection : Connection} {url : String}
      (ready : HasRows surroundings invocation offset (file.pathFor model) file.separator table
        connection url)
      (refused : ∀ uid, ¬ LogsIn exhausted replies uid) :
      Begun surroundings invocation model offset limit file exhausted replies
        ⟨.error failure, [loginRequest connection url], replies.tail⟩
  | uncreated (failure : Failure) {table : Table} {connection : Connection} {url : String}
      {uid : Int}
      (ready : HasRows surroundings invocation offset (file.pathFor model) file.separator table
        connection url)
      (given : LogsIn exhausted replies uid)
      (uncreated : ∀ names,
        surroundings.files.target (Import.errorPath (file.pathFor model)) ≠ .ok names) :
      Begun surroundings invocation model offset limit file exhausted replies
        ⟨.error failure, [loginRequest connection url], replies.tail⟩
  | ready (accepted : Table.Separator) {table : Table} {connection : Connection}
      {url : String} {uid : Int} {names : List String}
      (found : Table.Separator.ofText file.separator = .ok accepted)
      (ready : HasRows surroundings invocation offset (file.pathFor model) file.separator table
        connection url)
      (given : LogsIn exhausted replies uid)
      (created :
        surroundings.files.target (Import.errorPath (file.pathFor model)) = .ok names) :
      Begun surroundings invocation model offset limit file exhausted replies
        ⟨.ok (.inr ⟨⟨connection, url, some uid⟩, Model.serverName model, table.header,
          table.select offset limit, accepted, Import.errorPath (file.pathFor model), names⟩),
          [loginRequest connection url], replies.tail⟩

theorem begun_prepare (surroundings : Surroundings platform) (invocation : Invocation) (model : String)
    (offset limit : Nat) (file : DataFile) (exhausted : Reply) (replies : List Reply) :
    Begun surroundings invocation model offset limit file exhausted replies
      ((prepare surroundings invocation model offset limit file).replay exhausted replies) := by
  by_cases nothing : HasNoRows surroundings offset (file.pathFor model) file.separator
  · obtain ⟨output, stopped⟩ := @prepare_of_hasNoRows _ _ invocation _ _ limit _ nothing
    rw [stopped, replay_done]
    exact .idle output nothing
  by_cases ready : ∃ table connection url, HasRows surroundings invocation offset
      (file.pathFor model) file.separator table connection url
  · obtain ⟨table, connection, url, ready⟩ := ready
    obtain ⟨accepted, found, read⟩ := ready.reads
    rw [prepare_of_more found read ready.more]
    by_cases given : ∃ uid, LogsIn exhausted replies uid
    · obtain ⟨uid, given⟩ := given
      rw [replay_andThen_of_ok exhausted (ready.connects.replay_connect_of_logsIn given)]
      cases created : surroundings.files.target (Import.errorPath (file.pathFor model)) with
      | error error =>
          refine .uncreated _ ready given fun names createdToo => ?_
          cases created.symm.trans createdToo
      | ok names => exact .ready accepted found ready given created
    · have refused : ∀ uid, ¬ LogsIn exhausted replies uid :=
        fun uid held => given ⟨uid, held⟩
      obtain ⟨error, stopped⟩ := ready.connects.replay_connect_of_refused refused
      rw [replay_andThen_of_error exhausted stopped]
      exact .refused _ ready refused
  · have lacking : ∀ table connection url, ¬ HasRows surroundings invocation offset
        (file.pathFor model) file.separator table connection url :=
      fun table connection url held => ready ⟨table, connection, url, held⟩
    obtain ⟨failure, stopped⟩ := @prepare_of_lacking _ _ _ _ _ limit _ nothing lacking
    rw [stopped, replay_done]
    exact .lacking failure nothing lacking

/-! ## Rows one after another -/

section InOrder

variable {surroundings : Surroundings platform} {invocation : Invocation} {model : String}
  {offset limit : Nat} {file : DataFile} {exhausted : Reply} {replies : List Reply}

/-- What a command does that sends its rows one after another. -/
theorem replay_run (asked : invocation.command = .send model offset limit file) :
    (run surroundings invocation).replay exhausted replies =
      let prepared :=
        (prepare surroundings invocation model offset limit file).replay exhausted replies
      match prepared.value with
      | .error failure => ⟨.failed surroundings.files failure, prepared.sent, prepared.unused⟩
      | .ok (.inl outcome) => ⟨outcome, prepared.sent, prepared.unused⟩
      | .ok (.inr task) =>
          let ended := (task.carryOut surroundings.files).replay exhausted prepared.unused
          ⟨ended.value, prepared.sent ++ ended.sent, ended.unused⟩ := by
  simp only [run, asked, replay_finish, send, andThen, Session.Dialogue.replay_bind]
  rcases (prepare surroundings invocation model offset limit file).replay exhausted replies with
    ⟨failure | outcome | task, sent, unused⟩
  · simp only [replay_done, List.append_nil, outcomeFrom]
  · simp only [replay_done, List.append_nil, outcomeFrom]
  · simp only [Session.Dialogue.replay_map, outcomeFrom]

/-- It can be a course of a single worker. -/
theorem exists_moves_sendOn (asked : invocation.command = .send model offset limit file) :
    ∃ moves, sendOn ⟨1, none, moves, none⟩ surroundings invocation model offset limit file exhausted
      replies = some ((run surroundings invocation).replay exhausted replies) := by
  rw [replay_run asked]
  simp only [sendOn]
  rcases (prepare surroundings invocation model offset limit file).replay exhausted replies with
    ⟨failure | outcome | task, sent, unused⟩
  · exact ⟨[], rfl⟩
  · exact ⟨[], rfl⟩
  · obtain ⟨moves, pool, -, followed, finished, closed, posted, left⟩ := Import.exists_schedule
      task.separator ⟨task.session, task.model, task.header, exhausted⟩ task.rows unused
    refine ⟨moves, ?_⟩
    simp only [Task.carryOutOn, followed, Option.bind_some, if_pos finished, Option.map_some, closed,
      posted, left, Task.carryOut, Session.Dialogue.replay_map]
    rfl

theorem sent_run_of_created (asked : invocation.command = .send model offset limit file)
    {accepted : Table.Separator} (found : Table.Separator.ofText file.separator = .ok accepted)
    {table : Table}
    (read : Table.read surroundings.files (file.pathFor model) accepted = .ok table)
    (more : offset < table.rows.length) {connection : Connection} {url : String}
    (connects : Connects surroundings invocation connection url) {uid : Int}
    (given : LogsIn exhausted replies uid) {names : List String}
    (created : surroundings.files.target (Import.errorPath (file.pathFor model)) = .ok names) :
    ((run surroundings invocation).replay exhausted replies).sent =
      loginRequest connection url ::
        (Import.replayImport accepted ⟨connection, url, some uid⟩ (Model.serverName model)
          table.header (table.select offset limit) exhausted replies.tail).sent := by
  rw [replay_run asked, prepare_of_more found read more,
    replay_andThen_of_ok exhausted (connects.replay_connect_of_logsIn given), created]
  simp only [Except.mapError, given_ok, replay_done, Task.carryOut, Session.Dialogue.replay_map]
  rfl

end InOrder

end RemoteRecords.Run
