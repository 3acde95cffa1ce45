import RemoteRecords.CommandLine.Parser
import RemoteRecords.Proofs.FileTree
import RemoteRecords.Proofs.Import.Completion
import RemoteRecords.Proofs.Import.Ending
import RemoteRecords.Proofs.Run.Begun
import RemoteRecords.Proofs.Table.Selection

/-!
# Sending the rows of a file

A command that sends rows logs in once it has rows to send and everything it needs is good. Behind
the login it posts requests of the chosen rows, each at most once, and it changes no file but the
error file, which is never the data file, whatever its workers do (`run_sends_on_workers`). One
worker goes through the rows in the order of the file; several can take them in another one, and a
command fails when the error file cannot be closed (`rows_out_of_order_or_unclosed`).
-/

namespace RemoteRecords

/-! ## Rows by number -/

namespace Table

/-- The data row of a number, from one on. -/
def row (table : Table) (number : Nat) : List String := table.rows.getD (number - 1) []

/-- A data row lies behind the offset and not behind the limit, if there is one. -/
structure InWindow (table : Table) (offset limit number : Nat) : Prop where
  behind : offset < number
  inside : number ≤ table.rows.length
  within : limit ≠ 0 → number ≤ offset + limit

variable {table : Table} {offset limit : Nat}

theorem inWindow_of_lt_length {index : Nat} (inRange : index < (table.select offset limit).length) :
    table.InWindow offset limit (offset + index + 1) := by
  obtain ⟨-, below, limited⟩ := table.getElem?_select offset limit inRange
  refine ⟨by omega, below, fun bounded => ?_⟩
  have less := limited bounded
  omega

theorem InWindow.lt_length (held : table.rows.length ≤ Bounds.greatestNat64) {number : Nat}
    (window : table.InWindow offset limit number) :
    number - offset - 1 < (table.select offset limit).length := by
  obtain ⟨behind, inside, within⟩ := window
  rw [table.select_eq offset limit held]
  split
  · rw [List.length_drop]
    omega
  · next bounded =>
      have less := within bounded
      rw [List.length_take, List.length_drop]
      omega

end Table

namespace Import

theorem map_number_numberedFrom (number : Nat) (rows : List (List String)) :
    (numberedFrom number rows).map Numbered.number = List.range' number rows.length := by
  induction rows generalizing number with
  | nil => rfl
  | cons row rows inductionHypothesis =>
      rw [numberedFrom, List.map_cons, inductionHypothesis, List.length_cons, List.range'_succ]

theorem exists_index_of_mem_numberedFrom {number : Nat} {rows : List (List String)}
    {item : Numbered} (member : item ∈ numberedFrom number rows) :
    ∃ index, item.number = number + index ∧ rows[index]? = some item.row := by
  induction rows generalizing number with
  | nil => cases member
  | cons row rows inductionHypothesis =>
      rcases List.mem_cons.1 member with rfl | later
      · exact ⟨0, rfl, rfl⟩
      · obtain ⟨index, same, found⟩ := inductionHypothesis later
        exact ⟨index + 1, by rw [same]; omega, found⟩

end Import

namespace Run

open Import (Result rowsOf numberedFrom)
open Session (Reply Request loginRequest)

variable {platform : Platform}

/-! ## The chosen rows -/

/-- The numbers in the data file of the rows that results belong to. -/
def numbersOf (offset : Nat) (taken : List Result) : List Nat :=
  (taken.map Prod.fst).map fun item => offset + item.number

/-- What workers have made of the chosen rows of a table, in the order in which they have taken the
rows with the given numbers. Each row is taken at most once and posts what it asks for. The import
ends well exactly when the error file takes its header and can be closed, all chosen rows have been
taken, and each of them has been created or updated. (The number of rows of a table in memory has 64
bits.) -/
structure Worked (course : Course) (session : Session) (model : String) (table : Table)
    (offset limit : Nat) (exhausted : Reply) (replies : List Reply) (numbers : List Nat)
    (requests : List Request) (result : Except Failure Unit) : Prop where
  once : numbers.Nodup
  chosen : ∀ number ∈ numbers, table.InWindow offset limit number
  requests : requests = numbers.filterMap fun number =>
    Import.requestOf session model table.header (table.row number)
  ordered : course.workers = 1 → numbers.Pairwise (· < ·)
  succeeds : table.rows.length ≤ Bounds.greatestNat64 →
    (result = .ok () ↔ course.header = none ∧ course.rest = none ∧
      (∀ number, table.InWindow offset limit number → number ∈ numbers) ∧
      ∀ index, index < numbers.length → Import.Succeeds session model table.header exhausted
        (numbers.map table.row) replies index)

section Numbers

variable {alone : Prop} {job : Import.Job} {separator : Table.Separator} {table : Table}
  {offset limit : Nat} {replies : List Reply} {pool : Import.Pool} {history : Import.History}
  (accounted : Import.Accounted alone job separator (table.select offset limit) replies pool
    history)

include accounted

theorem map_row_numbersOf : (numbersOf offset history.taken).map table.row = rowsOf history.taken := by
  rw [numbersOf, Import.rowsOf_eq_map, List.map_map]
  apply List.map_congr_left
  intro item member
  obtain ⟨index, number, found⟩ := Import.exists_index_of_mem_numberedFrom
    (accounted.rows.perm.subset (List.mem_append_left _ member))
  obtain ⟨inRange, -⟩ := List.getElem?_eq_some_iff.1 found
  obtain ⟨same, -, -⟩ := table.getElem?_select offset limit inRange
  have place : offset + item.number - 1 = offset + index := by omega
  rw [Function.comp_apply, Table.row, place, List.getD_eq_getElem?_getD, ← same, found]
  rfl

theorem inWindow_of_mem_numbersOf {number : Nat}
    (member : number ∈ numbersOf offset history.taken) : table.InWindow offset limit number := by
  obtain ⟨item, taken, rfl⟩ := List.mem_map.1 member
  obtain ⟨index, number, found⟩ := Import.exists_index_of_mem_numberedFrom
    (accounted.rows.perm.subset (List.mem_append_left _ taken))
  obtain ⟨inRange, -⟩ := List.getElem?_eq_some_iff.1 found
  have window := Table.inWindow_of_lt_length inRange
  rwa [show offset + index + 1 = offset + item.number by omega] at window

/-- The numbers of all rows, taken or not, are those behind the offset. -/
theorem rearranged_numbers :
    Rearranged alone (numbersOf offset history.taken ++
        (pool.unsent ++ history.left).map fun item => offset + item.number)
      (List.range' (offset + 1) (table.select offset limit).length) := by
  have numbers := accounted.rows.map fun item => offset + item.number
  have all : (numberedFrom 1 (table.select offset limit)).map (fun item => offset + item.number) =
      List.range' (offset + 1) (table.select offset limit).length := by
    rw [← List.map_add_range', ← Import.map_number_numberedFrom, List.map_map]
    rfl
  rwa [List.map_append, all] at numbers

theorem nodup_numbersOf : (numbersOf offset history.taken).Nodup :=
  ((rearranged_numbers accounted).perm.nodup_iff.2 List.nodup_range').sublist
    (List.sublist_append_left _ _)

theorem pairwise_numbersOf (one : alone) : (numbersOf offset history.taken).Pairwise (· < ·) := by
  have whole : List.Pairwise (· < ·) (numbersOf offset history.taken ++ _) :=
    (rearranged_numbers accounted).same one ▸ List.pairwise_lt_range'
  exact whole.sublist (List.sublist_append_left _ _)

theorem left_eq_nil_iff (finished : pool.finished = true)
    (held : table.rows.length ≤ Bounds.greatestNat64) :
    history.left = [] ↔
      ∀ number, table.InWindow offset limit number → number ∈ numbersOf offset history.taken := by
  have numbers := (rearranged_numbers accounted).perm
  rw [Import.Pool.unsent, Import.flatMap_of_finished finished Import.Worker.unsent rfl,
    List.nil_append] at numbers
  constructor
  · intro nobody number window
    have inRange := window.lt_length held
    have behind := window.behind
    rw [nobody, List.map_nil, List.append_nil] at numbers
    refine numbers.mem_iff.2 (List.mem_range'_1.2 ⟨behind, ?_⟩)
    omega
  · intro all
    have subset : List.range' (offset + 1) (table.select offset limit).length ⊆
        numbersOf offset history.taken := by
      intro number member
      obtain ⟨low, high⟩ := List.mem_range'_1.1 member
      have window := Table.inWindow_of_lt_length
        (show number - offset - 1 < (table.select offset limit).length by omega)
      rw [show offset + (number - offset - 1) + 1 = number by omega] at window
      exact all number window
    have lengths := numbers.length_eq
    have enough := (List.subperm_of_subset List.nodup_range' subset).length_le
    rw [List.length_append, List.length_map] at lengths
    exact List.eq_nil_of_length_eq_zero (by omega)

end Numbers

/-! ## Carrying it out -/

section CarriedOut

variable {course : Course} {task : Task} {files : FileTree} {exhausted : Reply}
  {replies : List Reply} {ended : Session.Dialogue.Replay Outcome}

theorem carryOutOn_cases (carried : task.carryOutOn course files exhausted replies = some ended) :
    (∃ fault, course.header = some fault ∧
      ended = ⟨⟨.error (.errorHeader task.path fault.message), "", "", [],
        files.put task.names fault.left⟩, [], replies⟩) ∨
    course.header = none ∧ ∃ pool,
      (Import.Pool.start course.workers task.rows replies (.start task.separator task.header)).follow
        ⟨task.session, task.model, task.header, exhausted⟩ course.moves = some pool ∧
      pool.finished = true ∧
      ended = ⟨task.outcome files (pool.close course.rest), pool.sent, pool.replies⟩ := by
  rw [Task.carryOutOn] at carried
  split at carried
  · next fault faulty =>
      cases carried
      exact .inl ⟨fault, faulty, rfl⟩
  · next whole =>
      obtain ⟨pool, followed, ended⟩ := Option.bind_eq_some_iff.1 carried
      split at ended
      · next finished =>
          cases ended
          exact .inr ⟨whole, pool, followed, finished, rfl⟩
      · cases ended

theorem files_carryOutOn (carried : task.carryOutOn course files exhausted replies = some ended) :
    ∃ bytes, ended.value.files = files.put task.names bytes := by
  rcases carryOutOn_cases carried with ⟨fault, -, rfl⟩ | ⟨-, pool, -, -, rfl⟩
  · exact ⟨fault.left, rfl⟩
  · exact ⟨(pool.close course.rest).errors, rfl⟩

/-- Whatever number of workers there are and whatever goes wrong, an import has a course to its
end. -/
theorem exists_carryOutOn (workers : Nat) (header rest : Option (WriteFault Bytes)) (task : Task)
    (files : FileTree) (exhausted : Reply) (replies : List Reply) :
    ∃ moves ended, task.carryOutOn ⟨workers, header, moves, rest⟩ files exhausted replies =
      some ended := by
  cases header with
  | some fault => exact ⟨[], _, rfl⟩
  | none =>
      obtain ⟨moves, final, -, followed, finished⟩ := Import.exists_finished
        ⟨task.session, task.model, task.header, exhausted⟩
        (.start workers task.rows replies (.start task.separator task.header))
      refine ⟨moves, ⟨task.outcome files (final.close rest), final.sent, final.replies⟩, ?_⟩
      simp only [Task.carryOutOn, followed, Option.bind_some, if_pos finished]

theorem exists_worked {table : Table} {offset limit : Nat} {model : String} {session : Session}
    (loggedIn : session.uid.isSome = true) {accepted : Table.Separator} {path : Path}
    {names : List String}
    (carried : Task.carryOutOn ⟨session, model, table.header, table.select offset limit, accepted,
      path, names⟩ course files exhausted replies = some ended) :
    ∃ numbers, Worked course session model table offset limit exhausted replies numbers ended.sent
      ended.value.result := by
  rcases carryOutOn_cases carried with ⟨fault, faulty, rfl⟩ | ⟨whole, pool, followed, finished, rfl⟩
  · refine ⟨[], .nil, nofun, rfl, fun _ => .nil, fun _ => iff_of_false nofun ?_⟩
    rintro ⟨whole, -⟩
    cases whole.symm.trans faulty
  · obtain ⟨history, accounted⟩ := (Import.accounted_start accepted
      ⟨session, model, table.header, exhausted⟩ (table.select offset limit) replies
      course.workers).follow followed
    have rows := map_row_numbersOf accounted
    refine ⟨numbersOf offset history.taken, nodup_numbersOf accounted,
      fun _ => inWindow_of_mem_numbersOf accounted, ?_, pairwise_numbersOf accounted,
      fun held => ?_⟩
    · rw [accounted.sent, ← rows, List.filterMap_map]
      rfl
    · have result := accounted.resultOf_close_eq_ok_iff finished loggedIn course.rest path
      rw [left_eq_nil_iff accounted finished held, ← rows, List.length_map] at result
      exact result.trans (and_iff_right whole).symm

end CarriedOut

/-! ## Requests and files -/

theorem exists_values_of_parse {environment : List (String × String)} {args : List String}
    {invocation : Invocation} (parsed : CommandLine.parse environment args = .ok invocation) :
    ∃ values verb, invocation = CommandLine.Values.invocation values verb := by
  simp only [CommandLine.parse, bind, Except.bind, pure, Except.pure] at parsed
  split at parsed
  · cases parsed
  · split at parsed
    · cases parsed
    · split at parsed
      · cases parsed
      · exact ⟨_, _, (Except.ok.inj parsed).symm⟩

/-- The path of a command's data file is written as a text. -/
theorem exists_text_of_parse {environment : List (String × String)} {args : List String}
    {invocation : Invocation} {model : String} {offset limit : Nat} {file : DataFile}
    (parsed : CommandLine.parse environment args = .ok invocation)
    (asked : invocation.command = .send model offset limit file) :
    ∃ text, file.pathFor model = .ofText text := by
  obtain ⟨values, verb, rfl⟩ := exists_values_of_parse parsed
  cases verb with
  | query => cases asked
  | save => cases asked
  | send =>
      cases asked
      rw [DataFile.pathFor, CommandLine.Values.dataFile]
      cases values.value? .file with
      | none => exact ⟨_, rfl⟩
      | some text => exact ⟨text, rfl⟩

/-- A table that can be read is in a file. -/
theorem exists_bytes_of_read {files : FileTree} {path : Path} {separator : Table.Separator}
    {table : Table} (read : Table.read files path separator = .ok table) :
    ∃ bytes, files.openFile path = .ok (some bytes) := by
  rw [Table.read] at read
  split at read
  · cases read
  · cases read
  · next bytes opened => exact ⟨bytes, opened⟩

/-- What a sending command sends and changes when its import takes a course. -/
structure Sends (course : Course) (surroundings : Surroundings platform) (invocation : Invocation)
    (model : String) (offset limit : Nat) (file : DataFile) (exhausted : Reply)
    (replies : List Reply) (ended : Session.Dialogue.Replay Outcome) : Prop where
  /-- Without a separator, rows, settings or an endpoint nothing is sent. -/
  silent : (∀ table connection url, ¬ HasRows surroundings invocation offset (file.pathFor model)
      file.separator table connection url) →
    ended.sent = [] ∧ ended.value.files = surroundings.files ∧
      (ended.value.result = .ok () ↔
        HasNoRows surroundings offset (file.pathFor model) file.separator)
  refused : ∀ table connection url, HasRows surroundings invocation offset (file.pathFor model)
      file.separator table connection url → (∀ uid, ¬ LogsIn exhausted replies uid) →
    ended.sent = [loginRequest connection url] ∧ ended.value.files = surroundings.files ∧
      ended.value.result ≠ .ok ()
  uncreated : ∀ table connection url uid, HasRows surroundings invocation offset
      (file.pathFor model) file.separator table connection url → LogsIn exhausted replies uid →
    (∀ names, surroundings.files.target (Import.errorPath (file.pathFor model)) ≠ .ok names) →
    ended.sent = [loginRequest connection url] ∧ ended.value.files = surroundings.files ∧
      ended.value.result ≠ .ok ()
  rows : ∀ table connection url uid names, HasRows surroundings invocation offset
      (file.pathFor model) file.separator table connection url → LogsIn exhausted replies uid →
    surroundings.files.target (Import.errorPath (file.pathFor model)) = .ok names →
    ∃ numbers requests, ended.sent = loginRequest connection url :: requests ∧
      Worked course ⟨connection, url, some uid⟩ (Model.serverName model) table offset limit
        exhausted replies.tail numbers requests ended.value.result
  changes : ended.value.files = surroundings.files ∨
    ∃ names, surroundings.files.target (Import.errorPath (file.pathFor model)) = .ok names ∧
      surroundings.files.AgreeOff names ended.value.files
  apart : ∀ held bytes names,
    surroundings.files.locate (file.pathFor model) = .ok (.file held bytes) →
      surroundings.files.target (Import.errorPath (file.pathFor model)) = .ok names → names ≠ held
  kept : ended.value.files.openFile (file.pathFor model) =
    surroundings.files.openFile (file.pathFor model)

section SendOn

variable {course : Course} {surroundings : Surroundings platform} {invocation : Invocation}
  {model : String} {offset limit : Nat} {file : DataFile} {exhausted : Reply}
  {replies : List Reply} {ended : Session.Dialogue.Replay Outcome}

/-- The ends of a sending command: it fails or is done before its first row, or carries its task
out. -/
inductive Ends (course : Course) (surroundings : Surroundings platform) (invocation : Invocation)
    (model : String) (offset limit : Nat) (file : DataFile) (exhausted : Reply)
    (replies : List Reply) : Session.Dialogue.Replay Outcome → Prop where
  | failed (failure : Failure) (sent : List Request) (unused : List Reply)
      (before : Begun surroundings invocation model offset limit file exhausted replies
        ⟨.error failure, sent, unused⟩) :
      Ends course surroundings invocation model offset limit file exhausted replies
        ⟨.failed surroundings.files failure, sent, unused⟩
  | done (outcome : Outcome) (sent : List Request) (unused : List Reply)
      (before : Begun surroundings invocation model offset limit file exhausted replies
        ⟨.ok (.inl outcome), sent, unused⟩) :
      Ends course surroundings invocation model offset limit file exhausted replies
        ⟨outcome, sent, unused⟩
  | carriedOut (task : Task) (sent : List Request) (unused : List Reply)
      (before : Begun surroundings invocation model offset limit file exhausted replies
        ⟨.ok (.inr task), sent, unused⟩)
      (ended : Session.Dialogue.Replay Outcome)
      (carried : task.carryOutOn course surroundings.files exhausted unused = some ended) :
      Ends course surroundings invocation model offset limit file exhausted replies
        ⟨ended.value, sent ++ ended.sent, ended.unused⟩

theorem ends_sendOn
    (reached : sendOn course surroundings invocation model offset limit file exhausted replies =
      some ended) :
    Ends course surroundings invocation model offset limit file exhausted replies ended := by
  have before := begun_prepare surroundings invocation model offset limit file exhausted replies
  simp only [sendOn] at reached
  revert before reached
  rcases (prepare surroundings invocation model offset limit file).replay exhausted replies with
    ⟨failure | outcome | task, sent, unused⟩
  · rintro ⟨⟩ before
    exact .failed failure sent unused before
  · rintro ⟨⟩ before
    exact .done outcome sent unused before
  · intro reached before
    obtain ⟨later, carried, rfl⟩ := Option.map_eq_some_iff.1 reached
    exact .carriedOut task sent unused before later carried

variable (ends : Ends course surroundings invocation model offset limit file exhausted replies
  ended)

include ends

theorem Ends.silent
    (lacking : ∀ table connection url, ¬ HasRows surroundings invocation offset
      (file.pathFor model) file.separator table connection url) :
    ended.sent = [] ∧ ended.value.files = surroundings.files ∧
      (ended.value.result = .ok () ↔
        HasNoRows surroundings offset (file.pathFor model) file.separator) := by
  cases ends with
  | failed failure sent unused before =>
      cases before with
      | lacking _ busy _ => exact ⟨rfl, rfl, iff_of_false nofun busy⟩
      | refused _ ready refused => exact absurd ready (lacking _ _ _)
      | uncreated _ ready given uncreated => exact absurd ready (lacking _ _ _)
  | done outcome sent unused before =>
      cases before with
      | idle output nothing => exact ⟨rfl, rfl, iff_of_true rfl nothing⟩
  | carriedOut task sent unused before ended carried =>
      cases before with
      | ready accepted found ready given created => exact absurd ready (lacking _ _ _)

section Ready

variable {table : Table} {connection : Connection} {url : String}
  (ready : HasRows surroundings invocation offset (file.pathFor model) file.separator table
    connection url)

include ready

theorem Ends.stops (refused : ∀ uid, ¬ LogsIn exhausted replies uid) :
    ended.sent = [loginRequest connection url] ∧ ended.value.files = surroundings.files ∧
      ended.value.result ≠ .ok () := by
  cases ends with
  | failed failure sent unused before =>
      cases before with
      | lacking _ busy lacking => exact absurd ready (lacking _ _ _)
      | refused _ again _ =>
          obtain ⟨rfl, rfl, rfl⟩ := ready.unique again
          exact ⟨rfl, rfl, nofun⟩
      | uncreated _ again given uncreated => exact absurd given (refused _)
  | done outcome sent unused before =>
      cases before with
      | idle output nothing => exact absurd ready nothing.not_hasRows
  | carriedOut task sent unused before ended carried =>
      cases before with
      | ready accepted found again given created => exact absurd given (refused _)

theorem Ends.stops_uncreated {uid : Int} (given : LogsIn exhausted replies uid)
    (uncreated : ∀ names,
      surroundings.files.target (Import.errorPath (file.pathFor model)) ≠ .ok names) :
    ended.sent = [loginRequest connection url] ∧ ended.value.files = surroundings.files ∧
      ended.value.result ≠ .ok () := by
  cases ends with
  | failed failure sent unused before =>
      cases before with
      | lacking _ busy lacking => exact absurd ready (lacking _ _ _)
      | refused _ again refused => exact absurd given (refused uid)
      | uncreated _ again _ _ =>
          obtain ⟨rfl, rfl, rfl⟩ := ready.unique again
          exact ⟨rfl, rfl, nofun⟩
  | done outcome sent unused before =>
      cases before with
      | idle output nothing => exact absurd ready nothing.not_hasRows
  | carriedOut task sent unused before ended carried =>
      cases before with
      | ready accepted found again _ created => exact absurd created (uncreated _)

theorem Ends.works {uid : Int} (given : LogsIn exhausted replies uid) {names : List String}
    (created : surroundings.files.target (Import.errorPath (file.pathFor model)) = .ok names) :
    ∃ numbers requests, ended.sent = loginRequest connection url :: requests ∧
      Worked course ⟨connection, url, some uid⟩ (Model.serverName model) table offset limit
        exhausted replies.tail numbers requests ended.value.result := by
  cases ends with
  | failed failure sent unused before =>
      cases before with
      | lacking _ busy lacking => exact absurd ready (lacking _ _ _)
      | refused _ again refused => exact absurd given (refused uid)
      | uncreated _ again _ uncreated => exact absurd created (uncreated names)
  | done outcome sent unused before =>
      cases before with
      | idle output nothing => exact absurd ready nothing.not_hasRows
  | carriedOut task sent unused before ended carried =>
      cases before with
      | ready accepted found again givenAgain createdAgain =>
          obtain ⟨rfl, rfl, rfl⟩ := ready.unique again
          cases given.unique givenAgain
          obtain ⟨numbers, worked⟩ := exists_worked rfl carried
          exact ⟨numbers, ended.sent, rfl, worked⟩

end Ready

theorem Ends.files_eq :
    ended.value.files = surroundings.files ∨
      (∃ table connection url, HasRows surroundings invocation offset (file.pathFor model)
        file.separator table connection url) ∧
      ∃ names bytes,
        surroundings.files.target (Import.errorPath (file.pathFor model)) = .ok names ∧
          ended.value.files = surroundings.files.put names bytes := by
  cases ends with
  | failed failure sent unused before => exact .inl rfl
  | done outcome sent unused before =>
      cases before with
      | idle output nothing => exact .inl rfl
  | carriedOut task sent unused before ended carried =>
      cases before with
      | ready accepted found ready given created =>
          obtain ⟨bytes, put⟩ := files_carryOutOn carried
          exact .inr ⟨⟨_, _, _, ready⟩, _, bytes, created, put⟩

end SendOn

/-! ## Commands -/

/-- What a run does to the files that sends its rows one after another. -/
theorem files_run {surroundings : Surroundings platform} {invocation : Invocation} {model : String}
    {offset limit : Nat} {file : DataFile}
    (asked : invocation.command = .send model offset limit file) (exhausted : Reply)
    (replies : List Reply) :
    let files := ((run surroundings invocation).replay exhausted replies).value.files
    files = surroundings.files ∨ ∃ names bytes,
      surroundings.files.target (Import.errorPath (file.pathFor model)) = .ok names ∧
        files = surroundings.files.put names bytes := by
  obtain ⟨moves, reached⟩ := @exists_moves_sendOn _ surroundings _ _ _ _ _ exhausted replies asked
  exact (ends_sendOn reached).files_eq.imp id And.right

theorem exists_runOn (surroundings : Surroundings platform) (invocation : Invocation)
    (exhausted : Reply) (replies : List Reply) {workers : Nat}
    {header rest : Option (WriteFault Bytes)}
    (suits : (Course.mk workers header [] rest).suits invocation = true) :
    ∃ moves ended, runOn ⟨workers, header, moves, rest⟩ surroundings invocation exhausted replies =
      some ended := by
  have suit : ∀ moves, (Course.mk workers header moves rest).suits invocation = true :=
    fun _ => suits
  simp only [runOn, suit, if_true]
  cases invocation.command with
  | query selection => exact ⟨[], _, rfl⟩
  | save selection file => exact ⟨[], _, rfl⟩
  | send model offset limit file =>
      simp only [sendOn]
      rcases (prepare surroundings invocation model offset limit file).replay exhausted replies with
        ⟨failure | outcome | task, sent, unused⟩
      · exact ⟨[], _, rfl⟩
      · exact ⟨[], _, rfl⟩
      · obtain ⟨moves, ended, carried⟩ :=
          exists_carryOutOn workers header rest task surroundings.files exhausted unused
        refine ⟨moves, ⟨ended.value, sent ++ ended.sent, ended.unused⟩, ?_⟩
        simp only [carried, Option.map_some]

/-- A command that sends rows logs in when it has rows to send and a connection, and not before.
Behind the login it sends nothing but requests of the chosen rows, each at most once, and with one
worker in their order. Of all files it changes at most the error file, which is another one than the
data file. It ends well exactly when there is nothing to do, or the error file takes everything and
every chosen row has been created or updated. This holds for every course that workers can take.
There is one for each number of workers, and `run` is one of a single worker. -/
theorem run_sends_on_workers {surroundings : Surroundings platform} {args : List String}
    {invocation : Invocation} {model : String} {offset limit : Nat} {file : DataFile}
    (parsed : CommandLine.parse surroundings.environment args = .ok invocation)
    (asked : invocation.command = .send model offset limit file) (exhausted : Reply)
    (replies : List Reply) :
    (∀ course ended, runOn course surroundings invocation exhausted replies = some ended →
      Sends course surroundings invocation model offset limit file exhausted replies ended) ∧
    (∀ workers header rest, (Course.mk workers header [] rest).suits invocation = true →
      ∃ moves ended, runOn ⟨workers, header, moves, rest⟩ surroundings invocation exhausted replies =
        some ended) ∧
    ((Course.mk 1 none [] none).suits invocation = true →
      ∃ moves, runOn ⟨1, none, moves, none⟩ surroundings invocation exhausted replies =
        some ((run surroundings invocation).replay exhausted replies)) := by
  refine ⟨fun course ended reached => ?_, fun workers header rest => exists_runOn _ _ _ _,
    fun suits => ?_⟩
  · have sends : sendOn course surroundings invocation model offset limit file exhausted replies =
        some ended := by
      rw [runOn, asked] at reached
      split at reached
      · exact reached
      · cases reached
    have ends := ends_sendOn sends
    obtain ⟨text, written⟩ := exists_text_of_parse parsed asked
    refine ⟨ends.silent, fun _ _ _ => ends.stops, fun _ _ _ _ ready given => ends.stops_uncreated ready given,
      fun _ _ _ _ _ ready given => ends.works ready given, ?_, ?_, ?_⟩
    · rcases ends.files_eq with same | ⟨-, names, bytes, created, put⟩
      · exact .inl same
      · exact .inr ⟨names, created, put ▸ FileTree.agreeOff_put _ _ _⟩
    · intro held bytes names found created
      rw [written] at found created
      exact (FileTree.ne_of_target_errorPath found created).symm
    · rcases ends.files_eq with same | ⟨⟨table, _, _, ready⟩, names, bytes, created, put⟩
      · rw [same]
      · obtain ⟨accepted, -, read⟩ := ready.reads
        obtain ⟨content, opened⟩ := exists_bytes_of_read read
        rw [written] at opened created ⊢
        rw [put, FileTree.openFile_put_errorFile opened created, opened]
  · obtain ⟨moves, reached⟩ := @exists_moves_sendOn _ surroundings _ _ _ _ _ exhausted replies asked
    have suit : (Course.mk 1 none moves none).suits invocation = true := suits
    refine ⟨moves, ?_⟩
    simp only [runOn, suit, if_true, asked]
    exact reached

/-- Two workers: the second one takes over the last row and is done with it first. -/
def lastFirst : List Import.Move :=
  [.steal 1 0 2, .pick 0, .send 1, .send 0, .see 1, .count 1, .see 0, .count 0, .pick 0, .send 0,
    .see 0, .hand 0, .write, .count 0]

theorem run_sends_on_workers_three_rows :
    let data := Bytes.ofText "id;name\n5;Azure\n-1;Deco\nx;Gemini\n7;Lumber\n"
    let surroundings : Surroundings := ⟨⟨["work"], [(["work", "res_partner.csv"], data)], []⟩, []⟩
    let file : DataFile := ⟨none, ";"⟩
    let invocation : Invocation :=
      ⟨.ofText "config.yml", .none, some 2, false, .send "res_partner" 1 0 file⟩
    let replies := [Import.replyWith (.int 7), Import.replyWith (.bool true),
      Import.replyWith (.int 30)]
    let course : Course := ⟨2, none, lastFirst, none⟩
    CommandLine.parse [] ["import", "-m", "res_partner", "--offset", "1", "--workers", "2"] =
        .ok invocation ∧
      invocation.command = .send "res_partner" 1 0 file ∧
      ∃ ended, runOn course surroundings invocation (.error .post) replies = some ended ∧
        Sends course surroundings invocation "res_partner" 1 0 file (.error .post) replies ended ∧
        ended.sent.map (fun request => Json.compact (.array request.args)) =
          ["[\"odoo\",\"admin\",\"admin\"]",
            "[\"odoo\",7,\"admin\",\"res.partner\",\"write\",7,\x7b\"name\":\"Lumber\"\x7d]",
            "[\"odoo\",7,\"admin\",\"res.partner\",\"create\",\x7b\"name\":\"Deco\"\x7d]"] ∧
        ended.value.result.mapError Failure.message =
          .error "Import: 1 rows rejected, see \"res_partner_err.csv\"" ∧
        ended.value.files.files = [(["work", "res_partner.csv"], data),
          (["work", "res_partner_err.csv"], Bytes.ofText "id;name\nx;Gemini\n")] := by
  intro data surroundings file invocation replies course
  have parsed : CommandLine.parse surroundings.environment
      ["import", "-m", "res_partner", "--offset", "1", "--workers", "2"] = .ok invocation := by
    decide +kernel
  have observed : (runOn course surroundings invocation (.error .post) replies).map (fun ended =>
      (ended.sent.map fun request => Json.compact (.array request.args),
        ended.value.result.mapError Failure.message, ended.value.files.files)) = some
      (["[\"odoo\",\"admin\",\"admin\"]",
          "[\"odoo\",7,\"admin\",\"res.partner\",\"write\",7,\x7b\"name\":\"Lumber\"\x7d]",
          "[\"odoo\",7,\"admin\",\"res.partner\",\"create\",\x7b\"name\":\"Deco\"\x7d]"],
        .error "Import: 1 rows rejected, see \"res_partner_err.csv\"",
        [(["work", "res_partner.csv"], data),
          (["work", "res_partner_err.csv"], Bytes.ofText "id;name\nx;Gemini\n")]) := by
    decide +kernel
  obtain ⟨ended, reached, seen⟩ := Option.map_eq_some_iff.1 observed
  rw [Prod.mk.injEq, Prod.mk.injEq] at seen
  exact ⟨parsed, rfl, ended, reached,
    (run_sends_on_workers parsed rfl (.error .post) replies).1 course ended reached, seen⟩

/-- Two workers: the second one takes over the second row and is done with it first. -/
def secondFirst : List Import.Move :=
  [.steal 1 0 1, .pick 0, .send 1, .send 0, .see 1, .count 1, .see 0, .count 0]

theorem eq_of_increasing_of_two_le {numbers : List Nat} (increasing : numbers.Pairwise (· < ·))
    (within : ∀ number ∈ numbers, 1 ≤ number ∧ number ≤ 2) (enough : 2 ≤ numbers.length) :
    numbers = [1, 2] := by
  match numbers, increasing, within, enough with
  | [first, second], increasing, within, _ =>
      have less : first < second := by simpa using increasing
      have low := within first (by simp)
      have high := within second (by simp)
      obtain ⟨rfl, rfl⟩ : first = 1 ∧ second = 2 := by omega
      rfl
  | first :: second :: third :: rest, increasing, within, _ =>
      have order : first < second ∧ second < third := by
        simp only [List.pairwise_cons] at increasing
        exact ⟨increasing.1 second (by simp), increasing.2.1 third (by simp)⟩
      have low := within first (by simp)
      have high := within third (by simp)
      omega

/-- Two rows that both are updated: their requests come in the other order than in the file, and
when the error file cannot be closed the command fails all the same. -/
theorem rows_out_of_order_or_unclosed :
    let data := Bytes.ofText "id;name\n5;Azure\n7;Lumber\n"
    let table : Table := ⟨["id", "name"], [["5", "Azure"], ["7", "Lumber"]]⟩
    let surroundings : Surroundings := ⟨⟨["work"], [(["work", "res_partner.csv"], data)], []⟩, []⟩
    let file : DataFile := ⟨none, ";"⟩
    let invocation : Invocation :=
      ⟨.ofText "config.yml", .none, some 2, false, .send "res_partner" 0 0 file⟩
    let session : Session := ⟨.default, "http://localhost:8069/jsonrpc", some 7⟩
    let replies := [Import.replyWith (.int 7), Import.replyWith (.bool true),
      Import.replyWith (.bool true)]
    let full : WriteFault Bytes := ⟨[], "No space left on device"⟩
    let runWith := fun rest =>
      runOn ⟨2, none, secondFirst, rest⟩ surroundings invocation (.error .post) replies
    CommandLine.parse [] ["import", "-m", "res_partner", "--workers", "2"] = .ok invocation ∧
      Table.read surroundings.files (file.pathFor "res_partner") ⟨';', by decide⟩ = .ok table ∧
      (∃ ended, runWith none = some ended ∧
        ended.value.result.mapError Failure.message = .ok () ∧ ended.sent.length = 3 ∧
        ∀ numbers : List Nat, numbers.Pairwise (· < ·) →
          (∀ number ∈ numbers, table.InWindow 0 0 number) →
          ended.sent.tail ≠ numbers.filterMap fun number =>
            Import.requestOf session "res.partner" table.header (table.row number)) ∧
      ∃ ended, runWith (some full) = some ended ∧
        ended.value.result.mapError Failure.message = .error "Import: Error file writer failed" ∧
        ended.sent.length = 3 ∧ ended.value.warnings = [] := by
  intro data table surroundings file invocation session replies full runWith
  have parsed : CommandLine.parse [] ["import", "-m", "res_partner", "--workers", "2"] =
      .ok invocation := by decide +kernel
  have read : Table.read surroundings.files (file.pathFor "res_partner") ⟨';', by decide⟩ =
      .ok table := toOption_eq_some_iff.1 (by decide +kernel)
  let texts := fun requests : List Request =>
    requests.map fun request => Json.compact (.array request.args)
  have observed : (runWith none).map (fun ended =>
      (ended.value.result.mapError Failure.message, ended.sent.length, texts ended.sent.tail)) =
      some (.ok (), 3,
        ["[\"odoo\",7,\"admin\",\"res.partner\",\"write\",7,\x7b\"name\":\"Lumber\"\x7d]",
          "[\"odoo\",7,\"admin\",\"res.partner\",\"write\",5,\x7b\"name\":\"Azure\"\x7d]"]) := by
    decide +kernel
  have observedFull : (runWith (some full)).map (fun ended =>
      (ended.value.result.mapError Failure.message, ended.sent.length, ended.value.warnings)) =
      some (.error "Import: Error file writer failed", 3, []) := by decide +kernel
  obtain ⟨ended, reached, seen⟩ := Option.map_eq_some_iff.1 observed
  obtain ⟨endedFull, reachedFull, seenFull⟩ := Option.map_eq_some_iff.1 observedFull
  rw [Prod.mk.injEq, Prod.mk.injEq] at seen seenFull
  obtain ⟨result, length, sent⟩ := seen
  refine ⟨parsed, read, ⟨ended, reached, result, length, ?_⟩, endedFull, reachedFull, seenFull⟩
  intro numbers increasing inside same
  -- Two requests belong to two rows, so the numbers are those of both rows.
  have enough := List.length_filterMap_le (fun number =>
    Import.requestOf session "res.partner" table.header (table.row number)) numbers
  rw [← same, List.length_tail, length] at enough
  have both : numbers = [1, 2] := eq_of_increasing_of_two_le increasing
    (fun number member => ⟨(inside number member).behind, (inside number member).inside⟩) enough
  rw [same, both] at sent
  exact absurd sent (by decide +kernel)

end Run

end RemoteRecords
