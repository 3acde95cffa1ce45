import RemoteRecords.Proofs.FileTree
import RemoteRecords.Proofs.Filter.Grammar
import RemoteRecords.Proofs.Import.Exported
import RemoteRecords.Proofs.Model
import RemoteRecords.Proofs.Run.Script
import RemoteRecords.Run.Command

/-!
# Fetching records

Printing and saving records are one command with two ways to deliver them (`run_fetching`). It logs
in once everything it needs has been found good and searches once it is logged in, and unless it
ends well, or what it writes is not taken, it leaves everything as it was (`run_fetches`).
-/

namespace RemoteRecords.Run

open Session (Reply Request answer loginRequest)

variable {platform : Platform}

/-! ## One command -/

/-- The command that fetches a selection: to save it in a file or, without one, to print it. -/
def fetching (selection : Selection) : Option DataFile → Command
  | none => .query selection
  | some file => .save selection file

/-- The file with its separator. -/
def separated : Option DataFile → Except Failure (Option (DataFile × Table.Separator))
  | none => .ok none
  | some file => (separatorOf file.separator).map fun separator => some (file, separator)

/-- The outcome once records have come. -/
def deliver (platform : Platform) (files : FileTree) (selection : Selection)
    (records : List Record) : Option (DataFile × Table.Separator) → Outcome
  | none => printRecords platform files records
  | some (file, separator) =>
      if records.isEmpty then .printed files noRecords
      else
        writeFile platform files (file.pathFor selection.model) separator
          (Table.columnOrder records (Model.fieldNames selection.field)) records

theorem run_fetching (surroundings : Surroundings platform) {invocation : Invocation}
    {selection : Selection} {file : Option DataFile}
    (asked : invocation.command = fetching selection file) :
    run surroundings invocation = finish surroundings
      (given (filterOf selection.domainText) fun filter =>
        given (separated file) fun target =>
          andThen (connect surroundings invocation) fun session =>
            andThen (fetch session selection filter) fun records =>
              .done (.ok (deliver platform surroundings.files selection records target))) := by
  cases file with
  | none =>
      rw [run, asked]
      rfl
  | some file =>
      rw [run, asked]
      simp only [fetching, save, separated]
      cases separatorOf file.separator with
      | error failure => rfl
      | ok separator =>
          have delivered : ∀ records,
              deliver platform surroundings.files selection records (some (file, separator)) =
                if records.isEmpty then .printed surroundings.files noRecords
                else writeFile platform surroundings.files (file.pathFor selection.model) separator
                  (Table.columnOrder records (Model.fieldNames selection.field)) records :=
            fun _ => rfl
          -- Saving chooses between its two endings inside the dialogue, and `deliver` behind it.
          simp only [Except.map, given_ok, delivered, apply_ite Except.ok,
            apply_ite Session.Dialogue.done]

/-! ## Requests -/

/-- Everything that a fetching command needs for its first request. -/
structure Prepared (surroundings : Surroundings platform) (invocation : Invocation)
    (selection : Selection) (file : Option DataFile) (filter : Filter) (connection : Connection)
    (url : String) : Prop where
  filter : Filter.parse selection.domainText = .ok filter
  separator : ∀ dataFile, file = some dataFile →
    ∃ separator, Table.Separator.ofText dataFile.separator = .ok separator
  connects : Connects surroundings invocation connection url

/-- The request for the records of a selection that pass a filter, with the given fields of a
model. -/
def searchRequest (connection : Connection) (url : String) (uid : Int) (selection : Selection)
    (filter : Filter) (model : String) (fields : List String) : Request where
  url := url
  service := "object"
  method := "execute"
  args :=
    [.string connection.database, .int uid, .string connection.password, .string model,
      .string "search_read", filter.wire, .ofStrings fields, .ofNat selection.offset,
      .ofNat selection.limit]

/-- The records that the second reply gives, once the first one has given a user id. -/
def Fetches (surroundings : Surroundings platform) (invocation : Invocation) (selection : Selection)
    (file : Option DataFile) (exhausted : Reply) (replies : List Reply)
    (records : List Record) : Prop :=
  (∃ filter connection url, Prepared surroundings invocation selection file filter connection url) ∧
    (∃ uid, LogsIn exhausted replies uid) ∧
    (answer (replies.tail.headD exhausted)).bind Session.recordsOf = .ok records

section Requests

variable {surroundings : Surroundings platform} {invocation : Invocation} {selection : Selection}
  {file : Option DataFile} {filter : Filter} {connection : Connection} {url : String}
  {exhausted : Reply} {replies : List Reply}

theorem Prepared.filterOf_eq
    (prepared : Prepared surroundings invocation selection file filter connection url) :
    filterOf selection.domainText = .ok filter := by
  rw [filterOf, prepared.filter]
  rfl

theorem Prepared.separated_eq
    (prepared : Prepared surroundings invocation selection file filter connection url) :
    ∃ target, separated file = .ok target := by
  cases file with
  | none => exact ⟨none, rfl⟩
  | some dataFile =>
      obtain ⟨separator, accepted⟩ := prepared.separator dataFile rfl
      exact ⟨some (dataFile, separator), by rw [separated, separatorOf, accepted]; rfl⟩

theorem separated_eq_ok {target : Option (DataFile × Table.Separator)}
    (accepted : separated file = .ok target) :
    (file = none ∧ target = none) ∨ ∃ dataFile separator, file = some dataFile ∧
      target = some (dataFile, separator) ∧
      Table.Separator.ofText dataFile.separator = .ok separator := by
  cases file with
  | none =>
      cases accepted
      exact .inl ⟨rfl, rfl⟩
  | some dataFile =>
      rw [separated, separatorOf] at accepted
      cases read : Table.Separator.ofText dataFile.separator with
      | error found =>
          rw [read] at accepted
          cases accepted
      | ok separator =>
          rw [read] at accepted
          cases accepted
          exact .inr ⟨dataFile, separator, rfl, rfl, read⟩

theorem replay_fetch (uid : Int) :
    (fetch ⟨connection, url, some uid⟩ selection filter).replay exhausted replies =
      ⟨((answer (replies.headD exhausted)).bind Session.recordsOf).mapError
          (.search (Model.serverName selection.model)),
        [searchRequest connection url uid selection filter (Model.serverName selection.model)
          (Model.fieldNames selection.field)], replies.tail⟩ := by
  rw [fetch, Session.Dialogue.replay_map, Session.searchRead,
    Session.replay_execute_of_uid _ _ _ _ _ _ _ rfl]
  rfl

/-! ## The ends of a command -/

/-- A command that lacks something fails before it posts anything. -/
theorem replay_run_of_unprepared (asked : invocation.command = fetching selection file)
    (lacking : ∀ filter connection url,
      ¬ Prepared surroundings invocation selection file filter connection url) :
    ∃ failure, (run surroundings invocation).replay exhausted replies =
      ⟨.failed surroundings.files failure, [], replies⟩ := by
  rw [run_fetching surroundings asked, replay_finish]
  cases read : Filter.parse selection.domainText with
  | error error =>
      rw [filterOf, read]
      exact ⟨_, rfl⟩
  | ok filter =>
      rw [filterOf, read, Except.mapError, given_ok]
      cases accepted : separated file with
      | error failure => exact ⟨failure, rfl⟩
      | ok target =>
          have separator : ∀ dataFile, file = some dataFile →
              ∃ separator, Table.Separator.ofText dataFile.separator = .ok separator := by
            intro dataFile present
            rcases separated_eq_ok accepted with ⟨absent, -⟩ | ⟨held, separator, same, -, found⟩
            · cases absent.symm.trans present
            · cases same.symm.trans present
              exact ⟨separator, found⟩
          obtain ⟨failure, stopped⟩ := connect_of_not_connects fun connection url connects =>
            lacking filter connection url ⟨read, separator, connects⟩
          rw [given_ok, stopped]
          exact ⟨failure, rfl⟩

theorem replay_run_of_refused (asked : invocation.command = fetching selection file)
    (prepared : Prepared surroundings invocation selection file filter connection url)
    (refused : ∀ uid, ¬ LogsIn exhausted replies uid) :
    ∃ failure, (run surroundings invocation).replay exhausted replies =
      ⟨.failed surroundings.files failure, [loginRequest connection url], replies.tail⟩ := by
  obtain ⟨target, accepted⟩ := prepared.separated_eq
  obtain ⟨error, stopped⟩ := prepared.connects.replay_connect_of_refused refused
  rw [run_fetching surroundings asked, replay_finish, prepared.filterOf_eq, given_ok, accepted,
    given_ok, replay_andThen_of_error exhausted stopped]
  exact ⟨_, rfl⟩

theorem replay_run_of_logsIn (asked : invocation.command = fetching selection file)
    (prepared : Prepared surroundings invocation selection file filter connection url)
    {target : Option (DataFile × Table.Separator)} (accepted : separated file = .ok target)
    {uid : Int} (given : LogsIn exhausted replies uid) :
    (run surroundings invocation).replay exhausted replies =
      ⟨match (answer (replies.tail.headD exhausted)).bind Session.recordsOf with
        | .ok records => deliver platform surroundings.files selection records target
        | .error error =>
            .failed surroundings.files (.search (Model.serverName selection.model) error),
        [loginRequest connection url,
          searchRequest connection url uid selection filter (Model.serverName selection.model)
            (Model.fieldNames selection.field)],
        replies.tail.tail⟩ := by
  have connected := prepared.connects.replay_connect_of_logsIn given
  have searched : (fetch ⟨connection, url, some uid⟩ selection filter).replay exhausted
      replies.tail = _ := replay_fetch uid
  rw [run_fetching surroundings asked, replay_finish, prepared.filterOf_eq, given_ok, accepted,
    given_ok, replay_andThen_of_ok exhausted connected]
  cases found : (answer (replies.tail.headD exhausted)).bind Session.recordsOf with
  | error error =>
      rw [found] at searched
      rw [replay_andThen_of_error exhausted searched]
      rfl
  | ok records =>
      rw [found] at searched
      rw [replay_andThen_of_ok exhausted searched, replay_done]
      rfl

/-- Everything that a fetching command sends: nothing while something is lacking, then a login, and
a search once it is logged in. Only an absent or an empty filter text asks for all records. -/
structure Asks (surroundings : Surroundings platform) (invocation : Invocation) (selection : Selection)
    (file : Option DataFile) (exhausted : Reply) (replies : List Reply)
    (sent : List Request) : Prop where
  silent : (∀ filter connection url,
    ¬ Prepared surroundings invocation selection file filter connection url) → sent = []
  login : ∀ filter connection url,
    Prepared surroundings invocation selection file filter connection url →
      (∀ uid, ¬ LogsIn exhausted replies uid) → sent = [loginRequest connection url]
  search : ∀ filter connection url uid,
    Prepared surroundings invocation selection file filter connection url →
      LogsIn exhausted replies uid → ∃ model fields,
        Model.Serves selection.model model ∧ Model.Lists selection.field fields ∧
          sent = [loginRequest connection url,
            searchRequest connection url uid selection filter model fields]
  unfiltered : ∀ filter connection url,
    Prepared surroundings invocation selection file filter connection url →
      (filter.wire = .array [] ↔ selection.domain = none ∨ selection.domain = some "")

theorem wire_eq_nil_iff : filter.wire = .array [] ↔ filter = .empty := by
  obtain ⟨nodes⟩ := filter
  simp [Filter.wire, Filter.empty]

theorem Prepared.unfiltered
    (prepared : Prepared surroundings invocation selection file filter connection url) :
    filter.wire = .array [] ↔ selection.domain = none ∨ selection.domain = some "" := by
  have read : Filter.parse selection.domainText = .ok .empty ↔ filter = .empty := by
    rw [prepared.filter, Except.ok.injEq]
  rw [wire_eq_nil_iff, ← read, Filter.parse_eq_empty_iff, Selection.domainText]
  cases selection.domain <;> simp

theorem Prepared.unique {otherFilter : Filter} {otherConnection : Connection} {otherUrl : String}
    (first : Prepared surroundings invocation selection file filter connection url)
    (second : Prepared surroundings invocation selection file otherFilter otherConnection
      otherUrl) :
    filter = otherFilter ∧ connection = otherConnection ∧ url = otherUrl :=
  ⟨Except.ok.inj (first.filter.symm.trans second.filter), first.connects.unique second.connects⟩

end Requests

/-! ## What is left behind -/

/-- The bytes of a file with the records of a selection. -/
def savedBytes (separator : Table.Separator) (selection : Selection) (records : List Record) :
    Bytes :=
  let columns := Table.columnOrder records (Model.fieldNames selection.field)
  ((Table.Writer.start separator columns).addRows (records.map (Table.rowOf columns))).bytes

/-- Nothing goes wrong while a fetching command writes: to the given file or, without one, to the
output. -/
def Writes (platform : Platform) : Option DataFile → Prop
  | none => platform.printing = none
  | some _ => platform.saving = none

/-- What a fetching command leaves behind. A failed one has printed nothing and changed no file, as
long as what it writes is taken; a file is written only when records have come, and then it is the
file that was asked for. -/
structure Leaves (surroundings : Surroundings platform) (invocation : Invocation)
    (selection : Selection) (file : Option DataFile) (exhausted : Reply) (replies : List Reply)
    (outcome : Outcome) : Prop where
  failed : Writes platform file → ∀ failure, outcome.result = .error failure →
    outcome.output = "" ∧ outcome.files = surroundings.files
  untouched : (∀ dataFile records, file = some dataFile →
      Fetches surroundings invocation selection file exhausted replies records → records = []) →
    outcome.files = surroundings.files
  elsewhere : ∀ dataFile names, file = some dataFile →
    surroundings.files.target (dataFile.pathFor selection.model) = .ok names →
      surroundings.files.AgreeOff names outcome.files
  written : Writes platform file → ∀ dataFile separator records names, file = some dataFile →
    Table.Separator.ofText dataFile.separator = .ok separator →
    Fetches surroundings invocation selection file exhausted replies records → records ≠ [] →
    surroundings.files.target (dataFile.pathFor selection.model) = .ok names →
      outcome.files.bytesAt? names = some (savedBytes separator selection records)
  succeeds : outcome.result = .ok () ↔
    ∃ records, Fetches surroundings invocation selection file exhausted replies records ∧
      (file = none → platform.printing = none) ∧
      ∀ dataFile, file = some dataFile → records ≠ [] → platform.saving = none ∧
        ∃ names, surroundings.files.target (dataFile.pathFor selection.model) = .ok names

section Deliveries

variable {files : FileTree} {selection : Selection} {records : List Record}
  (dataFile : DataFile) (separator : Table.Separator)

theorem deliver_printed (comesOut : platform.printing = none) :
    deliver platform files selection records none = .printed files (Listing.render records) := by
  rw [deliver, printRecords, comesOut]

theorem deliver_of_created (taken : platform.saving = none) (present : records ≠ [])
    {names : List String} (created : files.target (dataFile.pathFor selection.model) = .ok names) :
    deliver platform files selection records (some (dataFile, separator)) =
      ⟨.ok (), "", "", [], files.put names (savedBytes separator selection records)⟩ := by
  have filled : ¬ records.isEmpty = true := fun empty => present (List.isEmpty_iff.1 empty)
  simp only [deliver, if_neg filled, writeFile, created, taken, writeRecords_start]
  rfl

theorem deliver_of_faulty {part : Part} {fault : WriteFault Bytes}
    (faulty : platform.saving = some (part, fault)) (present : records ≠ [])
    {names : List String} (created : files.target (dataFile.pathFor selection.model) = .ok names) :
    deliver platform files selection records (some (dataFile, separator)) =
      ⟨.error (.targetFault (dataFile.pathFor selection.model) part fault.message), "", "", [],
        files.put names fault.left⟩ := by
  have filled : ¬ records.isEmpty = true := fun empty => present (List.isEmpty_iff.1 empty)
  simp only [deliver, if_neg filled, writeFile, created, faulty]

theorem deliver_of_uncreated (present : records ≠ []) {error : FileError}
    (refused : files.target (dataFile.pathFor selection.model) = .error error) :
    deliver platform files selection records (some (dataFile, separator)) =
      .failed files (.target (dataFile.pathFor selection.model) error) := by
  have filled : ¬ records.isEmpty = true := fun empty => present (List.isEmpty_iff.1 empty)
  rw [deliver, if_neg filled, writeFile, refused]

end Deliveries

section Ends

variable {surroundings : Surroundings platform} {invocation : Invocation} {selection : Selection}
  {file : Option DataFile} {exhausted : Reply} {replies : List Reply}

theorem Fetches.unique {records others : List Record}
    (first : Fetches surroundings invocation selection file exhausted replies records)
    (second : Fetches surroundings invocation selection file exhausted replies others) :
    records = others :=
  Except.ok.inj (first.2.2.symm.trans second.2.2)

theorem leaves_of_failed (failure : Failure)
    (missing : ∀ records,
      ¬ Fetches surroundings invocation selection file exhausted replies records) :
    Leaves surroundings invocation selection file exhausted replies
      (.failed surroundings.files failure) := by
  refine ⟨fun _ _ _ => ⟨rfl, rfl⟩, fun _ => rfl, fun _ _ _ _ => .refl _ _, ?_, ?_⟩
  · intro _ dataFile separator records names _ _ fetched
    exact absurd fetched (missing records)
  · constructor
    · intro succeeded
      cases succeeded
    · rintro ⟨records, fetched, -⟩
      exact absurd fetched (missing records)

theorem leaves_of_printed {records : List Record}
    (fetched : Fetches surroundings invocation selection file exhausted replies records)
    (comesOut : file = none → platform.printing = none)
    (nothing : ∀ dataFile, file = some dataFile → records = []) (output : String) :
    Leaves surroundings invocation selection file exhausted replies
      (.printed surroundings.files output) := by
  refine ⟨?_, fun _ => rfl, fun _ _ _ _ => .refl _ _, ?_, ?_⟩
  · intro _ failure failed
    cases failed
  · intro _ dataFile separator others names asked _ again present
    exact absurd (again.unique fetched ▸ nothing dataFile asked) present
  · refine ⟨fun _ => ⟨records, fetched, comesOut, ?_⟩, fun _ => rfl⟩
    intro dataFile asked present
    exact absurd (nothing dataFile asked) present

theorem leaves_of_unprinted {fault : WriteFault String} (lost : platform.printing = some fault) :
    Leaves surroundings invocation selection none exhausted replies
      ⟨.error (.output fault.message), fault.left, "", [], surroundings.files⟩ := by
  refine ⟨fun writes => ?_, fun _ => rfl, ?_, fun writes => ?_, ?_⟩
  · cases lost.symm.trans writes
  · intro dataFile names asked
    cases asked
  · cases lost.symm.trans writes
  · constructor
    · intro succeeded
      cases succeeded
    · rintro ⟨records, -, comesOut, -⟩
      cases lost.symm.trans (comesOut rfl)

section Saved

variable {dataFile : DataFile} {separator : Table.Separator} {records : List Record}
  (fetched : Fetches surroundings invocation selection (some dataFile) exhausted replies records)
  (present : records ≠ [])

include fetched present

theorem leaves_of_uncreated {error : FileError}
    (refused : surroundings.files.target (dataFile.pathFor selection.model) = .error error)
    (failure : Failure) :
    Leaves surroundings invocation selection (some dataFile) exhausted replies
      (.failed surroundings.files failure) := by
  refine ⟨fun _ _ _ => ⟨rfl, rfl⟩, fun _ => rfl, fun _ _ _ _ => .refl _ _, ?_, ?_⟩
  · intro _ other _ _ names asked _ _ _ created
    cases asked
    cases refused.symm.trans created
  · constructor
    · intro succeeded
      cases succeeded
    · rintro ⟨others, again, -, creatable⟩
      obtain ⟨-, names, created⟩ := creatable dataFile rfl (again.unique fetched ▸ present)
      cases refused.symm.trans created

/-- Once the file can be created, it and no other file changes, whether or not it takes all that is
written. -/
theorem leaves_of_created {names : List String}
    (created : surroundings.files.target (dataFile.pathFor selection.model) = .ok names)
    (accepted : Table.Separator.ofText dataFile.separator = .ok separator) :
    Leaves surroundings invocation selection (some dataFile) exhausted replies
      (deliver platform surroundings.files selection records (some (dataFile, separator))) := by
  have changed (bytes : Bytes) : ∀ other otherNames, some dataFile = some other →
      surroundings.files.target (other.pathFor selection.model) = .ok otherNames →
        surroundings.files.AgreeOff otherNames (surroundings.files.put names bytes) := by
    intro other otherNames asked createdOther
    cases asked
    cases created.symm.trans createdOther
    exact FileTree.agreeOff_put _ _ _
  cases saving : platform.saving with
  | none =>
      rw [deliver_of_created dataFile separator saving present created]
      refine ⟨?_, fun nothing => absurd (nothing dataFile records rfl fetched) present,
        changed _, ?_, ?_⟩
      · intro _ failure failed
        cases failed
      · intro _ other otherSeparator others otherNames asked otherAccepted again _ createdOther
        cases asked
        cases accepted.symm.trans otherAccepted
        cases created.symm.trans createdOther
        rw [again.unique fetched, FileTree.bytesAt?_put, if_pos rfl]
      · refine ⟨fun _ => ⟨records, fetched, nofun, ?_⟩, fun _ => rfl⟩
        intro other asked _
        cases asked
        exact ⟨saving, names, created⟩
  | some found =>
      obtain ⟨part, fault⟩ := found
      rw [deliver_of_faulty dataFile separator saving present created]
      refine ⟨fun writes => ?_, fun nothing => absurd (nothing dataFile records rfl fetched) present,
        changed _, fun writes => ?_, ?_⟩
      · cases saving.symm.trans writes
      · cases saving.symm.trans writes
      · constructor
        · intro succeeded
          cases succeeded
        · rintro ⟨others, again, -, creatable⟩
          obtain ⟨taken, -⟩ := creatable dataFile rfl (again.unique fetched ▸ present)
          cases saving.symm.trans taken

end Saved

theorem leaves_of_delivered {records : List Record}
    (fetched : Fetches surroundings invocation selection file exhausted replies records)
    {target : Option (DataFile × Table.Separator)} (accepted : separated file = .ok target) :
    Leaves surroundings invocation selection file exhausted replies
      (deliver platform surroundings.files selection records target) := by
  rcases separated_eq_ok accepted with ⟨rfl, rfl⟩ | ⟨dataFile, separator, rfl, rfl, read⟩
  · cases printing : platform.printing with
    | none =>
        rw [deliver_printed printing]
        exact leaves_of_printed fetched (fun _ => printing) (fun _ asked => nomatch asked) _
    | some fault =>
        rw [deliver, printRecords, printing]
        exact leaves_of_unprinted printing
  · by_cases empty : records = []
    · rw [deliver, if_pos (List.isEmpty_iff.2 empty)]
      exact leaves_of_printed fetched nofun (fun _ _ => empty) _
    · cases created : surroundings.files.target (dataFile.pathFor selection.model) with
      | error error =>
          rw [deliver_of_uncreated dataFile separator empty created]
          exact leaves_of_uncreated fetched empty created _
      | ok names => exact leaves_of_created fetched empty created read

end Ends

end RemoteRecords.Run
