import RemoteRecords.Proofs.Run.Sent

/-!
# Sending a file in turns

When the offset goes up by the limit from run to run, the runs import the windows of the data file.
Together they import every data row once (`windows_send_every_row`).
-/

namespace RemoteRecords

namespace Table

theorem mem_of_mem_select {table : Table} {offset limit : Nat} {row : List String}
    (member : row ∈ table.select offset limit) : row ∈ table.rows := by
  obtain ⟨index, inRange, rfl⟩ := List.mem_iff_getElem.1 member
  obtain ⟨same, -, -⟩ := table.getElem?_select offset limit inRange
  rw [List.getElem?_eq_getElem inRange] at same
  exact List.mem_of_getElem? same.symm

end Table

namespace Run

open Session (Reply Request loginRequest)

/-- One run of several: what it finds, what it is asked and the replies it gets. -/
structure Turn where
  surroundings : Surroundings
  invocation : Invocation
  replies : List Reply

namespace Turn

/-- The requests of a turn. -/
def sent (turn : Turn) (exhausted : Reply) : List Request :=
  ((run turn.surroundings turn.invocation).replay exhausted turn.replies).sent

/-- A turn is asked for the rows of the table behind an offset, up to a limit, and gets as far as
importing them for the user `uid`. -/
structure Imports (turn : Turn) (model : String) (offset limit : Nat) (file : DataFile)
    (exhausted : Reply) (table : Table) (connection : Connection) (url : String) (uid : Int) :
    Prop where
  asked : turn.invocation.command = .send model offset limit file
  ready : HasRows turn.surroundings turn.invocation offset (file.pathFor model) file.separator
    table connection url
  loggedIn : LogsIn exhausted turn.replies uid
  created : ∃ names,
    turn.surroundings.files.target (Import.errorPath (file.pathFor model)) = .ok names

section Imports

variable {turn : Turn} {model : String} {offset limit : Nat} {file : DataFile}
  {exhausted : Reply} {table : Table} {connection : Connection} {url : String} {uid : Int}
  (imports : turn.Imports model offset limit file exhausted table connection url uid)

include imports

theorem Imports.exists_import :
    ∃ accepted, Table.Separator.ofText file.separator = .ok accepted ∧
      turn.sent exhausted = loginRequest connection url ::
        (Import.replayImport accepted ⟨connection, url, some uid⟩ (Model.serverName model)
          table.header (table.select offset limit) exhausted turn.replies.tail).sent := by
  obtain ⟨accepted, found, read⟩ := imports.ready.reads
  obtain ⟨names, created⟩ := imports.created
  refine ⟨accepted, found, ?_⟩
  rw [sent, sent_run_of_created imports.asked found read imports.ready.more
    imports.ready.connects imports.loggedIn created]

theorem Imports.tail_sent (fit : ∀ row ∈ table.rows, row.length = table.header.length) :
    (turn.sent exhausted).tail = (table.select offset limit).filterMap
      (Import.requestOf ⟨connection, url, some uid⟩ (Model.serverName model) table.header) := by
  obtain ⟨accepted, -, sends⟩ := imports.exists_import
  have selectedFit : ∀ row ∈ table.select offset limit, row.length = table.header.length :=
    fun row member => fit row (Table.mem_of_mem_select member)
  rw [sends, List.tail_cons]
  exact (Import.accounts_fates _ _ _ _ _ selectedFit).sent

end Imports

end Turn

/-- The rows that a table gives for an offset and a limit never lie outside it: they are those that
remain when the first ones are dropped and the rest is cut. The windows of one size divide the rows,
so runs whose offsets are the multiples of their limit import every data row once; together they send
what the rows ask for, in the order of the file. -/
theorem windows_send_every_row {table : Table}
    (held : table.rows.length ≤ Bounds.greatestNat64) :
    (∀ offset limit, table.select? offset limit = some (table.select offset limit) ∧
      table.select offset limit =
        if limit = 0 then table.rows.drop offset else (table.rows.drop offset).take limit) ∧
    ∀ size, 0 < size →
      (∀ index, index < table.windowCount size ↔ index * size < table.rows.length) ∧
      (table.windows size).flatten = table.rows ∧
      ∀ (turns : Nat → Turn) (model : String) (file : DataFile) (exhausted : Reply)
        (connection : Connection) (url : String) (uid : Int),
        (∀ index < table.windowCount size, (turns index).Imports model (index * size) size file
          exhausted table connection url uid) →
        (∀ index < table.windowCount size, ∃ accepted,
          Table.Separator.ofText file.separator = .ok accepted ∧
          (turns index).sent exhausted = loginRequest connection url ::
            (Import.replayImport accepted ⟨connection, url, some uid⟩ (Model.serverName model)
              table.header (table.select (index * size) size) exhausted
              (turns index).replies.tail).sent) ∧
        ((∀ row ∈ table.rows, row.length = table.header.length) →
          (List.range (table.windowCount size)).flatMap
              (fun index => ((turns index).sent exhausted).tail) =
            table.rows.filterMap (Import.requestOf ⟨connection, url, some uid⟩
              (Model.serverName model) table.header)) := by
  refine ⟨fun offset limit => ?_, fun size positive => ⟨fun index => ?_, ?_, ?_⟩⟩
  · rw [table.select_eq offset limit held, table.select?_eq_some offset limit held]
    exact ⟨rfl, rfl⟩
  · exact Table.lt_windowCount_iff positive
  · exact Table.flatten_windows positive held
  · intro turns model file exhausted connection url uid imports
    refine ⟨fun index inRange => (imports index inRange).exists_import, fun fit => ?_⟩
    have sends : ∀ index ∈ List.range (table.windowCount size),
        ((turns index).sent exhausted).tail = (table.select (index * size) size).filterMap
          (Import.requestOf ⟨connection, url, some uid⟩ (Model.serverName model) table.header) :=
      fun index member => (imports index (List.mem_range.1 member)).tail_sent fit
    rw [List.flatMap_def, List.map_congr_left sends, ← Table.flatten_windows positive held,
      List.filterMap_flatten, Table.windows, List.map_map]
    rfl

theorem windows_send_every_row_two_turns :
    let data := Bytes.ofText "id;name\n5;Azure\n-1;Deco\n7;Lumber\n"
    let files : FileTree := ⟨["work"], [(["work", "res_partner.csv"], data)], []⟩
    let file : DataFile := ⟨none, ";"⟩
    let table : Table := ⟨["id", "name"], [["5", "Azure"], ["-1", "Deco"], ["7", "Lumber"]]⟩
    let turns : Nat → Turn := fun index =>
      ⟨⟨files, []⟩,
        ⟨.ofText "config.yml", .none, none, false, .send "res_partner" (index * 2) 2 file⟩,
        [Import.replyWith (.int 7), Import.replyWith (.bool true)]⟩
    let session : Session := ⟨.default, "http://localhost:8069/jsonrpc", some 7⟩
    table.rows.length ≤ Bounds.greatestNat64 ∧
      (∀ row ∈ table.rows, row.length = table.header.length) ∧
      (∀ index < table.windowCount 2, (turns index).Imports "res_partner" (index * 2) 2 file
        (.error .post) table session.connection session.url 7) ∧
      table.select 2 2 = [["7", "Lumber"]] ∧
      (table.windows 2).flatten = table.rows ∧
      table.windowCount 2 = 2 ∧
      (List.range (table.windowCount 2)).flatMap
          (fun index => ((turns index).sent (.error .post)).tail) =
        table.rows.filterMap (Import.requestOf session "res.partner" table.header) ∧
      (List.range (table.windowCount 2)).map (fun index =>
          ((turns index).sent (.error .post)).map fun request =>
            Json.compact (.array request.args)) =
        [["[\"odoo\",\"admin\",\"admin\"]",
            "[\"odoo\",7,\"admin\",\"res.partner\",\"write\",5,\x7b\"name\":\"Azure\"\x7d]",
            "[\"odoo\",7,\"admin\",\"res.partner\",\"create\",\x7b\"name\":\"Deco\"\x7d]"],
          ["[\"odoo\",\"admin\",\"admin\"]",
            "[\"odoo\",7,\"admin\",\"res.partner\",\"write\",7,\x7b\"name\":\"Lumber\"\x7d]"]] := by
  intro data files file table turns session
  have held : table.rows.length ≤ Bounds.greatestNat64 := by decide
  have fit : ∀ row ∈ table.rows, row.length = table.header.length := by decide
  have read : Table.read files (file.pathFor "res_partner") ⟨';', by decide⟩ = .ok table :=
    toOption_eq_some_iff.1 (by decide +kernel)
  have loads : Settings.load files [] (some (.ofText "config.yml")) .none =
      .ok session.connection := by decide +kernel
  have reached : session.connection.endpoint = .ok session.url := by decide +kernel
  have imports : ∀ index < table.windowCount 2, (turns index).Imports "res_partner" (index * 2) 2
      file (.error .post) table session.connection session.url 7 := by
    intro index inRange
    have more : index * 2 < table.rows.length := (Table.lt_windowCount_iff (by decide)).1 inRange
    have found : Table.Separator.ofText file.separator = .ok ⟨';', by decide⟩ := by decide +kernel
    have created : files.target (Import.errorPath (file.pathFor "res_partner")) =
        .ok ["work", "res_partner_err.csv"] := by decide +kernel
    exact ⟨rfl, ⟨⟨_, found, read⟩, more, loads, reached⟩, ⟨rfl, rfl⟩, _, created⟩
  obtain ⟨selects, divides⟩ := windows_send_every_row held
  obtain ⟨-, windows, sends⟩ := divides 2 (by decide)
  obtain ⟨-, requests⟩ := sends turns "res_partner" file (.error .post) session.connection
    session.url 7 imports
  have served : Model.serverName "res_partner" = "res.partner" := by decide +kernel
  rw [served] at requests
  refine ⟨held, fit, imports, (selects 2 2).2, windows, by decide, requests fit, ?_⟩
  decide +kernel

end Run

end RemoteRecords
