import RemoteRecords.Import.Plan
import RemoteRecords.Proofs.Fields
import RemoteRecords.Proofs.Table.RoundTrip
import RemoteRecords.Proofs.Text.Integers
import RemoteRecords.Run.Fetch
import RemoteRecords.Table.File

/-!
# Importing exported records

The rows that are written for records are read back as they are, and each asks for what its record
holds: an update of the record under its id with the texts of its other cells
(`writeRecords_read_back`). The columns have the identifier first and once; where no field is
requested, the others are all fields of the records (`mem_fieldsOf`).
-/

namespace RemoteRecords

namespace Table

/-! ## Columns -/

theorem mem_fieldsOf {records : List Record} {name : String} :
    name ∈ fieldsOf records ↔ ∃ record ∈ records, (record.find? name).isSome = true := by
  rw [fieldsOf, Fields.mem_names_iff, Fields.find?_ofPairs_map (fun _ => ())]
  simp [Fields.mem_names_iff]

theorem pairwise_fieldsOf (records : List Record) : (fieldsOf records).Pairwise (· < ·) :=
  Fields.sorted_iff_names.1 (Fields.sorted_ofPairs _)

/-- Columns for records: the identifier comes first and occurs once, and where no field is requested
every other field of a record has one column, in increasing order. -/
structure OrdersFields (records : List Record) (requested columns : List String) : Prop where
  first : columns.head? = some idField
  once : columns.count idField = 1
  increasing : requested = [] → columns.tail.Pairwise (· < ·)
  complete : requested = [] → ∀ name, name ∈ columns.tail ↔
    name ≠ idField ∧ ∃ record ∈ records, (record.find? name).isSome = true

theorem ordersFields_columnOrder (records : List Record) (requested : List String) :
    OrdersFields records requested (columnOrder records requested) := by
  refine ⟨rfl, ?_, ?_, ?_⟩
  · have absent : idField ∉
        (if requested.isEmpty then fieldsOf records else requested).filter (· ≠ idField) := by
      intro member
      have kept := List.of_mem_filter member
      simp at kept
    rw [columnOrder, List.count_cons_self, List.count_eq_zero_of_not_mem absent]
  · rintro rfl
    exact (pairwise_fieldsOf records).filter _
  · rintro rfl name
    have tail : (columnOrder records []).tail = (fieldsOf records).filter (· ≠ idField) := rfl
    rw [tail, List.mem_filter, mem_fieldsOf, and_comm, decide_eq_true_iff]

theorem readableHeader_columnOrder (records : List Record) (requested : List String) :
    ReadableHeader (columnOrder records requested) :=
  ⟨idField, _, rfl, by decide⟩

theorem length_rowOf (columns : List String) (record : Record) :
    (rowOf columns record).length = columns.length :=
  List.length_map _

end Table

namespace Run

theorem writeRecords_atRowStart (separator : Table.Separator) (columns : List String)
    (records : List Record) (text : String) :
    writeRecords columns records (.atRowStart separator columns.length text) =
      (.ok (), (Table.Writer.atRowStart separator columns.length text).addRows
        (records.map (Table.rowOf columns))) := by
  induction records generalizing text with
  | nil => rfl
  | cons record records inductionHypothesis =>
      have taken := Table.Writer.addRow_atRowStart separator text
        (Table.length_rowOf columns record)
      rw [writeRecords, Table.Writer.addRecord, taken]
      simp only [inductionHypothesis]
      rw [List.map_cons, Table.Writer.addRows, Table.Writer.addRows, List.foldl_cons, taken]

theorem writeRecords_start (separator : Table.Separator) (columns : List String)
    (records : List Record) :
    writeRecords columns records (.start separator columns) =
      (.ok (), (Table.Writer.start separator columns).addRows
        (records.map (Table.rowOf columns))) := by
  rw [Table.Writer.start_eq]
  exact writeRecords_atRowStart separator columns records _

end Run

namespace Import

open Table (idField columnOrder rowOf cellText)

/-! ## Rows of records -/

theorem find?_cellsByColumn_rowOf (columns : List String) (record : Record) (name : String) :
    (cellsByColumn columns (rowOf columns record)).find? name =
      if name ∈ columns then some (cellText (record.find? name)) else none := by
  have cells : columns.zip (rowOf columns record) =
      columns.map fun name => (name, cellText (record.find? name)) := by
    rw [rowOf, ← List.map_prod_left_eq_zip]
  rw [cellsByColumn, cells, Fields.find?_ofPairs_map fun name => cellText (record.find? name)]

/-- The fields that a row of a record sends: the text of each cell but the identifier's, by
column. -/
def Carries (columns : List String) (record : Record) (fields : Record) : Prop :=
  fields.Sorted ∧ ∀ name, fields.find? name =
    if name ∈ columns ∧ name ≠ idField then some (.string (cellText (record.find? name)))
    else none

theorem plan_rowOf {columns : List String} (identified : idField ∈ columns) {record : Record}
    {id : Int} (held : record.find? idField = some (.int id))
    (fits : Bounds.fits64 id = true) :
    ∃ fields, Carries columns record fields ∧
      plan columns (rowOf columns record) =
        .ok (if id = newRecordId then .create fields else .update id fields) := by
  have width : ¬ columns.length ≠ (rowOf columns record).length := by
    rw [Table.length_rowOf]
    exact fun different => different rfl
  have idText : (cellsByColumn columns (rowOf columns record)).find? idField =
      some (Text.ofInt id) := by
    rw [find?_cellsByColumn_rowOf, if_pos identified, held]
    rfl
  have readId : Text.toInt64 (Text.trimBoth Text.isBlank (Text.ofInt id).toList) = .ok id := by
    rw [Text.ofInt, String.toList_ofList, Text.trimBoth_intChars, Text.toInt64_intChars fits]
  refine ⟨((cellsByColumn columns (rowOf columns record)).erase idField).map
    fun cell => (cell.1, Json.string cell.2), ⟨?_, ?_⟩, ?_⟩
  · exact Fields.sorted_map _ (Fields.sorted_erase (Fields.sorted_ofPairs _))
  · intro name
    rw [Fields.find?_map, Fields.find?_erase, find?_cellsByColumn_rowOf]
    by_cases isId : idField = name
    · simp [isId]
    · by_cases present : name ∈ columns <;> simp [isId, Ne.symm isId, present]
  · rw [plan, if_neg width]
    simp only [idText, readId]

/-! ## Whole tables -/

/-- Records that each hold a 64-bit id are written, and the table is read back under the same
columns with one row for each record in order. Such a row asks for the update of the record under
its id, or for its creation when the id is -1, with the texts of its other cells. -/
theorem writeRecords_read_back {separator : Table.Separator} (ordinary : separator.Ordinary)
    {records : List Record} (requested : List String)
    (identified : ∀ record ∈ records,
      ∃ id, record.find? idField = some (.int id) ∧ Bounds.fits64 id = true) :
    let columns := columnOrder records requested
    let written := Run.writeRecords columns records (.start separator columns)
    let table : Table := ⟨columns, records.map (rowOf columns)⟩
    Table.OrdersFields records requested columns ∧
      written.1 = .ok () ∧
      Table.ofBytes separator written.2.bytes = .ok table ∧
      (∀ (files : FileTree) (path : Path), files.openFile path = .ok (some written.2.bytes) →
        Table.read files path separator = .ok table) ∧
      ∀ record ∈ records, ∀ id, record.find? idField = some (.int id) →
        ∃ fields, Carries columns record fields ∧
          plan columns (rowOf columns record) =
            .ok (if id = newRecordId then .create fields else .update id fields) := by
  intro columns written table
  have fit : ∀ row ∈ records.map (rowOf columns), row.length = columns.length := by
    intro row member
    obtain ⟨record, -, rfl⟩ := List.mem_map.1 member
    exact Table.length_rowOf columns record
  have whole : written =
      (.ok (), (Table.Writer.start separator columns).addRows (records.map (rowOf columns))) :=
    Run.writeRecords_start separator columns records
  have readBack : Table.ofBytes separator written.2.bytes = .ok table := by
    rw [whole]
    exact Table.ofBytes_bytes_addRows ordinary
      (Table.readableHeader_columnOrder records requested) fit
  refine ⟨Table.ordersFields_columnOrder records requested, congrArg Prod.fst whole, readBack,
    ?_, ?_⟩
  · intro files path opened
    simp only [Table.read, opened, readBack]
  · intro record member id held
    obtain ⟨other, same, fits⟩ := identified record member
    cases held.symm.trans same
    exact plan_rowOf List.mem_cons_self held fits

theorem writeRecords_read_back_mixed_fields :
    let records : List Record :=
      [[("id", .int 7), ("name", .string "Azure, \"Interior\"")],
        [("country_id", .array [.int 21, .string "Belgium"]), ("id", .int (-1))]]
    let columns := columnOrder records []
    let written := Run.writeRecords columns records (.start .comma columns)
    Table.Separator.comma.Ordinary ∧
      (∀ record ∈ records,
        ∃ id, record.find? idField = some (.int id) ∧ Bounds.fits64 id = true) ∧
      Table.ofBytes .comma written.2.bytes =
        .ok ⟨["id", "country_id", "name"],
          [["7", "", "Azure, \"Interior\""], ["-1", "[21,\"Belgium\"]", ""]]⟩ := by
  intro records columns written
  have ordinary : Table.Separator.comma.Ordinary := by
    refine ⟨?_, ?_, ?_⟩ <;> decide
  have identified : ∀ record ∈ records,
      ∃ id, record.find? idField = some (.int id) ∧ Bounds.fits64 id = true := by
    intro record member
    rcases List.mem_cons.1 member with rfl | later
    · exact ⟨7, rfl, rfl⟩
    · rw [List.mem_singleton.1 later]
      exact ⟨-1, rfl, rfl⟩
  have rows : records.map (rowOf columns) =
      [["7", "", "Azure, \"Interior\""], ["-1", "[21,\"Belgium\"]", ""]] := by
    decide +kernel
  obtain ⟨-, -, readBack, -, -⟩ := writeRecords_read_back ordinary [] identified
  refine ⟨ordinary, identified, readBack.trans ?_⟩
  rw [rows]
  rfl

end Import

end RemoteRecords
