import RemoteRecords.Import.Plan
import RemoteRecords.Proofs.Fields
import RemoteRecords.Proofs.Text.Numerals

/-!
# Planned rows

Of several columns with one name the last one counts (`LastCell`). A row asks for something exactly
when it has the width of the header and the last identifier column holds the numeral of a 64-bit
integer between blanks (`HasId`), and what it sends are the cells of all other columns (`Sends`).
`plan_eq_ok_iff` describes each planned action in these words.
-/

namespace RemoteRecords.Import

open Table (idField)

/-! ## Cells by column -/

/-- The cell stands under the last column of this name. -/
def LastCell (header row : List String) (name cell : String) : Prop :=
  ∃ columns later cells laterCells, header = columns ++ name :: later ∧
    row = cells ++ cell :: laterCells ∧ columns.length = cells.length ∧ name ∉ later

section Cells

variable {header row : List String} {name : String}

theorem find?_cellsByColumn_eq_some_iff (width : header.length = row.length) {cell : String} :
    (cellsByColumn header row).find? name = some cell ↔ LastCell header row name cell := by
  rw [cellsByColumn, Fields.find?_ofPairs_eq_some_iff]
  constructor
  · rintro ⟨before, after, pairs, last⟩
    have names := congrArg (List.map Prod.fst) pairs
    have cells := congrArg (List.map Prod.snd) pairs
    rw [List.map_fst_zip (Nat.le_of_eq width), List.map_append, List.map_cons] at names
    rw [List.map_snd_zip (Nat.le_of_eq width.symm), List.map_append, List.map_cons] at cells
    exact ⟨_, _, _, _, names, cells, by simp, last⟩
  · rintro ⟨columns, later, cells, laterCells, rfl, rfl, above, last⟩
    have behind : later.length = laterCells.length := by
      simp only [List.length_append, List.length_cons] at width
      omega
    refine ⟨columns.zip cells, later.zip laterCells, List.zip_append above, ?_⟩
    rwa [List.map_fst_zip (Nat.le_of_eq behind)]

theorem mem_names_cellsByColumn (width : header.length = row.length) :
    name ∈ (cellsByColumn header row).names ↔ name ∈ header := by
  rw [cellsByColumn, Fields.mem_names_ofPairs, List.map_fst_zip (Nat.le_of_eq width)]

theorem exists_lastCell (width : header.length = row.length) (column : name ∈ header) :
    ∃ cell, LastCell header row name cell := by
  rw [← mem_names_cellsByColumn width, Fields.mem_names_iff, Option.isSome_iff_exists] at column
  obtain ⟨cell, found⟩ := column
  exact ⟨cell, (find?_cellsByColumn_eq_some_iff width).1 found⟩

end Cells

/-! ## What a row sends -/

/-- The record has each column but the identifier once, with the cell that stands under the last
column of this name. -/
structure Sends (header row : List String) (record : Record) : Prop where
  sorted : record.Sorted
  named : ∀ name, name ∈ record.names ↔ name ∈ header ∧ name ≠ idField
  cells : ∀ name cell, name ≠ idField → LastCell header row name cell →
    record.find? name = some (.string cell)

/-- The cells of a row that are sent. -/
def sentFields (header row : List String) : Record :=
  ((cellsByColumn header row).erase idField).map fun cell => (cell.1, Json.string cell.2)

section Record

variable {header row : List String} {record : Record}

theorem find?_sentFields (header row : List String) (name : String) :
    (sentFields header row).find? name =
      if name = idField then none
      else ((cellsByColumn header row).find? name).map .string := by
  rw [sentFields, Fields.find?_map, Fields.find?_erase]
  by_cases identifier : idField = name
  · rw [if_pos identifier, if_pos identifier.symm]
    rfl
  · rw [if_neg identifier, if_neg (Ne.symm identifier)]

theorem sends_sentFields (width : header.length = row.length) :
    Sends header row (sentFields header row) := by
  refine ⟨?_, ?_, ?_⟩
  · exact Fields.sorted_map _ (Fields.sorted_erase (Fields.sorted_ofPairs _))
  · intro name
    rw [Fields.mem_names_iff, find?_sentFields, ← mem_names_cellsByColumn width,
      Fields.mem_names_iff]
    by_cases identifier : name = idField <;> simp [identifier]
  · intro name cell other last
    rw [find?_sentFields, if_neg other, (find?_cellsByColumn_eq_some_iff width).2 last]
    rfl

theorem Sends.find?_idField (sends : Sends header row record) : record.find? idField = none := by
  rw [← Option.not_isSome_iff_eq_none, ← Fields.mem_names_iff, sends.named]
  exact fun named => named.2 rfl

theorem Sends.eq_sentFields (width : header.length = row.length)
    (sends : Sends header row record) : record = sentFields header row := by
  have fields := sends_sentFields width
  refine Fields.eq_of_find?_eq sends.sorted fields.sorted fun name => ?_
  by_cases column : name ∈ header ∧ name ≠ idField
  · obtain ⟨cell, last⟩ := exists_lastCell width column.1
    rw [sends.cells name cell column.2 last, fields.cells name cell column.2 last]
  · have absent {other : Record} (others : Sends header row other) : other.find? name = none := by
      rw [← Option.not_isSome_iff_eq_none, ← Fields.mem_names_iff, others.named]
      exact column
    rw [absent sends, absent fields]

end Record

/-! ## Planned actions -/

/-- The cell under the last identifier column is the numeral of the 64-bit integer `id`, with white
space at its ends or without. -/
def HasId (header row : List String) (id : Int) : Prop :=
  ∃ cell numeral, LastCell header row idField cell ∧
    Text.Trims (fun c => Text.isBlank c = true) cell.toList numeral ∧ Text.Numeral numeral id ∧
    -2 ^ 63 ≤ id ∧ id ≤ 2 ^ 63 - 1

/-- The action on a record under an id. -/
def actionOf (id : Int) (record : Record) : Action :=
  if id = -1 then .create record else .update id record

def Action.record : Action → Record
  | .create record => record
  | .update _ record => record

section Plan

variable {header row : List String} {id : Int} {action : Action}

theorem toInt64_trimBoth_eq_ok_iff {text : String} :
    Text.toInt64 (Text.trimBoth Text.isBlank text.toList) = .ok id ↔
      ∃ numeral, Text.Trims (fun c => Text.isBlank c = true) text.toList numeral ∧
        Text.Numeral numeral id ∧ -2 ^ 63 ≤ id ∧ id ≤ 2 ^ 63 - 1 := by
  rw [Text.toInt64_eq_ok_iff, Bounds.fits64_iff]
  constructor
  · rintro ⟨numeral, low, high⟩
    exact ⟨_, Text.trimBoth_eq_iff.1 rfl, numeral, low, high⟩
  · rintro ⟨numeral, trims, spelled, low, high⟩
    rw [Text.trimBoth_eq_iff.2 trims]
    exact ⟨spelled, low, high⟩

theorem plan_of_hasId (width : header.length = row.length) (identified : HasId header row id) :
    plan header row = .ok (actionOf id (sentFields header row)) := by
  obtain ⟨cell, numeral, last, spelled⟩ := identified
  have found := (find?_cellsByColumn_eq_some_iff width).2 last
  have read := toInt64_trimBoth_eq_ok_iff.2 ⟨numeral, spelled⟩
  rw [plan, if_neg (not_not.2 width)]
  simp only [found, read]
  rfl

theorem hasId_of_plan (planned : plan header row = .ok action) :
    header.length = row.length ∧
      ∃ id, HasId header row id ∧ action = actionOf id (sentFields header row) := by
  rw [plan] at planned
  split at planned
  · cases planned
  · next same =>
      have width := not_not.1 same
      dsimp only at planned
      split at planned
      · cases planned
      · next text found =>
          split at planned
          · cases planned
          · next id read =>
              obtain ⟨numeral, spelled⟩ := toInt64_trimBoth_eq_ok_iff.1 read
              have last := (find?_cellsByColumn_eq_some_iff width).1 found
              exact ⟨width, id, ⟨text, numeral, last, spelled⟩, (Except.ok.inj planned).symm⟩

/-- A row is planned exactly when it has the width of the header and an id, and it asks for what the
id says with the cells of its other columns. -/
theorem plan_eq_ok_iff (header row : List String) :
    ((∃ action, plan header row = .ok action) ↔
        header.length = row.length ∧ ∃ id, HasId header row id) ∧
      (∀ action, plan header row = .ok action ↔
        header.length = row.length ∧ ∃ id record, HasId header row id ∧
          Sends header row record ∧ action = actionOf id record) ∧
      ∀ action, plan header row = .ok action → action.record.find? idField = none := by
  refine ⟨?_, ?_, ?_⟩
  · constructor
    · rintro ⟨action, planned⟩
      obtain ⟨width, id, identified, -⟩ := hasId_of_plan planned
      exact ⟨width, id, identified⟩
    · rintro ⟨width, id, identified⟩
      exact ⟨_, plan_of_hasId width identified⟩
  · intro action
    constructor
    · intro planned
      obtain ⟨width, id, identified, same⟩ := hasId_of_plan planned
      exact ⟨width, id, sentFields header row, identified, sends_sentFields width, same⟩
    · rintro ⟨width, id, record, identified, sends, rfl⟩
      rw [sends.eq_sentFields width]
      exact plan_of_hasId width identified
  · intro action planned
    obtain ⟨width, id, -, rfl⟩ := hasId_of_plan planned
    have absent := (sends_sentFields width).find?_idField
    rw [actionOf]
    split <;> exact absent

/-- Of two columns with one name the second counts, and the numeral of -1 may have a zero in it. -/
theorem plan_eq_ok_iff_repeated_columns :
    let header := ["id", "name", "id", "name"]
    let row := ["5", "Azure", "\u00A0-01\t", " Deco "]
    let action : Action := .create [("name", .string " Deco ")]
    plan header row = .ok action ∧
      (∃ id record, HasId header row id ∧ Sends header row record ∧
        action = actionOf id record) ∧
      action.record.find? idField = none := by
  intro header row action
  have planned : plan header row = .ok action := by rfl
  obtain ⟨-, described, unidentified⟩ := plan_eq_ok_iff header row
  exact ⟨planned, ((described action).1 planned).2, unidentified action planned⟩

end Plan

end RemoteRecords.Import
