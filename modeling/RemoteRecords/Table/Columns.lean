import RemoteRecords.Json.Printer

namespace RemoteRecords.Table

/-- The name of the field that identifies a record. -/
def idField : String := "id"

/-- Every field name of the records, in increasing order and each once. -/
def fieldsOf (records : List Record) : List String :=
  Fields.names (Fields.ofPairs ((records.flatMap Fields.names).map fun name => (name, ())))

/-- The columns of a table of records: the identifier, then the requested fields in their order, or
every field of the records when none is requested. -/
def columnOrder (records : List Record) (requested : List String) : List String :=
  let others := if requested.isEmpty then fieldsOf records else requested
  idField :: others.filter (· ≠ idField)

/-- The text of a cell: nothing for null or a missing value, a string as it is, and the JSON text of
anything else. -/
def cellText : Option Json → String
  | none => ""
  | some .null => ""
  | some (.string text) => text
  | some value => value.compact

/-- The cells of a record under the given columns. -/
def rowOf (columns : List String) (record : Record) : List String :=
  columns.map fun name => cellText (record.find? name)

end RemoteRecords.Table
