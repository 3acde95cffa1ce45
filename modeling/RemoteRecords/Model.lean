import RemoteRecords.Text.Blank

namespace RemoteRecords.Model

/-- The server's name of a model: dots in place of underscores. -/
def serverName (model : String) : String :=
  String.ofList (model.toList.map fun c => if c = '_' then '.' else c)

/-- The names in a list with commas between them; blank ones are left out. -/
def fieldNames (text : Option String) : List String :=
  match text with
  | none => []
  | some text =>
      (((Text.splitOn ',' text.toList).map (Text.trimBoth Text.isBlank)).filter
        fun name => !name.isEmpty).map String.ofList

end RemoteRecords.Model
