import RemoteRecords.Json.Basic
import RemoteRecords.Table.Columns
import RemoteRecords.Text.Blank
import RemoteRecords.Text.Integer

namespace RemoteRecords.Import

/-- What an imported row asks for. -/
inductive Action where
  | create (record : Record)
  | update (id : Int) (record : Record)

/-- Why a row asks for nothing. -/
inductive PlanError where
  | width (columns values : Nat)
  | missingId
  | invalidId (text : String) (fault : Text.IntegerFault)
  deriving DecidableEq, Repr

def PlanError.message : PlanError → String
  | .width columns values =>
      "incorrect key value count: " ++ Text.ofNat columns ++ " columns, " ++
        Text.ofNat values ++ " values"
  | .missingId => "missing id column"
  | .invalidId text fault => "invalid id '" ++ text ++ "': " ++ fault.message

/-- The id that stands for a record still to be created. -/
def newRecordId : Int := -1

/-- The cells of a row by column; of several columns with one name the last counts. -/
def cellsByColumn (header row : List String) : Fields String :=
  Fields.ofPairs (header.zip row)

/-- What is done with a row under the header: the cell under the identifier decides, and the other
cells are the fields that are sent. -/
def plan (header row : List String) : Except PlanError Action :=
  if header.length ≠ row.length then .error (.width header.length row.length)
  else
    let cells := cellsByColumn header row
    match cells.find? Table.idField with
    | none => .error .missingId
    | some text =>
        let record := (cells.erase Table.idField).map fun cell => (cell.1, Json.string cell.2)
        match Text.toInt64 (Text.trimBoth Text.isBlank text.toList) with
        | .error fault => .error (.invalidId text fault)
        | .ok id => .ok (if id = newRecordId then .create record else .update id record)

end RemoteRecords.Import
