import RemoteRecords.Listing
import RemoteRecords.Model
import RemoteRecords.Run.Basic

namespace RemoteRecords.Run

variable {platform : Platform}

/-! ## Records from the server -/

/-- The records of a selection that pass the filter. -/
def fetch (session : Session) (selection : Selection) (filter : Filter) : Step (List Record) :=
  let model := Model.serverName selection.model
  (session.searchRead model filter selection.offset selection.limit
    (Model.fieldNames selection.field)).map (·.mapError (.search model))

/-! ## Printing them -/

/-- The outcome of printing records. -/
def printRecords (platform : Platform) (files : FileTree) (records : List Record) : Outcome :=
  match platform.printing with
  | none => .printed files (Listing.render records)
  | some fault => ⟨.error (.output fault.message), fault.left, "", [], files⟩

/-- Prints the records of a selection. -/
def query (surroundings : Surroundings platform) (invocation : Invocation) (selection : Selection) :
    Step Outcome :=
  given (filterOf selection.domainText) fun filter =>
    andThen (connect surroundings invocation) fun session =>
      andThen (fetch session selection filter) fun records =>
        .done (.ok (printRecords platform surroundings.files records))

/-! ## Writing them to a file -/

/-- Writes records under the columns, the first one first. -/
def writeRecords (columns : List String) :
    List Record → Table.Writer → Except Table.WidthMismatch Unit × Table.Writer
  | [], writer => (.ok (), writer)
  | record :: records, writer =>
      match writer.addRecord columns record with
      | (.ok _, writer) => writeRecords columns records writer
      | (.error mismatch, writer) => (.error mismatch, writer)

/-- What is printed when there is nothing to write. -/
def noRecords : String := "no records found\n"

/-- Writes records to the file at a path, which is created or emptied first. -/
def writeFile (platform : Platform) (files : FileTree) (path : Path)
    (separator : Table.Separator) (columns : List String) (records : List Record) : Outcome :=
  match files.target path with
  | .error error => .failed files (.target path error)
  | .ok names =>
      match platform.saving with
      | none =>
          let (result, writer) := writeRecords columns records (.start separator columns)
          ⟨result.mapError .record, "", "", [], files.put names writer.bytes⟩
      | some (part, fault) =>
          ⟨.error (.targetFault path part fault.message), "", "", [], files.put names fault.left⟩

/-- Writes the records of a selection to a file. -/
def save (surroundings : Surroundings platform) (invocation : Invocation) (selection : Selection)
    (file : DataFile) : Step Outcome :=
  given (filterOf selection.domainText) fun filter =>
    given (separatorOf file.separator) fun separator =>
      andThen (connect surroundings invocation) fun session =>
        andThen (fetch session selection filter) fun records =>
          if records.isEmpty then .done (.ok (.printed surroundings.files noRecords))
          else
            let columns := Table.columnOrder records (Model.fieldNames selection.field)
            .done (.ok (writeFile platform surroundings.files (file.pathFor selection.model)
              separator columns records))

end RemoteRecords.Run
