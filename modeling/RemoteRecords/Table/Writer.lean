import RemoteRecords.Table.Columns
import RemoteRecords.Table.Separator
import RemoteRecords.Text.Utf8

namespace RemoteRecords

/-- What goes wrong while something is written: what is there by then and what the system says. -/
structure WriteFault (α : Type) where
  left : α
  message : String
  deriving DecidableEq

namespace Table

/-- A row does not have as many cells as the header. -/
structure WidthMismatch where
  found : Nat
  expected : Nat
  deriving DecidableEq, Repr

def WidthMismatch.message (mismatch : WidthMismatch) : String :=
  "CSV error: found record with " ++ Text.ofNat mismatch.found ++
    " fields, but the previous record has " ++ Text.ofNat mismatch.expected ++ " fields"

/-! ## Cells -/

/-- Whether a cell has to be quoted: it holds the separator, a quote or a line end. -/
def needsQuotes (separator : Char) (cell : List Char) : Bool :=
  cell.any fun c => c == separator || c == '"' || c == '\r' || c == '\n'

/-- The cell with each quote doubled. -/
def doubleQuotes : List Char → List Char
  | [] => []
  | c :: rest => if c = '"' then '"' :: '"' :: doubleQuotes rest else c :: doubleQuotes rest

/-! ## Writing -/

/-- A table that is being written. The quote that closes a quoted cell is written together with what
follows the cell. -/
structure Writer where
  separator : Separator
  /-- The number of columns. -/
  width : Nat
  /-- What has been written. -/
  text : String
  /-- The number of cells of the unfinished row. -/
  cells : Nat
  /-- Whether the last cell waits for its closing quote. -/
  quoted : Bool
  /-- Whether nothing of the unfinished row has been written. -/
  bare : Bool

namespace Writer

def put (writer : Writer) (chars : List Char) : Writer :=
  { writer with text := writer.text ++ String.ofList chars }

/-- Writes the closing quote that the last cell waits for. -/
def closeQuote (writer : Writer) : Writer :=
  if writer.quoted then { writer.put ['"'] with quoted := false, bare := false } else writer

/-- Writes the separator when the row has cells already. -/
def separate (writer : Writer) : Writer :=
  if writer.cells = 0 then writer
  else { writer.closeQuote.put [writer.separator.char] with bare := false }

/-- Writes one cell. -/
def addCell (writer : Writer) (cell : String) : Writer :=
  let started := writer.separate
  let chars := cell.toList
  if needsQuotes writer.separator.char chars then
    { started.put ('"' :: doubleQuotes chars) with
      cells := writer.cells + 1, quoted := true, bare := false }
  else
    { started.put chars with
      cells := writer.cells + 1, quoted := false, bare := started.bare && chars.isEmpty }

/-- Ends the row. A row of which nothing has been written becomes a pair of quotes. -/
def endRow (writer : Writer) : Writer :=
  let closed := writer.closeQuote
  let filled := if closed.bare then closed.put ['"', '"'] else closed
  { filled.put ['\n'] with cells := 0, quoted := false, bare := true }

/-- Writes a row. A row of the wrong width is not ended: its cells stay, and those of the next row
follow them. -/
def addRow (writer : Writer) (row : List String) : Except WidthMismatch Unit × Writer :=
  let written := row.foldl addCell writer
  if written.cells = writer.width then (.ok (), written.endRow)
  else (.error ⟨written.cells, writer.width⟩, written)

/-- Writes the cells of a record under the columns. -/
def addRecord (writer : Writer) (columns : List String) (record : Record) :
    Except WidthMismatch Unit × Writer :=
  writer.addRow (rowOf columns record)

/-- A table that holds its header. -/
def start (separator : Separator) (columns : List String) : Writer :=
  (columns.foldl addCell ⟨separator, columns.length, "", 0, false, true⟩).endRow

def bytes (writer : Writer) : Bytes := .ofText writer.text

end Writer

/-! ## Calls -/

/-- What a table writer is asked to do. -/
inductive Call where
  | record (record : Record)
  | row (cells : List String)
  /-- To hand on all that has been written. -/
  | finish

namespace Writer

/-- Does what a call asks for. Nothing can go wrong when the text is handed on. -/
def perform (columns : List String) (writer : Writer) :
    Call → Except WidthMismatch Unit × Writer
  | .record record => writer.addRecord columns record
  | .row cells => writer.addRow cells
  | .finish => (.ok (), writer)

/-- Does what the calls ask for in order, whether or not those before have succeeded. -/
def performAll (columns : List String) (writer : Writer) :
    List Call → List (Except WidthMismatch Unit) × Writer
  | [] => ([], writer)
  | call :: calls =>
      let (result, next) := perform columns writer call
      let (results, last) := performAll columns next calls
      (result :: results, last)

end Writer

end Table

end RemoteRecords
