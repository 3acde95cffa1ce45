import RemoteRecords.Table.Separator
import RemoteRecords.Text.Decimal
import RemoteRecords.Text.Utf8

namespace RemoteRecords.Table

/-! ## Rows of bytes -/

/-- A place in a file: the number of line feeds and of bytes before it. -/
structure Mark where
  lines : Nat
  bytes : Nat
  deriving DecidableEq, Repr

/-- The place after one more byte. -/
def Mark.after (mark : Mark) (byte : UInt8) : Mark :=
  ⟨if byte = 10 then mark.lines + 1 else mark.lines, mark.bytes + 1⟩

/-- A row whose cells have not been decoded, and where the row before it has ended. -/
structure RawRow where
  start : Mark
  cells : List Bytes
  deriving DecidableEq, Repr

/-- Where the reader stands within a row. -/
inductive Place where
  | rowStart
  /-- Behind a carriage return that has ended a row; a line feed belongs to it. -/
  | afterReturn
  | cellStart
  | plain
  | quoted
  /-- Behind a quote inside a quoted cell. -/
  | afterQuote
  deriving DecidableEq, Repr

/-- What one byte does. -/
inductive Effect where
  | skip (next : Place)
  | copy (next : Place)
  | endCell
  | endRow (next : Place)
  deriving DecidableEq, Repr

/-- A byte that may end a row. -/
def isLineEnd (byte : UInt8) : Bool := byte == 10 || byte == 13

/-- A byte outside quotes: separators and line ends count, anything else belongs to the cell. -/
def outside (separator byte : UInt8) : Effect :=
  if byte = separator then .endCell
  else if byte = 13 then .endRow .afterReturn
  else if byte = 10 then .endRow .rowStart
  else .copy .plain

/-- A byte where a cell begins; a quote opens a quoted cell. -/
def opening (separator byte : UInt8) : Effect :=
  if byte = 34 then .skip .quoted else outside separator byte

/-- A byte where a row begins; line ends before a row mean nothing. -/
def beginning (separator byte : UInt8) : Effect :=
  if isLineEnd byte then .skip .rowStart else opening separator byte

def effect (separator : UInt8) (place : Place) (byte : UInt8) : Effect :=
  match place with
  | .rowStart => beginning separator byte
  | .afterReturn => if byte = 10 then .skip .rowStart else beginning separator byte
  | .cellStart => opening separator byte
  | .plain => outside separator byte
  | .quoted => if byte = 34 then .skip .afterQuote else .copy .quoted
  | .afterQuote => if byte = 34 then .copy .quoted else outside separator byte

/-- A row that is being read: the mark where it started, its finished cells and the current one,
both last first. -/
structure Partial where
  start : Mark
  cells : List Bytes
  cell : Bytes

def Partial.row (part : Partial) : RawRow :=
  ⟨part.start, (part.cell.reverse :: part.cells).reverse⟩

/-- The rows of the bytes from a place within a row on. -/
def rawRows (separator : UInt8) (place : Place) (now : Mark) (part : Partial) :
    Bytes → List RawRow
  | [] =>
      match place with
      | .rowStart => []
      | .afterReturn => []
      | _ => [part.row]
  | byte :: rest =>
      let next := now.after byte
      match effect separator place byte with
      | .skip place => rawRows separator place next part rest
      | .copy place =>
          rawRows separator place next { part with cell := byte :: part.cell } rest
      | .endCell =>
          rawRows separator .cellStart next
            { part with cells := part.cell.reverse :: part.cells, cell := [] } rest
      | .endRow place => part.row :: rawRows separator place next ⟨next, [], []⟩ rest

/-- The rows of a file; a byte order mark at its start is no part of them. -/
def rowsOf (separator : UInt8) (bytes : Bytes) : List RawRow :=
  let body := bytes.withoutMark
  rawRows separator .rowStart ⟨0, bytes.length - body.length⟩ ⟨⟨0, 0⟩, [], []⟩ body

/-! ## Rows of text -/

/-- A cell that is not well formed: the row and the cell by number, the start of the row, and the
number of well-formed bytes in the cell. -/
structure BadCell where
  row : Nat
  cell : Nat
  start : Mark
  validUpTo : Nat
  deriving DecidableEq, Repr

def BadCell.message (bad : BadCell) : String :=
  "CSV parse error: record " ++ Text.ofNat bad.row ++
    " (line " ++ Text.ofNat (bad.start.lines + 1) ++
    ", field: " ++ Text.ofNat bad.cell ++
    ", byte: " ++ Text.ofNat bad.start.bytes ++
    "): invalid utf-8: invalid UTF-8 in field " ++ Text.ofNat bad.cell ++
    " near byte index " ++ Text.ofNat bad.validUpTo

/-- The texts of cells, the first of which has the given number. -/
def decodeCells (row : Nat) (start : Mark) (number : Nat) :
    List Bytes → Except BadCell (List String)
  | [] => .ok []
  | cell :: rest =>
      match cell.text? with
      | none => .error ⟨row, number, start, cell.validUpTo⟩
      | some text => (decodeCells row start (number + 1) rest).map (text :: ·)

/-- The texts of rows, the first of which has the given number. -/
def decodeRows (number : Nat) : List RawRow → Except BadCell (List (List String))
  | [] => .ok []
  | row :: rest =>
      match decodeCells number row.start 0 row.cells with
      | .error bad => .error bad
      | .ok cells => (decodeRows (number + 1) rest).map (cells :: ·)

end RemoteRecords.Table
