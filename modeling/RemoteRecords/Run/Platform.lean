import RemoteRecords.Settings.File
import RemoteRecords.Table.Writer

namespace RemoteRecords.Run

/-- The parts in which a table goes to its file. -/
inductive Part where
  | header
  | row
  /-- What has been held back until the end. -/
  | rest
  deriving DecidableEq

/-- What the program is built with and what it runs on. -/
structure Platform where
  /-- The formats of settings files. -/
  formats : List Settings.Format
  /-- What goes wrong while records are printed; `none` when all of them come out. -/
  printing : Option (WriteFault String)
  /-- What goes wrong while records go to a file; `none` when it takes all of them. -/
  saving : Option (Part × WriteFault Bytes)

/-- The formats that are read here, and nothing goes wrong. -/
def Platform.plain : Platform := ⟨Settings.standardFormats, none, none⟩

end RemoteRecords.Run
