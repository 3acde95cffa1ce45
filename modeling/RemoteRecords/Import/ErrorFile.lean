import RemoteRecords.Path

namespace RemoteRecords.Import

/-- What the name of an error file adds to the stem of the data file's name. -/
def errorEnding : String := "_err.csv"

/-- The file beside a data file that takes its rejected rows. Its name begins with what is read in
the stem of the data file's name. -/
def errorPathBy (reading : List Char → List Char) (dataFile : Path) : Path :=
  dataFile.withFileName
    (reading (Path.stem (dataFile.fileName?.getD [])) ++ errorEnding.toList)

/-- The error file of a data file whose path is text, which is read as it is. -/
def errorPath (dataFile : Path) : Path := errorPathBy id dataFile

/-- Bytes are read as text, with U+FFFD in place of what is ill formed. -/
def readBytes (stem : List Char) : List Char :=
  Path.bytewise (.ofText (Path.bytesOf stem).lossyText)

/-- The error file of a data file at a path of bytes. -/
def errorPathOfBytes (dataFile : Path) : Path := errorPathBy readBytes dataFile

end RemoteRecords.Import
