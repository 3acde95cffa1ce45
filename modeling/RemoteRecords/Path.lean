import RemoteRecords.Text.Blank
import RemoteRecords.Text.Utf8

namespace RemoteRecords

/-- A path cut at its slashes. The segments of a rooted path are those after the first slash. -/
structure Path where
  rooted : Bool
  segments : List (List Char)
  deriving DecidableEq, Repr

namespace Path

def ofChars : List Char → Path
  | '/' :: rest => ⟨true, Text.splitOn '/' rest⟩
  | chars => ⟨false, Text.splitOn '/' chars⟩

def ofText (text : String) : Path := ofChars text.toList

/-- The segments with a slash between two of them. -/
def joinSegments : List (List Char) → List Char
  | [] => []
  | [segment] => segment
  | segment :: rest => segment ++ '/' :: joinSegments rest

def chars (path : Path) : List Char :=
  if path.rooted then '/' :: joinSegments path.segments else joinSegments path.segments

def text (path : Path) : String := String.ofList path.chars

/-- Segments that lead nowhere: empty ones and single dots. -/
def isIdle (segment : List Char) : Bool :=
  segment.isEmpty || segment == ['.']

/-- The segments without the idle ones at their end. -/
def dropIdleEnd (segments : List (List Char)) : List (List Char) :=
  (segments.reverse.dropWhile isIdle).reverse

/-- The segments up to the last component. A leading dot of a path that is not rooted is a component
of its own. -/
def trimmed (path : Path) : List (List Char) :=
  match path.rooted, path.segments with
  | false, first :: rest =>
      if first = ['.'] then first :: dropIdleEnd rest else dropIdleEnd (first :: rest)
  | _, segments => dropIdleEnd segments

/-- The last component when it is a name, that is, neither a dot nor two dots. -/
def fileName? (path : Path) : Option (List Char) :=
  match path.trimmed.getLast? with
  | some name => if name = ['.'] ∨ name = ['.', '.'] then none else some name
  | none => none

/-- The directory that holds the last component. -/
def parent (path : Path) : Path :=
  ⟨path.rooted, (Path.mk path.rooted path.trimmed.dropLast).trimmed⟩

/-- The name without its last dot and what follows it, unless the dot comes first. -/
def stem (name : List Char) : List Char :=
  match (name.reverse.dropWhile (· ≠ '.')).tail.reverse with
  | [] => name
  | before => before

/-- The path of `name` inside the directory. -/
def push (directory : Path) (name : List Char) : Path :=
  let held := directory.chars
  if held.isEmpty || held.getLast? == some '/' then ofChars (held ++ name)
  else ofChars (held ++ '/' :: name)

/-- The path with `name` in place of its file name, or below it when it ends in no name. -/
def withFileName (path : Path) (name : List Char) : Path :=
  match path.fileName? with
  | some _ => path.parent.push name
  | none => path.push name

/-! ## Names of bytes -/

/-- Bytes as characters: each stands as the character with its number. -/
def bytewise (bytes : Bytes) : List Char := bytes.map fun byte => Char.ofNat byte.toNat

/-- The bytes that stand as the characters. Characters with larger numbers are left out. -/
def bytesOf (chars : List Char) : Bytes :=
  chars.filterMap fun c => if c.toNat < 256 then some c.toNat.toUInt8 else none

/-- The path of bytes, which need not be well-formed text. Its segments hold them one by one. -/
def ofBytes (bytes : Bytes) : Path := ofChars (bytewise bytes)

end Path

end RemoteRecords
