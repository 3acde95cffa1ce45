import RemoteRecords.Path
import RemoteRecords.Text.Utf8

namespace RemoteRecords

/-- Why a file cannot be opened, read or created. -/
inductive FileError where
  | notFound
  | notDirectory
  | isDirectory
  | nameTooLong
  | zeroByte
  deriving DecidableEq, Repr

def FileError.message : FileError → String
  | .notFound => "No such file or directory (os error 2)"
  | .notDirectory => "Not a directory (os error 20)"
  | .isDirectory => "Is a directory (os error 21)"
  | .nameTooLong => "File name too long (os error 36)"
  | .zeroByte => "file name contained an unexpected NUL byte"

/-- The files that a program sees, each by the names on the way to it from the root. A directory
exists on the way to a file, on the way to the working directory and where the tree says so. -/
structure FileTree where
  /-- The names on the way to the working directory. -/
  place : List String
  files : List (List String × Bytes)
  directories : List (List String)

namespace FileTree

/-- What a path leads to. -/
inductive Spot where
  | file (names : List String) (bytes : Bytes)
  | directory
  /-- Nothing, in a directory that exists. -/
  | vacant (names : List String)
  /-- A missing file that is written as a directory. -/
  | vacantDirectory
  deriving Repr

/-- Whether the names lead to a directory. -/
def hasDirectory (tree : FileTree) (names : List String) : Bool :=
  names.isPrefixOf tree.place || tree.directories.any names.isPrefixOf ||
    tree.files.any fun file => names.isPrefixOf file.1

/-- What lies at the names. -/
def at? (tree : FileTree) (names : List String) : Option Spot :=
  match tree.files.find? fun file => file.1 == names with
  | some file => some (.file names file.2)
  | none => if tree.hasDirectory names then some .directory else none

/-- The longest name and the longest path, in bytes. -/
def maxName : Nat := 255

def maxPath : Nat := 4095

/-- Follows the segments from a directory. -/
def follow (tree : FileTree) (here : List String) : List (List Char) → Except FileError Spot
  | [] => .ok .directory
  | segment :: rest =>
      if Path.isIdle segment then tree.follow here rest
      else if segment = ['.', '.'] then tree.follow here.dropLast rest
      else
        let name := String.ofList segment
        let names := here ++ [name]
        if maxName < name.utf8ByteSize then .error .nameTooLong
        else
          match tree.at? names with
          | some (.file names bytes) =>
              if rest.isEmpty then .ok (.file names bytes) else .error .notDirectory
          | some _ => tree.follow names rest
          | none =>
              if rest.isEmpty then .ok (.vacant names)
              else if rest.all List.isEmpty then .ok .vacantDirectory
              else .error .notFound

/-- What a path leads to from the working directory. -/
def locate (tree : FileTree) (path : Path) : Except FileError Spot :=
  let chars := path.chars
  if chars.isEmpty then .error .notFound
  else if chars.contains '\x00' then .error .zeroByte
  else if maxPath < (String.ofList chars).utf8ByteSize then .error .nameTooLong
  else tree.follow (if path.rooted then [] else tree.place) path.segments

/-- The bytes of the file that is opened, or `none` when a directory is. -/
def openFile (tree : FileTree) (path : Path) : Except FileError (Option Bytes) :=
  match tree.locate path with
  | .ok (.file _ bytes) => .ok (some bytes)
  | .ok .directory => .ok none
  | .ok (.vacant _) => .error .notFound
  | .ok .vacantDirectory => .error .notFound
  | .error error => .error error

/-- The tree with the file at the names holding `bytes`. -/
def put (tree : FileTree) (names : List String) (bytes : Bytes) : FileTree :=
  let files :=
    if tree.files.any fun file => file.1 == names then
      tree.files.map fun file => if file.1 == names then (names, bytes) else file
    else tree.files ++ [(names, bytes)]
  { tree with files }

/-- The names of the file that creating a file at the path makes or empties. -/
def target (tree : FileTree) (path : Path) : Except FileError (List String) :=
  match tree.locate path with
  | .ok (.file names _) => .ok names
  | .ok (.vacant names) => .ok names
  | .ok .directory => .error .isDirectory
  | .ok .vacantDirectory => .error .isDirectory
  | .error error => .error error

end FileTree

end RemoteRecords
