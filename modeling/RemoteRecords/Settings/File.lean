import RemoteRecords.FileTree
import RemoteRecords.Settings.Layer
import RemoteRecords.Yaml.Document

namespace RemoteRecords.Settings

/-! ## What the file holds -/

/-- The key that a node stands for. -/
def keyOf? : Yaml.Node → Option String
  | .string text => some text
  | .int value => some (Text.ofInt value)
  | .bool value => some (if value then "true" else "false")
  | .real text => some text
  | _ => none

/-- The content of a settings file. -/
inductive Content where
  | map (entries : List (String × Value))
  | other (value : Value)

def Content.value : Content → Value
  | map _ => .map
  | other value => value

mutual

/-- The content that a node stands for; `none` when some number in it is not finite or some key is
no text. -/
def ofNode? : Yaml.Node → Option Content
  | .null => some (.other .null)
  | .invalid => some (.other .null)
  | .bool value => some (.other (.bool value))
  | .int value => some (.other (.int value))
  | .real text => (Binary64.ofChars? text.toList).map fun value => .other (.float value)
  | .string text => some (.other (.string text))
  | .sequence items => if ofItems items then some (.other .sequence) else none
  | .mapping pairs => (ofPairs? pairs).map .map

/-- Whether all items stand for something. -/
def ofItems : List Yaml.Node → Bool
  | [] => true
  | item :: items => (ofNode? item).isSome && ofItems items

def ofPairs? : List (Yaml.Node × Yaml.Node) → Option (List (String × Value))
  | [] => some []
  | (key, node) :: pairs =>
      match keyOf? key, ofNode? node, ofPairs? pairs with
      | some key, some content, some entries => some ((key, content.value) :: entries)
      | _, _, _ => none

end

/-- The value that a JSON value stands for; a number that is no 64-bit integer is taken as a
floating-point number. -/
def valueOfJson : Json → Value
  | .null => .null
  | .bool value => .bool value
  | .int value =>
      if Bounds.fits64 value then .int value else .float (.ofInt value)
  | .float value => .float value
  | .string text => .string text
  | .array _ => .sequence
  | .object _ => .map

def ofJson : Json → Content
  | .object members => .map (members.map fun member => (member.1, valueOfJson member.2))
  | other => .other (valueOfJson other)

/-- The content of a YAML text. An empty one is an empty map. -/
def contentOfYaml? (text : String) : Option Content :=
  match Yaml.document? text with
  | some (some node) => ofNode? node
  | some none => some (.map [])
  | none => none

def contentOfJson? (text : String) : Option Content := (Json.ofText? text).map ofJson

/-! ## Formats -/

/-- A format of settings files: how the names of such files end and what their texts mean. -/
structure Format where
  ending : String
  /-- The content of a text; `none` when it does not follow the rules of the format. -/
  read : String → Option Content

/-- The formats whose texts are read here. Any other format is a further item of such a list; the
endings are tried in its order. -/
def standardFormats : List Format :=
  [⟨"yaml", contentOfYaml?⟩, ⟨"yml", contentOfYaml?⟩, ⟨"json", contentOfJson?⟩]

/-- The format that the ending of a file's name stands for. -/
def formatOf? (formats : List Format) (path : Path) : Option Format := do
  let name ← path.fileName?
  let ending := String.ofList (name.drop ((Path.stem name).length + 1))
  formats.find? fun format => format.ending == ending

/-! ## Where the file is -/

/-- The paths that are tried when there is no file at the path itself. -/
def completions (formats : List Format) (path : Path) : List (Path × Format) :=
  match path.fileName? with
  | some name =>
      formats.map fun format => (path.withFileName (name ++ '.' :: format.ending.toList), format)
  | none => []

/-- The bytes of the file at a path; `none` when there is none. -/
def fileAt? (files : FileTree) (path : Path) : Option Bytes :=
  match files.openFile path with
  | .ok (some bytes) => some bytes
  | _ => none

/-- The settings file that a path leads to, with its own path and its format. A file whose ending
is not known is passed over. -/
def findFile? (formats : List Format) (files : FileTree) (path : Path) :
    Option (Path × Format × Bytes) :=
  match fileAt? files path with
  | some bytes => (formatOf? formats path).map fun format => (path, format, bytes)
  | none =>
      (completions formats path).findSome? fun (path, format) =>
        (fileAt? files path).map fun bytes => (path, format, bytes)

/-- What messages call a file: its path without the steps that lead nowhere. -/
def fileName (path : Path) : String :=
  (Path.mk path.rooted (path.segments.filter fun segment => !Path.isIdle segment)).text

/-! ## Its entries -/

/-- Why a settings file is of no use. -/
inductive FileFault where
  | unreadable
  /-- The content is not a map. -/
  | notMap (found : Value) (name : String)
  deriving DecidableEq

def FileFault.message : FileFault → String
  | .unreadable => "settings file cannot be parsed"
  | .notMap found name =>
      "failed to load settings: invalid type: " ++ found.description ++
        ", expected a map in " ++ name ++ " in " ++ name

/-- The entries of a settings file. -/
def layerOf (path : Path) (format : Format) (bytes : Bytes) : Except FileFault Layer :=
  match format.read bytes.withoutMark.lossyText with
  | none => .error .unreadable
  | some (.other found) => .error (.notMap found (fileName path))
  | some (.map entries) =>
      .ok (entries.map fun entry => (entry.1, .ofSource (.file (fileName path)) entry.2))

/-- The entries of the settings file that a path leads to; none when there is no such file. -/
def fileLayer (formats : List Format) (files : FileTree) (path : Path) : Except FileFault Layer :=
  match findFile? formats files path with
  | some (path, format, bytes) => layerOf path format bytes
  | none => .ok []

end RemoteRecords.Settings
