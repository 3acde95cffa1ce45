import RemoteRecords.Fields
import RemoteRecords.Settings.Value
import RemoteRecords.Text.Blank

namespace RemoteRecords

/-! ## Entries -/

namespace Settings

/-- Where a value comes from. -/
inductive Origin where
  | file (name : String)
  | environment
  deriving DecidableEq

/-- What a message adds about the origin. -/
def Origin.note : Origin → String
  | .file name => " in " ++ name
  | .environment => " in the environment"

/-- A value and where it comes from, if a message is to tell. -/
structure Entry where
  value : Value
  origin : Option Origin
  deriving DecidableEq

/-- An entry from a source. Nothing is told about the origin of a map. -/
def Entry.ofSource (origin : Origin) (value : Value) : Entry :=
  match value with
  | .map => ⟨.map, none⟩
  | value => ⟨value, some origin⟩

/-- The entries of one source, in the order in which they are applied. -/
abbrev Layer := List (String × Entry)

/-! ## Keys -/

/-- A step from a collection into it. -/
inductive Step where
  | key
  | index
  deriving DecidableEq

/-- The characters of a name in a key. -/
def isNameChar (c : Char) : Bool := Text.isWord c || c == '-'

/-- The number in brackets that begins here, and what follows it. -/
def indexStep? (chars : List Char) : Option (List Char) :=
  let unsigned := if chars.head? = some '-' then chars.tail else chars
  let (digits, rest) := unsigned.span Char.isDigit
  match digits, rest with
  | _ :: _, ']' :: rest => some rest
  | _, _ => none

/-- The steps behind the first name of a key: `.name` and `[number]`. -/
def stepsOf? : Nat → List Char → Option (List Step)
  | _, [] => some []
  | 0, _ => none
  | fuel + 1, '.' :: rest =>
      match rest.span isNameChar with
      | ([], _) => none
      | (_, rest) => (stepsOf? fuel rest).map (.key :: ·)
  | fuel + 1, '[' :: rest =>
      match indexStep? rest with
      | some rest => (stepsOf? fuel rest).map (.index :: ·)
      | none => none
  | _, _ => none

/-- The setting that a key is about and the steps into it. A key that is no path is a name. -/
def splitKey (key : String) : String × List Step :=
  let (first, rest) := key.toList.span isNameChar
  match first, stepsOf? rest.length rest with
  | _ :: _, some steps => (String.ofList first, steps)
  | _, _ => (key, [])

end Settings

/-- The entries of all settings, by name. -/
abbrev Settings := Fields Settings.Entry

namespace Settings

/-- What an entry becomes when something is set inside it. -/
def graft (step : Step) (entry : Option Entry) : Entry :=
  let fresh : Value :=
    match step with
    | .key => .map
    | .index => .sequence
  match entry with
  | some entry => if entry.value = fresh then entry else ⟨fresh, none⟩
  | none => ⟨fresh, none⟩

/-- The settings with one more entry, which replaces what the key held. -/
def set (settings : Settings) (key : String) (entry : Entry) : Settings :=
  match splitKey key with
  | (name, []) => settings.insert name entry
  | (name, step :: _) => settings.insert name (graft step (settings.find? name))

/-- The settings with all entries of a layer, which win over what is there. -/
def apply (settings : Settings) (layer : Layer) : Settings :=
  layer.foldl (fun settings pair => settings.set pair.1 pair.2) settings

end Settings

end RemoteRecords
