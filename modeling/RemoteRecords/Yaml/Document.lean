import RemoteRecords.Yaml.Node
import RemoteRecords.Yaml.Tokens

namespace RemoteRecords.Yaml

/-! ## What is left to read -/

/-- The tokens that are left, the anchors so far and the tag handles of the document. -/
structure Rest where
  tokens : List Token
  /-- The number of every anchor by name, the last one first. -/
  anchors : List (String × Nat)
  /-- The finished nodes by the numbers of their anchors. -/
  nodes : List (Nat × Node)
  handles : List (String × String)

/-- A step of reading; `none` when the tokens do not fit. -/
abbrev Read := StateT Rest Option

namespace Read

def fail {α : Type} : Read α := fun _ => none

/-- The next token, which stays. -/
def peek : Read (Option Token) := return (← get).tokens.head?

def skip : Read Unit := modify fun rest => { rest with tokens := rest.tokens.tail }

/-- Whether the next token, if any, is one of these. -/
def sees (tokens : List Token) : Read Bool := do
  match ← peek with
  | some token => return tokens.contains token
  | none => return false

/-- Passes the token if it comes next. -/
def passes (token : Token) : Read Bool := do
  if ← sees [token] then
    skip
    return true
  else return false

/-! ## Tags and anchors -/

/-- The handle of the tags of the core. -/
def coreHandle : String := "tag:yaml.org,2002:"

/-- What stands before the content of a node. -/
structure Properties where
  tag : Option (String × String)
  anchor : Option Nat

def Properties.isEmpty (properties : Properties) : Bool :=
  properties.tag.isNone && properties.anchor.isNone

/-- The tag with what its handle stands for. A handle with a name has to be declared. -/
def resolveTag (handle suffix : String) : Read (String × String) := do
  match (← get).handles.lookup handle with
  | some stem => return (stem, suffix)
  | none =>
      if handle = "!!" then return (coreHandle, suffix)
      else if 2 ≤ handle.length && handle.endsWith "!" then fail
      else return (handle, suffix)

/-- Gives the name of an anchor the next number. -/
def declare (name : String) : Read Nat := do
  let number := (← get).anchors.length
  modify fun rest => { rest with anchors := (name, number) :: rest.anchors }
  return number

/-- Reads a tag, if there is one. -/
def tag : Read (Option (String × String)) := do
  match ← peek with
  | some (.tag handle suffix) =>
      skip
      some <$> resolveTag handle suffix
  | _ => return none

/-- Reads an anchor, if there is one. -/
def anchor : Read (Option Nat) := do
  match ← peek with
  | some (.anchor name) =>
      skip
      some <$> declare name
  | _ => return none

/-- Reads a tag and an anchor, in either order; both may be missing. -/
def properties : Read Properties := do
  match ← anchor with
  | some number => return ⟨← tag, some number⟩
  | none =>
      let tag ← tag
      return ⟨tag, ← if tag.isSome then anchor else pure none⟩

/-- Finishes a node: aliases of its anchor stand for it from now on. -/
def finish (properties : Properties) (node : Node) : Read Node := do
  match properties.anchor with
  | some number => modify fun rest => { rest with nodes := (number, node) :: rest.nodes }
  | none => pure ()
  return node

/-- The node that an alias stands for. -/
def aliased (name : String) : Read Node := do
  let rest ← get
  match rest.anchors.lookup name with
  | some number => return (rest.nodes.lookup number).getD .invalid
  | none => fail

/-- The node of a text. -/
def scalar (properties : Properties) (plain : Bool) (text : String) : Node :=
  if plain then
    match properties.tag with
    | some (handle, suffix) =>
        if handle = coreHandle then .ofCoreTag suffix text else .string text
    | none => .ofPlain text
  else .string text

/-! ## Nodes -/

/-- Where a node stands. -/
inductive Place where
  /-- In a flow collection. -/
  | flow
  /-- In a block collection, or alone in its document. -/
  | block
  /-- In a block mapping, where a sequence need not be indented. -/
  | blockPair
  deriving DecidableEq

mutual

/-- Reads a node. -/
def node (place : Place) : Nat → Read Node
  | 0 => fail
  | fuel + 1 => do
      if let some (.alias name) ← peek then
        skip
        aliased name
      else
        let properties ← properties
        match ← peek with
        | some (.scalar plain text) =>
            skip
            finish properties (scalar properties plain text)
        | some .flowSequenceStart =>
            skip
            finish properties (.sequence (← flowItems fuel))
        | some .flowMappingStart =>
            skip
            let children ← flowPairs fuel
            let mapping ← Node.mappingOf? children
            finish properties mapping
        | token =>
            if token = some .blockSequenceStart ∧ place ≠ .flow then
              skip
              finish properties (.sequence (← blockItems fuel))
            else if token = some .blockMappingStart ∧ place ≠ .flow then
              skip
              let children ← blockPairs fuel
              let mapping ← Node.mappingOf? children
              finish properties mapping
            else if token = some .blockEntry ∧ place = .blockPair then
              finish properties (.sequence (← bareItems fuel))
            else if properties.isEmpty then fail
            else finish properties (scalar properties true "")

/-- Reads a node, or null where one of the tokens shows that there is none. -/
def nodeUnless (tokens : List Token) (place : Place) : Nat → Read Node
  | 0 => fail
  | fuel + 1 => do if ← sees tokens then return .null else node place fuel

/-- Reads the items of a block sequence and its end. -/
def blockItems : Nat → Read (List Node)
  | 0 => fail
  | fuel + 1 => do
      if ← passes .blockEnd then return []
      else if ← passes .blockEntry then
        let item ← nodeUnless [.blockEntry, .blockEnd] .block fuel
        return item :: (← blockItems fuel)
      else fail

/-- Reads the items of a sequence that is not indented. -/
def bareItems : Nat → Read (List Node)
  | 0 => fail
  | fuel + 1 => do
      if ← passes .blockEntry then
        let item ← nodeUnless [.blockEntry, .key, .value, .blockEnd] .block fuel
        return item :: (← bareItems fuel)
      else return []

/-- Reads the keys and values of a block mapping and its end. -/
def blockPairs : Nat → Read (List Node)
  | 0 => fail
  | fuel + 1 => do
      if ← passes .blockEnd then return []
      else if ← sees [.key, .value] then
        let key ←
          if ← passes .key then nodeUnless [.key, .value, .blockEnd] .blockPair fuel
          else pure .null
        let value ←
          if ← passes .value then nodeUnless [.key, .value, .blockEnd] .blockPair fuel
          else pure .null
        return key :: value :: (← blockPairs fuel)
      else fail

/-- Reads the items of a flow sequence and its end. -/
def flowItems : Nat → Read (List Node)
  | 0 => fail
  | fuel + 1 => do
      if ← passes .flowSequenceEnd then return []
      else
        let item ← node .flow fuel
        if ← passes .flowEntry then return item :: (← flowItems fuel)
        else if ← passes .flowSequenceEnd then return [item]
        else fail

/-- Reads the keys and values of a flow mapping and its end. -/
def flowPairs : Nat → Read (List Node)
  | 0 => fail
  | fuel + 1 => do
      if ← passes .flowMappingEnd then return []
      else
        let marked ← sees [.key, .value]
        let key ←
          if ← passes .key then nodeUnless [.value, .flowEntry, .flowMappingEnd] .flow fuel
          else nodeUnless [.value] .flow fuel
        let value ←
          if !marked then pure .null
          else if ← passes .value then nodeUnless [.flowEntry, .flowMappingEnd] .flow fuel
          else pure .null
        if ← passes .flowEntry then return key :: value :: (← flowPairs fuel)
        else if ← passes .flowMappingEnd then return [key, value]
        else fail

end

/-! ## Documents -/

/-- Passes marks of a document's end. -/
def documentEnds : Nat → Read Unit
  | 0 => fail
  | fuel + 1 => do if ← passes .documentEnd then documentEnds fuel else return ()

/-- Reads directives; no handle is declared twice and the version is told at most once. Gives
whether there were any. -/
def directives : Nat → Bool → Read Bool
  | 0, _ => fail
  | fuel + 1, versioned => do
      match ← peek with
      | some .versionDirective =>
          if versioned then fail
          else
            skip
            discard (directives fuel true)
            return true
      | some (.tagDirective handle stem) =>
          if ((← get).handles.lookup handle).isSome then fail
          else
            skip
            modify fun rest => { rest with handles := (handle, stem) :: rest.handles }
            discard (directives fuel versioned)
            return true
      | _ => return false

/-- Reads the content of a document that has been announced, which may be missing. -/
def announced (fuel : Nat) : Read Node := do
  match ← peek with
  | none => return .null
  | some .versionDirective => return .null
  | some (.tagDirective _ _) => return .null
  | _ => nodeUnless [.documentStart, .documentEnd] .block fuel

/-- Reads the only document of a text, if there is one. -/
def document (fuel : Nat) : Read (Option Node) := do
  documentEnds fuel
  if (← peek).isNone then return none
  else
    let directed ← directives fuel false
    let root ←
      if ← passes .documentStart then announced fuel
      else if directed then fail
      else node .block fuel
    documentEnds fuel
    if (← peek).isNone then return some root else fail

end Read

/-- The document of a text, which holds one at most; `none` when it does not follow the rules. -/
def document? (text : String) : Option (Option Node) := do
  let tokens ← tokens? text.toList
  let (root, _) ← (Read.document (3 * tokens.length + 3)).run ⟨tokens, [], [], []⟩
  return root

end RemoteRecords.Yaml
