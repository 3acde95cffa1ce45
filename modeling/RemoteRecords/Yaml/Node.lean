import RemoteRecords.Binary64.Reader
import RemoteRecords.Json.Parser
import RemoteRecords.Text.Integer

namespace RemoteRecords.Yaml

/-- A value of a document. -/
inductive Node where
  | null
  | bool (value : Bool)
  | int (value : Int)
  /-- A number with a fraction or an exponent, as it is written. -/
  | real (text : String)
  | string (text : String)
  | sequence (items : List Node)
  | mapping (pairs : List (Node × Node))
  /-- A text that does not fit its tag, or an alias inside the collection it stands for. -/
  | invalid

namespace Node

/-! ## Equality -/

mutual

/-- Whether two nodes are written alike, styles apart. -/
def same : Node → Node → Bool
  | null, null => true
  | bool left, bool right => left == right
  | int left, int right => left == right
  | real left, real right => left == right
  | string left, string right => left == right
  | sequence left, sequence right => sameItems left right
  | mapping left, mapping right => samePairs left right
  | invalid, invalid => true
  | _, _ => false

def sameItems : List Node → List Node → Bool
  | [], [] => true
  | left :: lefts, right :: rights => same left right && sameItems lefts rights
  | _, _ => false

def samePairs : List (Node × Node) → List (Node × Node) → Bool
  | [], [] => true
  | (key, value) :: lefts, (otherKey, otherValue) :: rights =>
      same key otherKey && same value otherValue && samePairs lefts rights
  | _, _ => false

end

/-! ## Mappings -/

/-- The pairs of keys and values that stand in turn. An invalid key is passed over, so that its
value is the next key; a key that is written twice is not allowed. -/
def pairsOf? : List Node → Option Node → List (Node × Node) → Option (List (Node × Node))
  | [], _, pairs => some pairs.reverse
  | invalid :: rest, none, pairs => pairsOf? rest none pairs
  | key :: rest, none, pairs => pairsOf? rest (some key) pairs
  | value :: rest, some key, pairs =>
      if pairs.any fun pair => same pair.1 key then none
      else pairsOf? rest none ((key, value) :: pairs)

/-- The mapping of keys and values that stand in turn. -/
def mappingOf? (children : List Node) : Option Node :=
  (pairsOf? children none []).map mapping

/-! ## Plain texts -/

/-- The 64-bit integer that an optional sign and digits to the base spell. -/
def radixInteger? (base : Nat) (chars : List Char) : Option Int :=
  let (negative, digits) :=
    match chars with
    | '-' :: rest => (true, rest)
    | '+' :: rest => (false, rest)
    | rest => (false, rest)
  let step (high : Nat) (c : Char) : Option Nat := do
    let digit ← Json.hexValue? c
    if digit < base then some (base * high + digit) else none
  match digits, digits.foldlM step 0 with
  | _ :: _, some number =>
      let value : Int := if negative then -(number : Int) else number
      if Bounds.fits64 value then some value else none
  | _, _ => none

/-- The integer that a plain text spells behind a mark of its base or a plus sign. -/
def markedInteger? : List Char → Option Int
  | '0' :: 'x' :: digits => radixInteger? 16 digits
  | '0' :: 'o' :: digits => radixInteger? 8 digits
  | '+' :: digits => (Text.toInt64 digits).toOption
  | _ => none

/-- The spellings of what is infinite or no number. -/
def unboundedTexts : List String :=
  [".inf", ".Inf", ".INF", "+.inf", "+.Inf", "+.INF", "-.inf", "-.Inf", "-.INF",
    ".nan", ".NaN", ".NAN"]

def isReal (text : String) : Bool :=
  unboundedTexts.contains text || (Binary64.ofChars? text.toList).isSome

/-- What a text without quotes and without a tag stands for. -/
def ofPlain (text : String) : Node :=
  match markedInteger? text.toList with
  | some value => int value
  | none =>
      if ["", "~", "null"].contains text then null
      else if ["true", "True", "TRUE"].contains text then bool true
      else if ["false", "False", "FALSE"].contains text then bool false
      else
        match Text.toInt64 text.toList with
        | .ok value => int value
        | .error _ => if isReal text then real text else string text

/-- What a text without quotes stands for when a tag of the core names its type. -/
def ofCoreTag (type text : String) : Node :=
  match type with
  | "bool" => if text = "true" then bool true else if text = "false" then bool false else invalid
  | "int" =>
      match Text.toInt64 text.toList with
      | .ok value => int value
      | .error _ => invalid
  | "float" => if isReal text then real text else invalid
  | "null" => if text = "~" ∨ text = "null" then null else invalid
  | _ => string text

end Node

end RemoteRecords.Yaml
