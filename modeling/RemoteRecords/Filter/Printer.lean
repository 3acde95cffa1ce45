import RemoteRecords.Filter.Basic
import RemoteRecords.Json.Basic
import RemoteRecords.Text.Blank

namespace RemoteRecords.Filter

/-! ## Text form -/

/-- A text in single quotes; nothing inside is escaped. -/
def quote (text : String) : String := "'" ++ text ++ "'"

def Term.text (term : Term) : String :=
  "(" ++ quote term.field ++ "," ++ quote term.comparator.text ++ "," ++ quote term.value ++ ")"

def Node.text : Node → String
  | .leaf term => term.text
  | .binary connective left right =>
      quote connective.text ++ "," ++ left.text ++ "," ++ right.text
  | .negation operand => quote negationText ++ "," ++ operand.text

/-- The nodes in brackets; the empty filter has the empty text. -/
def text (filter : Filter) : String :=
  if filter.isEmpty then ""
  else "[" ++ Text.joinWith "," (filter.nodes.map Node.text) ++ "]"

/-! ## Wire form -/

def Term.wire (term : Term) : Json :=
  .ofStrings [term.field, term.comparator.text, term.value]

def Node.wire : Node → Json
  | .leaf term => term.wire
  | .binary connective left right => .array [.string connective.text, left.wire, right.wire]
  | .negation operand => .array [.string negationText, operand.wire]

/-- What a server is sent for the filter: the list of its nodes. -/
def wire (filter : Filter) : Json :=
  .array (filter.nodes.map Node.wire)

end RemoteRecords.Filter
