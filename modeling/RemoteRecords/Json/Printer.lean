import RemoteRecords.Json.Number

namespace RemoteRecords.Json

/-! ## Strings -/

/-- A digit below sixteen in lower case. -/
def hexDigit (digit : Nat) : Char :=
  if digit < 10 then Char.ofNat (48 + digit) else Char.ofNat (87 + digit)

/-- One character between the quotes: quote, backslash and control characters are escaped. -/
def escapeChar (c : Char) : List Char :=
  if c = '"' then ['\\', '"']
  else if c = '\\' then ['\\', '\\']
  else if c = '\x08' then ['\\', 'b']
  else if c = '\t' then ['\\', 't']
  else if c = '\n' then ['\\', 'n']
  else if c = '\x0C' then ['\\', 'f']
  else if c = '\r' then ['\\', 'r']
  else if c.toNat < 32 then
    ['\\', 'u', '0', '0', hexDigit (c.toNat / 16), hexDigit (c.toNat % 16)]
  else [c]

/-- A text in quotes. -/
def quotedChars (text : String) : List Char :=
  '"' :: text.toList.flatMap escapeChar ++ ['"']

/-! ## Compact text -/

mutual

/-- The text of a value without any layout. -/
def compactChars : Json → List Char
  | null => "null".toList
  | bool true => "true".toList
  | bool false => "false".toList
  | int value => Text.intChars value
  | float value => floatChars value
  | string value => quotedChars value
  | array [] => ['[', ']']
  | array (item :: items) => '[' :: compactChars item ++ compactItems items ++ [']']
  | object [] => ['{', '}']
  | object ((name, value) :: members) =>
      '{' :: quotedChars name ++ ':' :: compactChars value ++ compactMembers members ++ ['}']

/-- Further items, each after a comma. -/
def compactItems : List Json → List Char
  | [] => []
  | item :: items => ',' :: compactChars item ++ compactItems items

/-- Further members, each after a comma. -/
def compactMembers : List (String × Json) → List Char
  | [] => []
  | (name, value) :: members =>
      ',' :: quotedChars name ++ ':' :: compactChars value ++ compactMembers members

end

/-- The text of a value without any layout. -/
def compact (value : Json) : String :=
  String.ofList (compactChars value)

/-! ## Indented text -/

/-- A line end and two spaces for each level. -/
def lineBreak (level : Nat) : List Char :=
  '\n' :: List.replicate (2 * level) ' '

mutual

/-- The text of a value with each item and member on a line of its own, two spaces deeper than the
brackets around it; empty brackets stay together. -/
def indentedChars (level : Nat) : Json → List Char
  | array (item :: items) =>
      '[' :: lineBreak (level + 1) ++ indentedChars (level + 1) item ++
        indentedItems (level + 1) items ++ lineBreak level ++ [']']
  | object ((name, value) :: members) =>
      '{' :: lineBreak (level + 1) ++ quotedChars name ++ ':' :: ' ' ::
        indentedChars (level + 1) value ++ indentedMembers (level + 1) members ++
        lineBreak level ++ ['}']
  | value => compactChars value

def indentedItems (level : Nat) : List Json → List Char
  | [] => []
  | item :: items =>
      ',' :: lineBreak level ++ indentedChars level item ++ indentedItems level items

def indentedMembers (level : Nat) : List (String × Json) → List Char
  | [] => []
  | (name, value) :: members =>
      ',' :: lineBreak level ++ quotedChars name ++ ':' :: ' ' :: indentedChars level value ++
        indentedMembers level members

end

/-- The indented text of a value. -/
def indented (value : Json) : String :=
  String.ofList (indentedChars 0 value)

end RemoteRecords.Json
