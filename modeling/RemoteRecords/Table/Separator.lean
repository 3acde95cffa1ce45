namespace RemoteRecords.Table

/-- The ASCII character between two cells of a row. -/
structure Separator where
  char : Char
  ascii : char.toNat < 128 := by decide
  deriving DecidableEq

namespace Separator

def comma : Separator := ⟨',', by decide⟩

/-- The separator as a byte. -/
def byte (separator : Separator) : UInt8 := separator.char.toNat.toUInt8

/-- The separator that a text asks for: its first character, which must be ASCII, or a comma when
the text is empty. -/
def ofText (text : String) : Except Char Separator :=
  match text.toList with
  | [] => .ok comma
  | c :: _ => if ascii : c.toNat < 128 then .ok ⟨c, ascii⟩ else .error c

/-- The message that a character is no separator. -/
def rejection (c : Char) : String :=
  "CSV: separator '" ++ String.singleton c ++ "' is not an ASCII character"

end Separator

end RemoteRecords.Table
