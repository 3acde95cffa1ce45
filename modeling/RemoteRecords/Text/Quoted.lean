import RemoteRecords.Text.Invisible

namespace RemoteRecords.Text

/-- The digits of a number to base sixteen, in lower case and without leading zeros. -/
def hexDigits (number : Nat) : List Char :=
  if number < 16 then [Nat.digitChar number]
  else hexDigits (number / 16) ++ [Nat.digitChar (number % 16)]
termination_by number
decreasing_by omega

/-- One character of a text that a message shows in quotes. -/
def shownChar (c : Char) : List Char :=
  if c = '"' then ['\\', '"']
  else if c = '\\' then ['\\', '\\']
  else if c = '\t' then ['\\', 't']
  else if c = '\n' then ['\\', 'n']
  else if c = '\r' then ['\\', 'r']
  else if c = '\x00' then ['\\', '0']
  else if isInvisible c then
    ['\\', 'u', '\x7b'] ++ hexDigits c.toNat ++ ['\x7d']
  else [c]

/-- The text as a message shows it: in double quotes, with escapes for quotes, backslashes and
what cannot be seen. -/
def shown (text : String) : String :=
  String.ofList ('"' :: text.toList.flatMap shownChar ++ ['"'])

end RemoteRecords.Text
