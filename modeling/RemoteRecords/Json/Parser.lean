import RemoteRecords.Json.Number
import RemoteRecords.Text.Blank

namespace RemoteRecords.Json

/-! ## Strings -/

/-- The value of a hexadecimal digit of either case. -/
def hexValue? (c : Char) : Option Nat :=
  if '0' ≤ c ∧ c ≤ '9' then some (c.toNat - 48)
  else if 'a' ≤ c ∧ c ≤ 'f' then some (c.toNat - 87)
  else if 'A' ≤ c ∧ c ≤ 'F' then some (c.toNat - 55)
  else none

/-- The number that four hexadecimal digits spell. -/
def hexFour? (a b c d : Char) : Option Nat := do
  let a ← hexValue? a
  let b ← hexValue? b
  let c ← hexValue? c
  let d ← hexValue? d
  return 4096 * a + 256 * b + 16 * c + d

/-- The character of an escape of one letter. -/
def escaped? (c : Char) : Option Char :=
  if c = '"' ∨ c = '\\' ∨ c = '/' then some c
  else if c = 'b' then some '\x08'
  else if c = 'f' then some '\x0C'
  else if c = 'n' then some '\n'
  else if c = 'r' then some '\r'
  else if c = 't' then some '\t'
  else none

/-- The character of two surrogates. -/
def surrogatePair? (high low : Nat) : Option Char :=
  if 0xD800 ≤ high ∧ high < 0xDC00 ∧ 0xDC00 ≤ low ∧ low < 0xE000 then
    some (Char.ofNat (0x10000 + (high - 0xD800) * 0x400 + (low - 0xDC00)))
  else none

/-- The characters up to the closing quote and what follows it. -/
def stringBody : List Char → Option (List Char × List Char)
  | [] => none
  | '"' :: rest => some ([], rest)
  | '\\' :: 'u' :: a :: b :: c :: d :: '\\' :: 'u' :: e :: f :: g :: h :: rest =>
      match hexFour? a b c d with
      | none => none
      | some first =>
          if 0xD800 ≤ first ∧ first < 0xE000 then
            match (hexFour? e f g h).bind (surrogatePair? first) with
            | none => none
            | some char => (stringBody rest).map fun (chars, after) => (char :: chars, after)
          else
            (stringBody ('\\' :: 'u' :: e :: f :: g :: h :: rest)).map fun (chars, after) =>
              (Char.ofNat first :: chars, after)
  | '\\' :: 'u' :: a :: b :: c :: d :: rest =>
      match hexFour? a b c d with
      | none => none
      | some first =>
          if 0xD800 ≤ first ∧ first < 0xE000 then none
          else (stringBody rest).map fun (chars, after) => (Char.ofNat first :: chars, after)
  | '\\' :: c :: rest =>
      match escaped? c with
      | none => none
      | some char => (stringBody rest).map fun (chars, after) => (char :: chars, after)
  | c :: rest =>
      if c.toNat < 32 ∨ c = '\\' then none
      else (stringBody rest).map fun (chars, after) => (c :: chars, after)

/-! ## Numbers -/

/-- The leading digits and what follows them. -/
def spanDigits (text : List Char) : List Char × List Char :=
  text.span Char.isDigit

/-- An exponent, when the text goes on with one; `none` when one begins and has no digits. -/
def exponentPart : List Char → Option (Option Int × List Char)
  | 'e' :: rest | 'E' :: rest =>
      let (negative, rest) :=
        match rest with
        | '+' :: rest => (false, rest)
        | '-' :: rest => (true, rest)
        | rest => (false, rest)
      let (digits, after) := spanDigits rest
      (Text.ofDigits? digits).map fun number =>
        (some (if negative then -(number : Int) else number), after)
  | rest => some (none, rest)

/-- A fraction, when the text goes on with one; `none` when one begins and has no digits. -/
def fractionPart : List Char → Option (Option (List Char) × List Char)
  | '.' :: rest =>
      let (digits, after) := spanDigits rest
      if digits.isEmpty then none else some (some digits, after)
  | rest => some (none, rest)

/-- A number literal after its sign. Zero is the only number that begins with a zero. -/
def literal (negative : Bool) (text : List Char) : Option (Literal × List Char) := do
  let (whole, rest) := spanDigits text
  if whole.isEmpty || (whole.length != 1 && whole.head? == some '0') then none
  else
    let (fraction, rest) ← fractionPart rest
    let (exponent, rest) ← exponentPart rest
    return (⟨negative, whole, fraction, exponent⟩, rest)

/-- The number that the text begins with. -/
def number (text : List Char) : Option (Json × List Char) := do
  let (read, rest) ← match text with
    | '-' :: rest => literal true rest
    | text => literal false text
  let value ← read.value?
  return (value, rest)

/-! ## Values -/

/-- The text from its first character that is no layout. -/
def skipLayout (text : List Char) : List Char :=
  text.dropWhile Text.isLayout

/-- One or more items with commas between them, up to the closing bracket. -/
def separated {α : Type} (item : List Char → Option (α × List Char)) (close : Char) :
    Nat → List Char → Option (List α × List Char)
  | 0, _ => none
  | fuel + 1, text =>
      match item text with
      | none => none
      | some (first, rest) =>
          match skipLayout rest with
          | [] => none
          | c :: rest =>
              if c = ',' then
                (separated item close fuel rest).map fun (items, after) => (first :: items, after)
              else if c = close then some ([first], rest)
              else none

/-- The items of a bracketed list whose opening bracket has been read. -/
def enclosed {α : Type} (item : List Char → Option (α × List Char)) (close : Char)
    (text : List Char) : Option (List α × List Char) :=
  match skipLayout text with
  | [] => none
  | c :: rest =>
      if c = close then some ([], rest) else separated item close (rest.length + 1) (c :: rest)

/-- A member of an object: its name, a colon and its value. -/
def member (value : List Char → Option (Json × List Char)) (text : List Char) :
    Option ((String × Json) × List Char) :=
  match skipLayout text with
  | '"' :: rest => do
      let (name, rest) ← stringBody rest
      match skipLayout rest with
      | ':' :: rest =>
          let (held, rest) ← value rest
          return ((String.ofList name, held), rest)
      | _ => none
  | _ => none

/-- The value that the text begins with. Lists and objects may be nested `depth` deep. -/
def value (depth : Nat) (text : List Char) : Option (Json × List Char) :=
  match skipLayout text with
  | 'n' :: 'u' :: 'l' :: 'l' :: rest => some (null, rest)
  | 't' :: 'r' :: 'u' :: 'e' :: rest => some (bool true, rest)
  | 'f' :: 'a' :: 'l' :: 's' :: 'e' :: rest => some (bool false, rest)
  | '"' :: rest =>
      (stringBody rest).map fun (chars, after) => (string (String.ofList chars), after)
  | '[' :: rest =>
      match depth with
      | 0 => none
      | depth + 1 =>
          (enclosed (value depth) ']' rest).map fun (items, after) => (array items, after)
  | '{' :: rest =>
      match depth with
      | 0 => none
      | depth + 1 =>
          (enclosed (member (value depth)) '}' rest).map fun (members, after) =>
            (ofMembers members, after)
  | text => number text

/-- The value that the whole text spells, with lists and objects nested at most `depth` deep. -/
def parse? (depth : Nat) (text : String) : Option Json :=
  match value depth text.toList with
  | some (read, rest) => if (skipLayout rest).isEmpty then some read else none
  | none => none

/-- How deep lists and objects of a document may be nested. -/
def documentDepth : Nat := 127

/-- The value of a document. -/
def ofText? (text : String) : Option Json :=
  parse? documentDepth text

end RemoteRecords.Json
