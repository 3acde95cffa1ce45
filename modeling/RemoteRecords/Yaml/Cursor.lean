namespace RemoteRecords.Yaml

/-! ## Characters -/

/-- What is read where the text has ended. -/
def endMark : Char := '\x00'

def isEnd (c : Char) : Bool := c == endMark

def isBreak (c : Char) : Bool := c == '\n' || c == '\r'

def isSpace (c : Char) : Bool := c == ' ' || c == '\t'

def isBreakOrEnd (c : Char) : Bool := isBreak c || isEnd c

def isSpaceBreakOrEnd (c : Char) : Bool := isSpace c || isBreakOrEnd c

/-- The indicators of flow collections. -/
def isFlowIndicator (c : Char) : Bool :=
  c == ',' || c == '[' || c == ']' || c == '{' || c == '}'

/-! ## Places in a text -/

/-- A place in a text: what is left of it and where in the text that is. -/
structure Cursor where
  rest : List Char
  index : Nat
  line : Nat
  column : Nat
  /-- Only blanks stand before the place on its line. -/
  leading : Bool

namespace Cursor

def ofChars (chars : List Char) : Cursor := ⟨chars, 0, 0, 0, true⟩

/-- The character at a distance. -/
def peekAt (cursor : Cursor) (distance : Nat) : Char :=
  match cursor.rest[distance]? with
  | some c => c
  | none => endMark

def peek (cursor : Cursor) : Char := cursor.peekAt 0

/-- The place behind a blank. -/
def skipSpace (cursor : Cursor) : Cursor :=
  { cursor with
    rest := cursor.rest.tail, index := cursor.index + 1, column := cursor.column + 1 }

/-- The place behind a character that is no blank. -/
def skip (cursor : Cursor) : Cursor := { cursor.skipSpace with leading := false }

/-- The start of the next line. -/
def skipBreak (cursor : Cursor) : Cursor :=
  let width := if cursor.peek == '\r' && cursor.peekAt 1 == '\n' then 2 else 1
  ⟨cursor.rest.drop width, cursor.index + width, cursor.line + 1, 0, true⟩

/-- The place of the first character that does not satisfy `p`. -/
def skipWhile (p : Char → Bool) : Nat → Cursor → Cursor
  | 0, cursor => cursor
  | fuel + 1, cursor =>
      if !isEnd cursor.peek && p cursor.peek then skipWhile p fuel cursor.skip else cursor

/-- An upper bound of the steps that reading from here takes. -/
def fuel (cursor : Cursor) : Nat := cursor.rest.length + 2

/-- The place of the line end. -/
def skipComment (cursor : Cursor) : Cursor :=
  cursor.skipWhile (fun c => !isBreak c) cursor.fuel

/-- The characters from here on that satisfy `p`, and the place behind them. -/
def takeWhile (p : Char → Bool) (cursor : Cursor) : List Char × Cursor :=
  let after := cursor.skipWhile p cursor.fuel
  (cursor.rest.take (after.index - cursor.index), after)

/-- Whether `---` or `...` stands here by itself. -/
def atDocumentMark (cursor : Cursor) (c : Char) : Bool :=
  cursor.peek == c && cursor.peekAt 1 == c && cursor.peekAt 2 == c &&
    isSpaceBreakOrEnd (cursor.peekAt 3)

def atAnyDocumentMark (cursor : Cursor) : Bool :=
  cursor.atDocumentMark '-' || cursor.atDocumentMark '.'

/-! ## The end of a line -/

/-- The blanks that have been passed on the way to the next content. -/
structure Passed where
  cursor : Cursor
  tab : Bool
  space : Bool

/-- Passes blanks and a comment; `none` when a comment follows its line without a blank. -/
def toLineEnd (tabs : Bool) : Nat → Passed → Option Passed
  | 0, passed => some passed
  | fuel + 1, passed =>
      let c := passed.cursor.peek
      if c = ' ' then
        toLineEnd tabs fuel { passed with cursor := passed.cursor.skipSpace, space := true }
      else if c = '\t' ∧ tabs then
        toLineEnd tabs fuel { passed with cursor := passed.cursor.skipSpace, tab := true }
      else if c = '#' then
        if passed.tab || passed.space then some { passed with cursor := passed.cursor.skipComment }
        else none
      else some passed

/-- Passes blanks, tabs among them, and a comment. -/
def skipToLineEnd (cursor : Cursor) : Option Passed :=
  toLineEnd true cursor.fuel ⟨cursor, false, false⟩

/-- Passes spaces and a comment. -/
def skipSpacesToLineEnd (cursor : Cursor) : Option Passed :=
  toLineEnd false cursor.fuel ⟨cursor, false, false⟩

end Cursor

end RemoteRecords.Yaml
