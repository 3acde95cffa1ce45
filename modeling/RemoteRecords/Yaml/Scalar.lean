import RemoteRecords.Json.Parser
import RemoteRecords.Yaml.Cursor

namespace RemoteRecords.Yaml

/-- A text that has been read, last character first, and the place behind it. -/
structure Reading where
  text : List Char
  cursor : Cursor

def Reading.push (reading : Reading) (c : Char) : Reading :=
  ⟨c :: reading.text, reading.cursor.skip⟩

/-- The text between two stretches of content that are `breaks` line ends apart: a single one is a
space, and of several the first is dropped. -/
def folded (breaks : Nat) : List Char :=
  if breaks = 1 then [' '] else List.replicate (breaks - 1) '\n'

/-! ## Plain scalars -/

/-- Whether the character here continues a plain scalar. -/
def continuesPlain (flow : Bool) (cursor : Cursor) : Bool :=
  let c := cursor.peek
  let next := cursor.peekAt 1
  if isSpaceBreakOrEnd c then false
  else if c = ':' && (isSpaceBreakOrEnd next || (flow && isFlowIndicator next)) then false
  else !(flow && isFlowIndicator c)

/-- A stretch of a plain scalar without blanks. -/
def plainWord (flow : Bool) : Nat → Reading → Reading
  | 0, reading => reading
  | fuel + 1, reading =>
      if continuesPlain flow reading.cursor then
        plainWord flow fuel (reading.push reading.cursor.peek)
      else reading

/-- The blanks and line ends between two stretches of content: the blanks of the first line, last
first, and the number of line ends. -/
structure Gap where
  blanks : List Char
  breaks : Nat
  cursor : Cursor

/-- Passes blanks and line ends; `none` when a tab indents content. -/
def plainGap (indent : Int) : Nat → Gap → Option Gap
  | 0, gap => some gap
  | fuel + 1, gap =>
      let c := gap.cursor.peek
      if isSpace c then
        if !gap.cursor.leading then
          plainGap indent fuel
            { gap with blanks := c :: gap.blanks, cursor := gap.cursor.skipSpace }
        else if c = '\t' && (gap.cursor.column : Int) < indent then do
          let passed ← gap.cursor.skipToLineEnd
          if isBreakOrEnd passed.cursor.peek then
            plainGap indent fuel { gap with cursor := passed.cursor }
          else none
        else plainGap indent fuel { gap with cursor := gap.cursor.skipSpace }
      else if isBreak c then
        plainGap indent fuel ⟨[], gap.breaks + 1, gap.cursor.skipBreak⟩
      else some gap

/-- A plain scalar from its first character, or from a further word after `gap`, on. Its lines are
indented by `indent` at least, unless it stands in a flow collection. -/
def plainScalar (flow : Bool) (indent : Int) : Nat → Gap → List Char → Option Reading
  | 0, _, _ => none
  | fuel + 1, gap, text =>
      let cursor := gap.cursor
      if (cursor.leading && cursor.atAnyDocumentMark) || cursor.peek = '#' then
        some ⟨text, cursor⟩
      else if flow && cursor.peek = '-' && isFlowIndicator (cursor.peekAt 1) then none
      else if continuesPlain flow cursor then do
        let between := if gap.breaks = 0 then gap.blanks else (folded gap.breaks).reverse
        let text := if text.isEmpty then [] else between ++ text
        let word := plainWord flow cursor.fuel ⟨text, cursor⟩
        if isSpace word.cursor.peek || isBreak word.cursor.peek then
          let gap ← plainGap indent word.cursor.fuel ⟨[], 0, word.cursor⟩
          if !flow && (gap.cursor.column : Int) < indent then some ⟨word.text, gap.cursor⟩
          else plainScalar flow indent fuel gap word.text
        else some word
      else some ⟨text, cursor⟩

/-! ## Quoted scalars -/

/-- The character of an escape of one letter. -/
def escape? (c : Char) : Option Char :=
  match c with
  | '0' => some '\x00'
  | 'a' => some '\x07'
  | 'b' => some '\x08'
  | 't' => some '\t'
  | '\t' => some '\t'
  | 'n' => some '\n'
  | 'v' => some '\x0B'
  | 'f' => some '\x0C'
  | 'r' => some '\r'
  | 'e' => some '\x1B'
  | ' ' => some ' '
  | '"' => some '"'
  | '/' => some '/'
  | '\\' => some '\\'
  | 'N' => some '\u0085'
  | '_' => some '\u00A0'
  | 'L' => some '\u2028'
  | 'P' => some '\u2029'
  | _ => none

/-- The number of digits of an escape by code point. -/
def escapeDigits? (c : Char) : Option Nat :=
  match c with
  | 'x' => some 2
  | 'u' => some 4
  | 'U' => some 8
  | _ => none

/-- The number that hexadecimal digits spell. -/
def hexNumber? (digits : List Char) : Option Nat :=
  digits.foldlM (fun high c => (Json.hexValue? c).map (16 * high + ·)) 0

/-- Reads an escape behind its backslash. -/
def readEscape (reading : Reading) : Option Reading :=
  let c := reading.cursor.peek
  match escape? c with
  | some char => some ⟨char :: reading.text, reading.cursor.skip⟩
  | none => do
      let count ← escapeDigits? c
      let digits := (reading.cursor.rest.drop 1).take count
      if digits.length < count then none
      else
        let number ← hexNumber? digits
        if number.isValidChar then
          let cursor := (List.range (count + 1)).foldl (fun cursor _ => cursor.skip) reading.cursor
          return ⟨Char.ofNat number :: reading.text, cursor⟩
        else none

/-- A stretch of a quoted scalar without blanks, and whether it ended in an escaped line end. -/
def quotedWord (single : Bool) : Nat → Reading → Option (Reading × Bool)
  | 0, reading => some (reading, false)
  | fuel + 1, reading =>
      let c := reading.cursor.peek
      if isSpaceBreakOrEnd c then some (reading, false)
      else if single then
        if c = '\'' then
          if reading.cursor.peekAt 1 = '\'' then
            quotedWord single fuel ⟨'\'' :: reading.text, reading.cursor.skip.skip⟩
          else some (reading, false)
        else quotedWord single fuel (reading.push c)
      else if c = '"' then some (reading, false)
      else if c = '\\' then
        if isBreak (reading.cursor.peekAt 1) then
          some (⟨reading.text, reading.cursor.skip.skipBreak⟩, true)
        else do
          let reading ← readEscape ⟨reading.text, reading.cursor.skip⟩
          quotedWord single fuel reading
      else quotedWord single fuel (reading.push c)

/-- Passes blanks and line ends inside a quoted scalar; `started` tells that its line has been left.
`none` when a tab indents content. -/
def quotedGap (indent : Int) : Nat → Bool → Gap → Option (Gap × Bool)
  | 0, started, gap => some (gap, started)
  | fuel + 1, started, gap =>
      let c := gap.cursor.peek
      if isSpace c then
        if started then
          if c = '\t' && (gap.cursor.column : Int) < indent then none
          else quotedGap indent fuel started { gap with cursor := gap.cursor.skipSpace }
        else
          quotedGap indent fuel started
            { gap with blanks := c :: gap.blanks, cursor := gap.cursor.skipSpace }
      else if isBreak c then
        quotedGap indent fuel true ⟨[], gap.breaks + 1, gap.cursor.skipBreak⟩
      else some (gap, started)

/-- What a gap adds to a quoted scalar: after an escaped line end every line end counts. -/
def gapText (escaped : Bool) (gap : Gap) : List Char :=
  if escaped then List.replicate gap.breaks '\n'
  else if gap.breaks = 0 then gap.blanks
  else (folded gap.breaks).reverse

/-- A quoted scalar behind its opening quote, up to its closing quote. -/
def quotedScalar (single : Bool) (indent : Int) : Nat → Reading → Option Reading
  | 0, _ => none
  | fuel + 1, reading =>
      let cursor := reading.cursor
      if cursor.column = 0 && cursor.atAnyDocumentMark then none
      else if isEnd cursor.peek then none
      else if (cursor.column : Int) < indent then none
      else do
        let (word, escaped) ← quotedWord single cursor.fuel reading
        let c := word.cursor.peek
        if (single && c = '\'') || (!single && c = '"') then return ⟨word.text, word.cursor.skip⟩
        else
          let (gap, _) ← quotedGap indent word.cursor.fuel escaped ⟨[], 0, word.cursor⟩
          quotedScalar single indent fuel ⟨gapText escaped gap ++ word.text, gap.cursor⟩

/-! ## Block scalars -/

/-- What becomes of the line ends at the end of a block scalar. -/
inductive Chomping where
  | strip
  | clip
  | keep
  deriving DecidableEq

def chomping? (c : Char) : Option Chomping :=
  if c = '+' then some .keep else if c = '-' then some .strip else none

/-- The indentation that a digit asks for. -/
def increment? (c : Char) : Option Nat :=
  if c.isDigit then some (c.toNat - 48) else none

/-- The marks behind the indicator of a block scalar: what becomes of its last line ends and how far
it is indented, zero for as far as its first line. -/
def blockMarks (cursor : Cursor) : Option (Chomping × Nat × Cursor) :=
  match chomping? cursor.peek with
  | some chomping =>
      let cursor := cursor.skip
      match increment? cursor.peek with
      | some 0 => none
      | some increment => some (chomping, increment, cursor.skip)
      | none => some (chomping, 0, cursor)
  | none =>
      match increment? cursor.peek with
      | some 0 => none
      | some increment =>
          let cursor := cursor.skip
          match chomping? cursor.peek with
          | some chomping => some (chomping, increment, cursor.skip)
          | none => some (.clip, increment, cursor)
      | none => some (.clip, 0, cursor)

/-- Passes up to `indent` spaces on each line and empty lines; counts the empty lines. -/
def blockIndent (indent : Nat) : Nat → Nat → Cursor → Nat × Cursor
  | 0, breaks, cursor => (breaks, cursor)
  | fuel + 1, breaks, cursor =>
      if cursor.column < indent && cursor.peek = ' ' then
        blockIndent indent fuel breaks cursor.skipSpace
      else if isBreak cursor.peek then blockIndent indent fuel (breaks + 1) cursor.skipBreak
      else (breaks, cursor)

/-- Passes all spaces before the first content and empty lines; counts the empty lines and gives the
largest indentation. -/
def blockFirstIndent : Nat → Nat → Nat → Cursor → Nat × Nat × Cursor
  | 0, breaks, largest, cursor => (breaks, largest, cursor)
  | fuel + 1, breaks, largest, cursor =>
      if cursor.peek = ' ' then blockFirstIndent fuel breaks largest cursor.skipSpace
      else
        let largest := max largest cursor.column
        if isBreak cursor.peek then blockFirstIndent fuel (breaks + 1) largest cursor.skipBreak
        else (breaks, largest, cursor)

/-- The lines of a block scalar that have been read. -/
structure BlockText where
  text : List Char
  /-- A line end behind the last line that waits to be written or folded. -/
  pending : Bool
  /-- The empty lines behind it. -/
  empty : Nat
  /-- The last line began with a blank. -/
  leadingBlank : Bool
  cursor : Cursor

/-- The line ends before the next line; between two lines of a folded scalar that begin with no
blank a single one is a space. -/
def BlockText.joint (literal : Bool) (state : BlockText) : List Char :=
  let trailingBlank := isSpace state.cursor.peek
  if !literal && state.pending && !state.leadingBlank && !trailingBlank then
    if state.empty = 0 then [' '] else List.replicate state.empty '\n'
  else List.replicate (state.empty + if state.pending then 1 else 0) '\n'

/-- The content lines of a block scalar with the given indentation. -/
def blockLines (literal : Bool) (indent : Nat) : Nat → BlockText → BlockText
  | 0, state => state
  | fuel + 1, state =>
      let cursor := state.cursor
      if cursor.column ≠ indent || isEnd cursor.peek then state
      else if indent = 0 && cursor.atDocumentMark '.' then state
      else
        let leadingBlank := isSpace cursor.peek
        let (line, after) := cursor.takeWhile fun c => !isBreak c
        let text := line.reverse ++ state.joint literal ++ state.text
        if isEnd after.peek then ⟨text, false, 0, leadingBlank, after⟩
        else
          let (empty, next) := blockIndent indent after.fuel 0 after.skipBreak
          blockLines literal indent fuel ⟨text, true, empty, leadingBlank, next⟩

/-- A block scalar behind its indicator; `parent` is the indentation of the block around it. -/
def blockScalar (literal : Bool) (parent : Int) (cursor : Cursor) : Option Reading := do
  let startLine := cursor.line
  let (chomping, increment, cursor) ← blockMarks cursor
  let passed ← cursor.skipToLineEnd
  let cursor := passed.cursor
  if !isBreakOrEnd cursor.peek then none
  else
    let firstBreak := isBreak cursor.peek
    let cursor := if firstBreak then cursor.skipBreak else cursor
    if cursor.peek = '\t' then none
    else
      let (empty, indent, cursor) :=
        if 0 < increment then
          let indent := if 0 ≤ parent then parent.toNat + increment else increment
          let (empty, cursor) := blockIndent indent cursor.fuel 0 cursor
          (empty, indent, cursor)
        else
          let (empty, largest, cursor) := blockFirstIndent cursor.fuel 0 0 cursor
          (empty, max largest (max (parent + 1).toNat (if 0 < parent then 1 else 0)), cursor)
      if isEnd cursor.peek then
        let text :=
          if chomping = .strip || cursor.line = startLine then []
          else if chomping = .clip || empty = 0 then (if firstBreak then ['\n'] else [])
          else List.replicate empty '\n'
        return ⟨text, cursor⟩
      else if cursor.column < indent && parent < (cursor.column : Int) then none
      else
        let state := blockLines literal indent cursor.fuel ⟨[], false, empty, false, cursor⟩
        let last := if state.pending then ['\n'] else []
        let final :=
          if isEnd state.cursor.peek && max indent 1 ≤ state.cursor.column then ['\n'] else []
        let text := if chomping = .strip then state.text else final ++ last ++ state.text
        let text :=
          if chomping = .keep then List.replicate state.empty '\n' ++ text else text
        return ⟨text, state.cursor⟩

end RemoteRecords.Yaml
