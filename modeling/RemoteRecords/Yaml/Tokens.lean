import RemoteRecords.Text.Blank
import RemoteRecords.Yaml.Scan

namespace RemoteRecords.Yaml

namespace Scan

/-! ## Going on to the next token -/

/-- Passes blanks, line ends and comments. -/
def toNextToken : Nat → Scan → Option Scan
  | 0, scan => some scan
  | fuel + 1, scan =>
      let cursor := scan.cursor
      let c := cursor.peek
      if c = '\t' && !scan.inFlow && !scan.indents.isEmpty && cursor.leading &&
          scan.column < scan.indent then do
        let passed ← cursor.skipToLineEnd
        if isBreakOrEnd passed.cursor.peek then
          toNextToken fuel { scan with cursor := passed.cursor }
        else none
      else if isSpace c then toNextToken fuel { scan with cursor := cursor.skipSpace }
      else if isBreak c then
        toNextToken fuel
          { scan with
            cursor := cursor.skipBreak, keyAllowed := scan.keyAllowed || !scan.inFlow }
      else if c = '#' then toNextToken fuel { scan with cursor := cursor.skipComment }
      else some scan

/-- Passes blanks and a comment on this line. -/
def toLineEnd (scan : Scan) : Option Scan := do
  let passed ← scan.cursor.skipToLineEnd
  return { scan with cursor := passed.cursor }

def skip (scan : Scan) : Scan := { scan with cursor := scan.cursor.skip }

/-! ## Single tokens -/

/-- Ends the mapping of a pair in a flow sequence. -/
def closePair (scan : Scan) : Scan :=
  match scan.flow with
  | .sequence true :: outer =>
      { scan with flow := .sequence false :: outer }.push .flowMappingEnd
  | _ => scan

def flowStart (scan : Scan) (level : FlowLevel) (token : Token) : Option Scan := do
  let scan := scan.saveKey.rollBare
  let scan :=
    { scan with
      candidates := .none :: scan.candidates, flow := level :: scan.flow, keyAllowed := true }
  let scan ← scan.skip.toLineEnd
  return scan.push token

def flowEnd (scan : Scan) (sequence : Bool) (token : Token) : Option Scan := do
  let scan ← scan.dropKey
  let scan := if sequence then scan.closePair else scan
  let scan :=
    match scan.flow with
    | _ :: outer => { scan with flow := outer, candidates := scan.candidates.tail }
    | [] => scan
  let scan ← { scan with keyAllowed := false }.skip.toLineEnd
  let scan := if scan.inFlow then { scan with adjacent := scan.cursor.index } else scan
  return scan.push token

def flowEntry (scan : Scan) : Option Scan := do
  let scan ← scan.dropKey
  let scan ← { scan with keyAllowed := true }.closePair.skip.toLineEnd
  return scan.push .flowEntry

def blockEntry (scan : Scan) : Option Scan := do
  if scan.inFlow || !scan.keyAllowed then none
  else
    let column := scan.cursor.column
    let scan := scan.skip
    let scan := scan.roll column scan.tokens.length .blockSequenceStart
    let passed ← scan.cursor.skipToLineEnd
    if passed.tab && passed.cursor.peek = '-' && isSpaceBreakOrEnd (passed.cursor.peekAt 1) then
      none
    else
      let scan := { scan with cursor := passed.cursor }
      let c := scan.cursor.peek
      let scan := if isBreak c || isFlowIndicator c then scan.rollBare else scan
      let scan ← scan.dropKey
      return { scan with keyAllowed := true }.push .blockEntry

/-- A key that a question mark announces. -/
def explicitKey (scan : Scan) : Option Scan := do
  if !scan.inFlow && !scan.keyAllowed then none
  else
    let scan :=
      match scan.flow with
      | [] => scan.roll scan.cursor.column scan.tokens.length .blockMappingStart
      | .sequence false :: outer =>
          { scan with flow := .sequence true :: outer }.push .flowMappingStart
      | _ => scan
    let scan ← scan.dropKey
    let scan := { scan with keyAllowed := !scan.inFlow }.skip
    let passed ← scan.cursor.skipSpacesToLineEnd
    if passed.cursor.peek = '\t' then none
    else return { scan with cursor := passed.cursor }.push .key

/-- Whether a tab behind a colon stands where a space is needed. -/
def badTab (cursor : Cursor) : Option Bool :=
  if cursor.peek = '\t' then do
    let passed ← cursor.skipToLineEnd
    let c := passed.cursor.peek
    return !passed.space && (c = '-' || Text.isWord c)
  else some false

/-- Whether a colon here begins a pair in a flow sequence. -/
def opensPair (scan : Scan) : Bool :=
  match scan.flow with
  | .sequence false :: _ => true
  | _ => false

/-- The scan inside a pair when it stands in a flow sequence. -/
def openPair (scan : Scan) : Scan :=
  match scan.flow with
  | .sequence _ :: outer => { scan with flow := .sequence true :: outer }
  | _ => scan

/-- A colon: what has begun last is a key after all, or the key before it is missing or was
announced. -/
def value (scan : Scan) : Option Scan := do
  let candidate := scan.candidate
  let column := scan.cursor.column
  let line := scan.cursor.line
  let opensPair := scan.opensPair
  let scan := scan.openPair
  let scan := scan.skip
  if ← badTab scan.cursor then none
  else if candidate.possible then
    if opensPair && candidate.line < line then none
    else
      let scan := scan.splice candidate.position .key
      let scan := if opensPair then scan.splice candidate.position .flowMappingStart else scan
      let scan := scan.roll candidate.column candidate.position .blockMappingStart
      let scan := scan.rollBare.setCandidate { candidate with possible := false }
      return { scan with keyAllowed := false }.push .value
  else
    let scan := if opensPair then scan.push .flowMappingStart else scan
    if scan.inFlow then return { scan with keyAllowed := false }.push .value
    else if !scan.keyAllowed then none
    else
      let scan := (scan.roll column scan.tokens.length .blockMappingStart).rollBare
      return { scan with keyAllowed := true }.push .value

/-- A colon in a flow collection that no blank follows. -/
def flowValue (scan : Scan) : Option Scan :=
  let next := scan.cursor.peekAt 1
  if scan.cursor.index ≠ scan.adjacent && (next = '[' || next = '{') then none else scan.value

/-- A name behind an indicator. -/
def name (scan : Scan) (token : String → Token) : Option Scan :=
  let scan := { scan.saveKey with keyAllowed := false }.skip
  let (chars, cursor) := scan.cursor.takeWhile fun c =>
    !isSpaceBreakOrEnd c && !isFlowIndicator c && c != '\uFEFF'
  if chars.isEmpty then none
  else some ({ scan with cursor }.push (token (String.ofList chars)))

/-- The characters of a tag behind its handle. -/
def isTagChar (c : Char) : Bool :=
  Text.isWord c || "-#;/?:@&=+$.~*'()%".toList.contains c

/-- A tag: `<…>`, or a handle and a suffix. -/
def tag (scan : Scan) : Option Scan := do
  let scan := { scan.saveKey with keyAllowed := false }.skip
  let (token, cursor) ←
    if scan.cursor.peek = '<' then
      let (chars, after) := scan.cursor.skip.takeWhile fun c => c != '>' && !isSpaceBreakOrEnd c
      if after.peek = '>' && !chars.isEmpty then
        some (Token.tag "" (String.ofList chars), after.skip)
      else none
    else
      let (first, after) := scan.cursor.takeWhile fun c => Text.isWord c || c == '-'
      if after.peek = '!' then
        let (suffix, last) := after.skip.takeWhile isTagChar
        if suffix.isEmpty then none
        else some (.tag ("!" ++ String.ofList first ++ "!") (String.ofList suffix), last)
      else
        let (suffix, last) := scan.cursor.takeWhile isTagChar
        if suffix.isEmpty then some (.tag "" "!", last)
        else some (.tag "!" (String.ofList suffix), last)
  if isSpaceBreakOrEnd cursor.peek || (scan.inFlow && isFlowIndicator cursor.peek) then
    return { scan with cursor }.push token
  else none

def blockScalarToken (scan : Scan) (literal : Bool) : Option Scan := do
  let scan := { scan.saveKey with keyAllowed := true }.skip.unrollBare
  let reading ← blockScalar literal scan.indent scan.cursor
  return { scan with cursor := reading.cursor }.push
    (.scalar false (String.ofList reading.text.reverse))

/-- Whether a quoted scalar may be followed by what stands here. -/
def endsQuoted (scan : Scan) (startLine : Nat) : Bool :=
  let c := scan.cursor.peek
  isBreakOrEnd c || (scan.inFlow && (c == ',' || c == '}' || c == ']' || c == ':')) ||
    (c == ':' && !scan.inFlow && startLine == scan.cursor.line)

def quotedScalarToken (scan : Scan) (single : Bool) : Option Scan := do
  let scan := { scan.saveKey with keyAllowed := false }
  let line := scan.cursor.line
  let cursor := scan.cursor.skip
  let reading ← quotedScalar single scan.indent cursor.fuel ⟨[], cursor⟩
  let scan ← { scan with cursor := reading.cursor }.toLineEnd
  if scan.endsQuoted line then
    let scan ← toNextToken scan.cursor.fuel scan
    return { scan with adjacent := scan.cursor.index }.push
      (.scalar false (String.ofList reading.text.reverse))
  else none

def plainScalarToken (scan : Scan) : Option Scan := do
  let scan := { scan.saveKey with keyAllowed := false }.unrollBare
  let indent := scan.indent + 1
  if scan.inFlow && scan.column < indent then none
  else
    let reading ← plainScalar scan.inFlow indent scan.cursor.fuel ⟨[], 0, scan.cursor⟩ []
    if reading.text.isEmpty then none
    else
      return { scan with
        cursor := reading.cursor, keyAllowed := scan.keyAllowed || reading.cursor.leading }.push
          (.scalar true (String.ofList reading.text.reverse))

/-! ## Documents -/

/-- Leaves all blocks; no key may follow on this line. -/
def leaveBlocks (scan : Scan) : Option Scan := do
  let scan ← (scan.unroll (-1)).dropKey
  return { scan with keyAllowed := false }

def documentMark (scan : Scan) (token : Token) : Option Scan := do
  let scan ← scan.leaveBlocks
  return scan.skip.skip.skip.push token

/-- A version of two numbers. -/
def version? (cursor : Cursor) : Option Cursor := do
  let (_, cursor) := cursor.takeWhile isSpace
  let (major, cursor) := cursor.takeWhile Char.isDigit
  if major.isEmpty || cursor.peek ≠ '.' then none
  else
    let (minor, cursor) := cursor.skip.takeWhile Char.isDigit
    if minor.isEmpty then none else return cursor

/-- A handle and what it stands for. -/
def tagHandle? (cursor : Cursor) : Option (String × String × Cursor) := do
  let (_, cursor) := cursor.takeWhile isSpace
  let (handle, cursor) := cursor.takeWhile fun c => !isSpaceBreakOrEnd c
  let (_, cursor) := cursor.takeWhile isSpace
  let (stem, cursor) := cursor.takeWhile fun c => !isSpaceBreakOrEnd c
  if handle.head? ≠ some '!' || stem.isEmpty then none
  else return (String.ofList handle, String.ofList stem, cursor)

/-- A directive line; unknown ones are passed over. -/
def directive (scan : Scan) : Option Scan := do
  let scan ← scan.leaveBlocks
  let scan := scan.skip
  let (chars, cursor) := scan.cursor.takeWhile fun c => Text.isWord c || c == '-'
  if chars.isEmpty || !isSpaceBreakOrEnd cursor.peek then none
  else
    let (token, cursor) ←
      match String.ofList chars with
      | "YAML" => (version? cursor).map fun cursor => (Token.versionDirective, cursor)
      | "TAG" => (tagHandle? cursor).map fun (handle, stem, cursor) =>
          (.tagDirective handle stem, cursor)
      | _ => some (.tagDirective "" "", cursor.skipComment)
    let scan ← { scan with cursor }.toLineEnd
    if isBreakOrEnd scan.cursor.peek then return scan.push token else none

/-- The end of the text. -/
def finish (scan : Scan) : Option (List Token) := do
  if scan.candidates.any fun candidate => candidate.required && candidate.possible then none
  else
    let candidates := scan.candidates.map fun candidate => { candidate with possible := false }
    let scan ← { scan with candidates }.leaveBlocks
    return scan.tokens.reverse

/-- The token that begins here. -/
def token (scan : Scan) : Option Scan :=
  let cursor := scan.cursor
  let c := cursor.peek
  let next := cursor.peekAt 1
  let blankNext := isSpaceBreakOrEnd next
  if cursor.column = 0 && c = '%' then scan.directive
  else if cursor.column = 0 && cursor.atDocumentMark '-' then scan.documentMark .documentStart
  else if cursor.column = 0 && cursor.atDocumentMark '.' then do
    let scan ← scan.documentMark .documentEnd
    let scan ← scan.toLineEnd
    if isBreakOrEnd scan.cursor.peek then return scan else none
  else if scan.column < scan.indent then none
  else if c = '[' then scan.flowStart (.sequence false) .flowSequenceStart
  else if c = '{' then scan.flowStart .mapping .flowMappingStart
  else if c = ']' then scan.flowEnd true .flowSequenceEnd
  else if c = '}' then scan.flowEnd false .flowMappingEnd
  else if c = ',' then scan.flowEntry
  else if c = '-' && blankNext then scan.blockEntry
  else if c = '?' && blankNext then scan.explicitKey
  else if c = ':' && blankNext then scan.value
  else if c = ':' && scan.inFlow &&
      (isFlowIndicator next || cursor.index = scan.adjacent) then scan.flowValue
  else if c = '*' then scan.name .alias
  else if c = '&' then scan.name .anchor
  else if c = '!' then scan.tag
  else if c = '|' && !scan.inFlow then scan.blockScalarToken true
  else if c = '>' && !scan.inFlow then scan.blockScalarToken false
  else if c = '\'' then scan.quotedScalarToken true
  else if c = '"' then scan.quotedScalarToken false
  else if c = '%' || c = '@' || c = '\x60' then none
  else scan.plainScalarToken

/-- Reads tokens up to the end of the text. -/
def run : Nat → Scan → Option (List Token)
  | 0, _ => none
  | fuel + 1, scan => do
      let scan ← toNextToken scan.cursor.fuel scan
      let scan ← scan.dropStaleKeys
      let scan := scan.unroll scan.column
      if isEnd scan.cursor.peek then scan.finish
      else
        let scan ← scan.token
        run fuel scan

end Scan

/-- The tokens of a text. -/
def tokens? (chars : List Char) : Option (List Token) :=
  Scan.run (chars.length + 2) (.start chars)

end RemoteRecords.Yaml
