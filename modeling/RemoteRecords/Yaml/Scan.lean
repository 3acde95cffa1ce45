import RemoteRecords.Yaml.Scalar
import RemoteRecords.Yaml.Token

namespace RemoteRecords.Yaml

/-! ## The state of a scan -/

/-- A place where a key may have begun: it turns out to be one when a colon follows it. -/
structure KeyCandidate where
  possible : Bool
  /-- Nothing but a key may stand there. -/
  required : Bool
  /-- The number of tokens before it. -/
  position : Nat
  index : Nat
  line : Nat
  column : Nat

def KeyCandidate.none : KeyCandidate := ⟨false, false, 0, 0, 0, 0⟩

/-- A flow collection that has been opened. -/
inductive FlowLevel where
  | mapping
  /-- A sequence; an item of it may be a pair, which is a mapping of its own. -/
  | sequence (pairOpen : Bool)

/-- One step of the indentation. -/
structure Indent where
  /-- The column of the block around it. -/
  outer : Int
  /-- A block collection begins there. -/
  collection : Bool

/-- A scan under way. -/
structure Scan where
  cursor : Cursor
  /-- The tokens so far, last first. -/
  tokens : List Token
  /-- The column of the innermost block, -1 outside of all. -/
  indent : Int
  indents : List Indent
  keyAllowed : Bool
  /-- One candidate for each level of flow collections, innermost first. -/
  candidates : List KeyCandidate
  flow : List FlowLevel
  /-- Where a colon need not be followed by a blank. -/
  adjacent : Nat

namespace Scan

def start (chars : List Char) : Scan :=
  ⟨.ofChars chars, [], -1, [], true, [.none], [], 0⟩

def column (scan : Scan) : Int := scan.cursor.column

def inFlow (scan : Scan) : Bool := !scan.flow.isEmpty

def push (scan : Scan) (token : Token) : Scan := { scan with tokens := token :: scan.tokens }

/-- Splices a token in behind the first `position` tokens. -/
def splice (scan : Scan) (position : Nat) (token : Token) : Scan :=
  let later := scan.tokens.length - position
  { scan with tokens := scan.tokens.take later ++ token :: scan.tokens.drop later }

/-! ## Indentation -/

/-- Leaves the blocks that stand further right than the column. -/
def unrollTo (column : Int) : List Indent → Int → List Token → List Indent × Int × List Token
  | [], indent, tokens => ([], indent, tokens)
  | step :: outer, indent, tokens =>
      if column < indent then
        unrollTo column outer step.outer
          (if step.collection then .blockEnd :: tokens else tokens)
      else (step :: outer, indent, tokens)

def unroll (scan : Scan) (column : Int) : Scan :=
  if scan.inFlow then scan
  else
    let (indents, indent, tokens) := unrollTo column scan.indents scan.indent scan.tokens
    { scan with indents, indent, tokens }

/-- Leaves the steps of the indentation at which no collection begins. -/
def unrollBare (scan : Scan) : Scan :=
  let rec go : List Indent → Int → List Indent × Int
    | [], indent => ([], indent)
    | step :: outer, indent =>
        if step.collection then (step :: outer, indent) else go outer step.outer
  let (indents, indent) := go scan.indents scan.indent
  { scan with indents, indent }

/-- Content after an indicator must stand right of it, whether or not it is a collection. -/
def rollBare (scan : Scan) : Scan :=
  match scan.indents with
  | step :: _ =>
      if !scan.inFlow && step.collection then
        { scan with indents := ⟨scan.indent, false⟩ :: scan.indents, indent := scan.indent + 1 }
      else scan
  | [] => scan

/-- Begins a block collection at the column when it stands further right than the block around it;
its token goes behind the first `position` tokens. -/
def roll (scan : Scan) (column : Nat) (position : Nat) (token : Token) : Scan :=
  if scan.inFlow then scan
  else
    let scan :=
      match scan.indents with
      | step :: outer =>
          if scan.indent ≤ (column : Int) && !step.collection then
            { scan with indents := outer, indent := step.outer }
          else scan
      | [] => scan
    if scan.indent < (column : Int) then
      { scan with indents := ⟨scan.indent, true⟩ :: scan.indents, indent := column }.splice
        position token
    else scan

/-! ## Keys -/

def candidate (scan : Scan) : KeyCandidate := scan.candidates.headD .none

def setCandidate (scan : Scan) (candidate : KeyCandidate) : Scan :=
  { scan with candidates := candidate :: scan.candidates.tail }

/-- Notes that a key may begin here. -/
def saveKey (scan : Scan) : Scan :=
  if scan.keyAllowed then
    let required :=
      !scan.inFlow && scan.indent == scan.column &&
        scan.indents.head?.any fun step => step.collection
    scan.setCandidate
      ⟨true, required, scan.tokens.length, scan.cursor.index, scan.cursor.line, scan.cursor.column⟩
  else scan

/-- What has begun last is no key; `none` when nothing else may stand there. -/
def dropKey (scan : Scan) : Option Scan :=
  let candidate := scan.candidate
  if candidate.possible && candidate.required then none
  else some (scan.setCandidate { candidate with possible := false })

/-- The longest a key may be. -/
def maxKeyLength : Nat := 1024

/-- A key outside flow collections ends on its line. -/
def dropStaleKeys (scan : Scan) : Option Scan := do
  if scan.inFlow then return scan
  else
    let candidates ← scan.candidates.mapM fun candidate =>
      if candidate.possible &&
          (candidate.line < scan.cursor.line ||
            candidate.index + maxKeyLength < scan.cursor.index) then
        if candidate.required then none else some { candidate with possible := false }
      else some candidate
    return { scan with candidates }

end Scan

end RemoteRecords.Yaml
