import RemoteRecords.Filter.Basic
import RemoteRecords.Filter.Token

namespace RemoteRecords.Filter

/-! ## Single tokens -/

/-- What reads a value from the front of the tokens and leaves the others. -/
abbrev Reader (α : Type) := List Token → Except SyntaxError (α × List Token)

/-- The next token; after the last one the text has ended. -/
def nextToken : List Token → Token
  | [] => ⟨.endOfText, 0, 0⟩
  | token :: _ => token

/-- The error that another token than the next one is needed. -/
def unexpected (wanted : Expected) (tokens : List Token) : SyntaxError :=
  ⟨(nextToken tokens).start, .expected wanted (nextToken tokens).lexeme⟩

/-- The tokens after `lexeme`. -/
def expect (lexeme : Lexeme) (wanted : Expected) (tokens : List Token) :
    Except SyntaxError (List Token) :=
  match tokens with
  | [] => .error (unexpected wanted [])
  | token :: rest =>
      if token.lexeme = lexeme then .ok rest else .error (unexpected wanted (token :: rest))

/-- A quoted text and where it begins. -/
def expectQuoted (wanted : Expected) : Reader (Nat × String)
  | [] => .error (unexpected wanted [])
  | token :: rest =>
      match token.lexeme with
      | .quoted text => .ok ((token.start, text), rest)
      | _ => .error (unexpected wanted (token :: rest))

/-- Nothing is left but the end of the text. -/
def expectEnd (tokens : List Token) : Except SyntaxError Unit :=
  match (nextToken tokens).lexeme with
  | .endOfText => .ok ()
  | found => .error ⟨(nextToken tokens).start, .afterEnd found⟩

/-- Fails with `cause` at `offset` unless the condition holds. -/
def require (condition : Bool) (offset : Nat) (cause : Cause) : Except SyntaxError Unit :=
  if condition then .ok () else .error ⟨offset, cause⟩

/-! ## Terms and nodes -/

/-- A field name is one or more word characters. -/
def isFieldName (text : String) : Bool :=
  !text.toList.isEmpty && text.toList.all Text.isWord

/-- A value holds word characters and ASCII white space. -/
def isValueText (text : String) : Bool :=
  text.toList.all fun c => Text.isWord c || Text.isAsciiBlank c

def comparatorAt (offset : Nat) (text : String) : Except SyntaxError Comparator :=
  match Comparator.ofText? text with
  | some comparator => .ok comparator
  | none => .error ⟨offset, .unsupportedComparator text⟩

/-- A field, a comparator and a value in parentheses. -/
def term : Reader Term := fun tokens => do
  let tokens ← expect .openParen .openParen tokens
  let ((fieldStart, field), tokens) ← expectQuoted .fieldName tokens
  require (isFieldName field) fieldStart (.invalidField field)
  let tokens ← expect .comma .comma tokens
  let ((comparatorStart, comparatorText), tokens) ← expectQuoted .comparator tokens
  let comparator ← comparatorAt comparatorStart comparatorText
  let tokens ← expect .comma .comma tokens
  let ((valueStart, value), tokens) ← expectQuoted .value tokens
  require (isValueText value) valueStart (.invalidValue value)
  let tokens ← expect .closeParen .closeParen tokens
  return (⟨field, comparator, Text.trim value⟩, tokens)

/-- What follows the mark of a connective: its two operands. -/
def operands : Reader (Term × Term) := fun tokens => do
  let tokens ← expect .comma .commaAfterOperator tokens
  let (left, tokens) ← term tokens
  let tokens ← expect .comma .commaBeforeSecondOperand tokens
  let (right, tokens) ← term tokens
  return ((left, right), tokens)

/-- What follows the mark of a negation: its operand. -/
def operand : Reader Term := fun tokens => do
  let tokens ← expect .comma .commaAfterOperator tokens
  term tokens

/-- A term, or an operator and its operands. -/
def node : Reader Node
  | [] => .error (unexpected .termOrOperator [])
  | token :: rest =>
      match token.lexeme with
      | .quoted mark =>
          match Connective.ofText? mark with
          | some connective => do
              let ((left, right), rest) ← operands rest
              return (.binary connective left right, rest)
          | none =>
              if mark = negationText then do
                let (operand, rest) ← operand rest
                return (.negation operand, rest)
              else .error ⟨token.start, .unknownOperator mark⟩
      | .openParen => do
          let (read, rest) ← term (token :: rest)
          return (.leaf read, rest)
      | _ => .error (unexpected .termOrOperator (token :: rest))

/-! ## Reading takes tokens -/

theorem expect_length {lexeme : Lexeme} {wanted : Expected} {tokens rest : List Token}
    (read : expect lexeme wanted tokens = .ok rest) : rest.length < tokens.length := by
  cases tokens with
  | nil => simp [expect] at read
  | cons token tail =>
      simp only [expect] at read
      split at read
      · simp only [Except.ok.injEq] at read
        simp [read]
      · simp at read

theorem expectQuoted_length {wanted : Expected} {tokens rest : List Token} {found : Nat × String}
    (read : expectQuoted wanted tokens = .ok (found, rest)) : rest.length < tokens.length := by
  cases tokens with
  | nil => simp [expectQuoted] at read
  | cons token tail =>
      simp only [expectQuoted] at read
      split at read
      · simp only [Except.ok.injEq, Prod.mk.injEq] at read
        simp [read.2]
      · simp at read

/-- A step that succeeds in a sequence has succeeded by itself. -/
theorem bind_eq_ok {ε α β : Type} {step : Except ε α} {next : α → Except ε β} {result : β}
    (run : step >>= next = .ok result) : ∃ value, step = .ok value ∧ next value = .ok result := by
  cases step with
  | error _ => cases run
  | ok value => exact ⟨value, rfl, run⟩

theorem term_length {tokens rest : List Token} {read : Term}
    (run : term tokens = .ok (read, rest)) : rest.length < tokens.length := by
  obtain ⟨_, run1, run⟩ := bind_eq_ok run
  obtain ⟨⟨_, _⟩, run2, run⟩ := bind_eq_ok run
  obtain ⟨_, _, run⟩ := bind_eq_ok run
  obtain ⟨_, run3, run⟩ := bind_eq_ok run
  obtain ⟨⟨_, _⟩, run4, run⟩ := bind_eq_ok run
  obtain ⟨_, _, run⟩ := bind_eq_ok run
  obtain ⟨_, run5, run⟩ := bind_eq_ok run
  obtain ⟨⟨_, _⟩, run6, run⟩ := bind_eq_ok run
  obtain ⟨_, _, run⟩ := bind_eq_ok run
  obtain ⟨_, run7, run⟩ := bind_eq_ok run
  cases run
  have length1 := expect_length run1
  have length2 := expectQuoted_length run2
  have length3 := expect_length run3
  have length4 := expectQuoted_length run4
  have length5 := expect_length run5
  have length6 := expectQuoted_length run6
  have length7 := expect_length run7
  omega

theorem operands_length {tokens rest : List Token} {read : Term × Term}
    (run : operands tokens = .ok (read, rest)) : rest.length < tokens.length := by
  obtain ⟨_, run1, run⟩ := bind_eq_ok run
  obtain ⟨⟨_, _⟩, run2, run⟩ := bind_eq_ok run
  obtain ⟨_, run3, run⟩ := bind_eq_ok run
  obtain ⟨⟨_, _⟩, run4, run⟩ := bind_eq_ok run
  cases run
  have length1 := expect_length run1
  have length2 := term_length run2
  have length3 := expect_length run3
  have length4 := term_length run4
  omega

theorem operand_length {tokens rest : List Token} {read : Term}
    (run : operand tokens = .ok (read, rest)) : rest.length < tokens.length := by
  obtain ⟨_, run1, run⟩ := bind_eq_ok run
  have length1 := expect_length run1
  have length2 := term_length run
  omega

theorem node_length {tokens rest : List Token} {read : Node}
    (run : node tokens = .ok (read, rest)) : rest.length < tokens.length := by
  cases tokens with
  | nil => simp [node] at run
  | cons token tail =>
      simp only [node] at run
      split at run
      · split at run
        · obtain ⟨⟨_, _⟩, run1, run⟩ := bind_eq_ok run
          cases run
          have length1 := operands_length run1
          simp only [List.length_cons]
          omega
        · split at run
          · obtain ⟨⟨_, _⟩, run1, run⟩ := bind_eq_ok run
            cases run
            have length1 := operand_length run1
            simp only [List.length_cons]
            omega
          · cases run
      · obtain ⟨⟨_, _⟩, run1, run⟩ := bind_eq_ok run
        cases run
        exact term_length run1
      · cases run

/-! ## Filters -/

/-- Nodes with a comma before each. -/
def moreNodes (tokens : List Token) : Except SyntaxError (List Node × List Token) :=
  match tokens with
  | [] => .ok ([], [])
  | token :: rest =>
      if token.lexeme = .comma then
        match _found : node rest with
        | .error error => .error error
        | .ok (first, rest) =>
            match moreNodes rest with
            | .error error => .error error
            | .ok (nodes, rest) => .ok (first :: nodes, rest)
      else .ok ([], token :: rest)
termination_by tokens.length
decreasing_by
  have := node_length _found
  simp only [List.length_cons]
  omega

/-- Nodes in brackets; the first of them is a term. -/
def nodeList : Reader (List Node) := fun tokens => do
  let tokens ← expect .openBracket .openBracket tokens
  if (nextToken tokens).lexeme = .openParen then do
    let (first, tokens) ← term tokens
    let (nodes, tokens) ← moreNodes tokens
    let tokens ← expect .closeBracket .commaOrCloseBracket tokens
    return (.leaf first :: nodes, tokens)
  else .error (unexpected .firstTerm tokens)

/-- A whole filter: nothing, one term, or nodes in brackets. -/
def filter : Reader Filter := fun tokens =>
  match (nextToken tokens).lexeme with
  | .endOfText => .ok (empty, tokens)
  | .openParen => do
      let (read, tokens) ← term tokens
      return (ofTerm read, tokens)
  | .openBracket => do
      let (nodes, tokens) ← nodeList tokens
      return (⟨nodes⟩, tokens)
  | _ => .error (unexpected .start tokens)

/-- What `reader` makes of a whole text. -/
def parseWith {α : Type} (reader : Reader α) (text : String) : Except SyntaxError α := do
  let tokens ← tokenize text
  let (read, tokens) ← reader tokens
  expectEnd tokens
  return read

/-- The filter of a text. Only the empty text gives the empty filter. -/
def parse (text : String) : Except SyntaxError Filter := parseWith filter text

/-- The term of a text that holds nothing else. -/
def parseTerm (text : String) : Except SyntaxError Term := parseWith term text

/-- The node of a text that holds nothing else. -/
def parseNode (text : String) : Except SyntaxError Node := parseWith node text

/-- The message that a text is no filter. -/
def rejection (text : String) : String := "invalid domain: " ++ text

/-- Whether the text is a filter. -/
def isValid (text : String) : Bool := (parse text).isOk

end RemoteRecords.Filter
