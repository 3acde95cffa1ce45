import RemoteRecords.Text.Blank
import RemoteRecords.Text.Decimal

namespace RemoteRecords.Filter

/-! ## Tokens -/

inductive Lexeme where
  | openBracket
  | closeBracket
  | openParen
  | closeParen
  | comma
  /-- A quoted text, without its quotes. -/
  | quoted (text : String)
  | endOfText
  deriving DecidableEq, Repr

/-- A lexeme and the byte positions where it begins and where it has ended. -/
structure Token where
  lexeme : Lexeme
  start : Nat
  stop : Nat
  deriving DecidableEq, Repr

/-- How a message names a lexeme. -/
def Lexeme.description : Lexeme → String
  | .openBracket => "'['"
  | .closeBracket => "']'"
  | .openParen => "'('"
  | .closeParen => "')'"
  | .comma => "','"
  | .quoted text => "'" ++ text ++ "'"
  | .endOfText => "end of input"

/-! ## Syntax errors -/

/-- What the reader of a filter text waits for. -/
inductive Expected where
  | start
  | openBracket
  | openParen
  | closeParen
  | comma
  | commaOrCloseBracket
  | commaAfterOperator
  | commaBeforeSecondOperand
  | firstTerm
  | termOrOperator
  | fieldName
  | comparator
  | value
  deriving DecidableEq, Repr

def Expected.description : Expected → String
  | .start => "'[' or '('"
  | .openBracket => "'['"
  | .openParen => "'('"
  | .closeParen => "')'"
  | .comma => "','"
  | .commaOrCloseBracket => "',' or ']'"
  | .commaAfterOperator => "',' after operator"
  | .commaBeforeSecondOperand => "',' before second operand"
  | .firstTerm => "a term as the first element"
  | .termOrOperator => "a term or operator"
  | .fieldName => "quoted field name"
  | .comparator => "quoted comparator"
  | .value => "quoted value"

/-- Why a filter text is rejected. -/
inductive Cause where
  | leadingBlank
  | trailingBlank
  | unterminatedQuote
  | unexpectedChar (char : Char)
  | expected (wanted : Expected) (found : Lexeme)
  | afterEnd (found : Lexeme)
  | unknownOperator (text : String)
  | invalidField (text : String)
  | unsupportedComparator (text : String)
  | invalidValue (text : String)
  deriving DecidableEq, Repr

def Cause.message : Cause → String
  | .leadingBlank => "leading whitespace"
  | .trailingBlank => "trailing whitespace"
  | .unterminatedQuote => "unterminated quoted string"
  | .unexpectedChar char => "unexpected character '" ++ String.singleton char ++ "'"
  | .expected wanted found => "expected " ++ wanted.description ++ ", got " ++ found.description
  | .afterEnd found => "unexpected " ++ found.description ++ " after end of domain"
  | .unknownOperator text => "unknown operator '" ++ text ++ "', expected '&', '|' or '!'"
  | .invalidField text => "invalid field name '" ++ text ++ "'"
  | .unsupportedComparator text => "unsupported comparator '" ++ text ++ "'"
  | .invalidValue text => "invalid value '" ++ text ++ "'"

/-- A rejected filter text: the byte position of the first error and its cause. -/
structure SyntaxError where
  offset : Nat
  cause : Cause
  deriving DecidableEq, Repr

def SyntaxError.message (error : SyntaxError) : String :=
  "invalid syntax at offset " ++ Text.ofNat error.offset ++ ": " ++ error.cause.message

/-! ## Reading tokens -/

/-- The number of bytes of the characters. -/
def byteCount : List Char → Nat
  | [] => 0
  | c :: rest => c.utf8Size + byteCount rest

/-- The characters up to the next single quote and those after it. -/
def splitQuote : List Char → Option (List Char × List Char)
  | [] => none
  | c :: rest =>
      if c = '\'' then some ([], rest)
      else (splitQuote rest).map fun (body, after) => (c :: body, after)

theorem splitQuote_length {chars body after : List Char}
    (split : splitQuote chars = some (body, after)) :
    chars.length = body.length + 1 + after.length := by
  induction chars generalizing body after with
  | nil => simp [splitQuote] at split
  | cons c rest hypothesis =>
      simp only [splitQuote] at split
      split at split
      · simp only [Option.some.injEq, Prod.mk.injEq] at split
        obtain ⟨rfl, rfl⟩ := split
        simp only [List.length_cons, List.length_nil]
        omega
      · obtain ⟨⟨inner, tail⟩, found, equality⟩ := Option.map_eq_some_iff.1 split
        simp only [Prod.mk.injEq] at equality
        obtain ⟨rfl, rfl⟩ := equality
        have shorter := hypothesis found
        simp only [List.length_cons]
        omega

/-- The lexeme of a character that is a token by itself. -/
def bracket? (c : Char) : Option Lexeme :=
  if c = '[' then some .openBracket
  else if c = ']' then some .closeBracket
  else if c = '(' then some .openParen
  else if c = ')' then some .closeParen
  else if c = ',' then some .comma
  else none

/-- The tokens of a text that begins at byte `offset`. Layout may stand before each of them. -/
def tokensFrom (offset : Nat) : List Char → Except SyntaxError (List Token)
  | [] => .ok [⟨.endOfText, offset, offset⟩]
  | c :: rest =>
      if Text.isLayout c then tokensFrom (offset + c.utf8Size) rest
      else
        match bracket? c with
        | some lexeme =>
            (tokensFrom (offset + c.utf8Size) rest).map
              (⟨lexeme, offset, offset + c.utf8Size⟩ :: ·)
        | none =>
            if c = '\'' then
              match split : splitQuote rest with
              | none => .error ⟨offset, .unterminatedQuote⟩
              | some (body, after) =>
                  let stop := offset + byteCount body + 2
                  (tokensFrom stop after).map (⟨.quoted (String.ofList body), offset, stop⟩ :: ·)
            else .error ⟨offset, .unexpectedChar c⟩
termination_by chars => chars.length
decreasing_by
  · simp
  · simp
  · have := splitQuote_length split
    simp only [List.length_cons]
    omega

/-- Whether the last character is layout. -/
def endsBlank (chars : List Char) : Bool :=
  match chars.getLast? with
  | some c => Text.isLayout c
  | none => false

/-- The characters without the layout at their end. -/
def withoutTrailing (chars : List Char) : List Char :=
  (chars.reverse.dropWhile Text.isLayout).reverse

/-- The tokens of a filter text; the last one, and no other, is the end of the text. Layout may
stand between tokens, but neither before the first nor after the last. -/
def tokenize (text : String) : Except SyntaxError (List Token) :=
  let chars := text.toList
  if chars.head?.any Text.isLayout then .error ⟨0, .leadingBlank⟩
  else if endsBlank chars then .error ⟨byteCount (withoutTrailing chars), .trailingBlank⟩
  else tokensFrom 0 chars

end RemoteRecords.Filter
