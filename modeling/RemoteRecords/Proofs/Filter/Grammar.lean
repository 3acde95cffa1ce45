import RemoteRecords.Filter.Parser
import RemoteRecords.Proofs.Except
import RemoteRecords.Proofs.Filter.Spelling
import RemoteRecords.Proofs.Text.Trimming
import Mathlib.Data.List.Basic

/-!
# The grammar of filter texts

The phrases below are the nonterminals of the grammar, as relations between a sequence of lexemes
and what it denotes. Each reader is shown to accept exactly its phrases (`term_eq_ok_iff`,
`node_eq_ok_iff`, `moreNodes_eq_ok_iff`, `filter_eq_ok_iff`), and `parse_iff_phrase` joins this with
the spellings of the lexemes: a text is read as a filter exactly when it spells a phrase for it.
-/

namespace RemoteRecords.Filter

/-! ## Character classes -/

def IsWordChar (c : Char) : Prop :=
  ('A' ≤ c ∧ c ≤ 'Z') ∨ ('a' ≤ c ∧ c ≤ 'z') ∨ ('0' ≤ c ∧ c ≤ '9') ∨ c = '_'

def IsBlankChar (c : Char) : Prop :=
  c = ' ' ∨ c = '\t' ∨ c = '\n' ∨ c = '\x0C' ∨ c = '\r'

/-- One or more word characters. -/
def IsField (text : String) : Prop :=
  text.toList ≠ [] ∧ ∀ c ∈ text.toList, IsWordChar c

/-- Any number of word characters and blanks. -/
def IsValue (text : String) : Prop :=
  ∀ c ∈ text.toList, IsWordChar c ∨ IsBlankChar c

/-! ## Phrases -/

/-- A field, a comparator and a value, each quoted, in parentheses. The value is held without the
blanks at its ends. -/
inductive TermPhrase : List Lexeme → Term → Prop
  | term {field written held : String} {comparator : Comparator} :
      IsField field → IsValue written →
      Text.Trims IsBlankChar written.toList held.toList →
      TermPhrase
        [.openParen, .quoted field, .comma, .quoted comparator.text, .comma, .quoted written,
          .closeParen]
        ⟨field, comparator, held⟩

/-- A term, a connective with two terms, or a negation with one. -/
inductive NodePhrase : List Lexeme → Node → Prop
  | leaf {lexemes : List Lexeme} {term : Term} :
      TermPhrase lexemes term → NodePhrase lexemes (.leaf term)
  | binary {first second : List Lexeme} {connective : Connective} {left right : Term} :
      TermPhrase first left → TermPhrase second right →
      NodePhrase (.quoted connective.text :: .comma :: (first ++ .comma :: second))
        (.binary connective left right)
  | negation {lexemes : List Lexeme} {operand : Term} :
      TermPhrase lexemes operand →
      NodePhrase (.quoted "!" :: .comma :: lexemes) (.negation operand)

/-- Any number of nodes with a comma before each. -/
inductive NodesPhrase : List Lexeme → List Node → Prop
  | none : NodesPhrase [] []
  | more {first later : List Lexeme} {node : Node} {nodes : List Node} :
      NodePhrase first node → NodesPhrase later nodes →
      NodesPhrase (.comma :: (first ++ later)) (node :: nodes)

/-- Nothing, one term, or nodes in brackets, the first of which is a term. -/
inductive FilterPhrase : List Lexeme → Filter → Prop
  | nothing : FilterPhrase [] empty
  | bare {lexemes : List Lexeme} {term : Term} :
      TermPhrase lexemes term → FilterPhrase lexemes (ofTerm term)
  | list {first later : List Lexeme} {term : Term} {nodes : List Node} :
      TermPhrase first term → NodesPhrase later nodes →
      FilterPhrase (.openBracket :: (first ++ (later ++ [.closeBracket])))
        ⟨.leaf term :: nodes⟩

/-! ## Classes as they are checked -/

theorem isWord_iff {c : Char} : Text.isWord c = true ↔ IsWordChar c := by
  have ranges : Text.isWord c =
      (((decide ('A' ≤ c ∧ c ≤ 'Z') || (decide ('a' ≤ c) && decide (c ≤ 'z'))) ||
        (decide ('0' ≤ c) && decide (c ≤ '9'))) || c == '_') := rfl
  rw [ranges]
  simp only [IsWordChar, Bool.or_eq_true, Bool.and_eq_true, decide_eq_true_eq, beq_iff_eq,
    or_assoc]

theorem isAsciiBlank_iff {c : Char} : Text.isAsciiBlank c = true ↔ IsBlankChar c := by
  simp only [Text.isAsciiBlank, IsBlankChar, Bool.or_eq_true, beq_iff_eq, or_assoc]

theorem isFieldName_iff {text : String} : isFieldName text = true ↔ IsField text := by
  simp [isFieldName, IsField, isWord_iff]

theorem isValueText_iff {text : String} : isValueText text = true ↔ IsValue text := by
  simp [isValueText, IsValue, isWord_iff, isAsciiBlank_iff]

/-- Word characters are no white space: all of them lie above 0x20 and below 0x85. -/
theorem not_isBlank_of_isWordChar {c : Char} (word : IsWordChar c) :
    Text.isBlank c = false := by
  have bounds : 33 ≤ c.toNat ∧ c.toNat ≤ 126 := by
    simp only [IsWordChar, Char.le_def, UInt32.le_iff_toNat_le, Char.toNat_val] at word
    rcases word with ⟨lower, upper⟩ | ⟨lower, upper⟩ | ⟨lower, upper⟩ | rfl
    · exact ⟨le_trans (by decide) lower, le_trans upper (by decide)⟩
    · exact ⟨le_trans (by decide) lower, le_trans upper (by decide)⟩
    · exact ⟨le_trans (by decide) lower, le_trans upper (by decide)⟩
    · decide
  simp only [Text.isBlank, Bool.or_eq_false_iff, Bool.and_eq_false_iff, decide_eq_false_iff_not,
    beq_eq_false_iff_ne, ne_eq, UInt32.le_iff_toNat_le, ← UInt32.toNat_inj, Char.toNat_val,
    UInt32.reduceToNat]
  omega

theorem isBlank_iff_of_isValue {text : String} (value : IsValue text) {c : Char}
    (member : c ∈ text.toList) : Text.isBlank c = true ↔ IsBlankChar c := by
  constructor
  · intro blank
    rcases value c member with word | plain
    · rw [not_isBlank_of_isWordChar word] at blank
      cases blank
    · exact plain
  · intro plain
    exact Text.isBlank_of_isAsciiBlank (isAsciiBlank_iff.2 plain)

theorem Trims.congr_dropped {left right : Char → Prop} {written held : List Char}
    (same : ∀ c ∈ written, left c ↔ right c) (trims : Text.Trims left written held) :
    Text.Trims right written held := by
  obtain ⟨before, after, rfl, droppedBefore, droppedAfter, first, final⟩ := trims
  refine ⟨before, after, rfl, ?_, ?_, ?_, ?_⟩
  · intro c member
    exact (same c (by simp [member])).1 (droppedBefore c member)
  · intro c member
    exact (same c (by simp [member])).1 (droppedAfter c member)
  · intro c member
    have inside : c ∈ held := List.mem_of_mem_head? member
    exact mt (same c (by simp [inside])).2 (first c member)
  · intro c member
    have inside : c ∈ held := List.mem_of_mem_getLast? member
    exact mt (same c (by simp [inside])).2 (final c member)

theorem trim_eq_iff {written held : String} (value : IsValue written) :
    Text.trim written = held ↔ Text.Trims IsBlankChar written.toList held.toList := by
  have asChars : Text.trim written = held ↔
      Text.trimBoth Text.isBlank written.toList = held.toList := by
    rw [Text.trim, ← String.toList_inj, String.toList_ofList]
  rw [asChars, Text.trimBoth_eq_iff]
  constructor
  · exact Trims.congr_dropped fun c member => isBlank_iff_of_isValue value member
  · exact Trims.congr_dropped fun c member => (isBlank_iff_of_isValue value member).symm

/-! ## Single tokens -/

theorem expect_eq_ok_iff {lexeme : Lexeme} {wanted : Expected} {tokens rest : List Token} :
    expect lexeme wanted tokens = .ok rest ↔
      ∃ token, tokens = token :: rest ∧ token.lexeme = lexeme := by
  cases tokens with
  | nil => simp [expect]
  | cons token tail =>
      constructor
      · intro read
        rw [expect] at read
        split at read
        · next same =>
            cases read
            exact ⟨token, rfl, same⟩
        · cases read
      · rintro ⟨other, equality, same⟩
        cases equality
        rw [expect, if_pos same]

theorem expectQuoted_eq_ok_iff {wanted : Expected} {tokens rest : List Token} {start : Nat}
    {text : String} :
    expectQuoted wanted tokens = .ok ((start, text), rest) ↔
      ∃ token, tokens = token :: rest ∧ token.lexeme = .quoted text ∧ token.start = start := by
  cases tokens with
  | nil => simp [expectQuoted]
  | cons token tail =>
      constructor
      · intro read
        rw [expectQuoted] at read
        split at read
        · next lexeme =>
            cases read
            exact ⟨token, rfl, lexeme, rfl⟩
        · cases read
      · rintro ⟨other, equality, lexeme, rfl⟩
        cases equality
        simp [expectQuoted, lexeme]

theorem require_eq_ok_iff {condition : Bool} {offset : Nat} {cause : Cause} :
    require condition offset cause = .ok () ↔ condition = true := by
  cases condition <;> simp [require]

theorem comparatorAt_eq_ok_iff {offset : Nat} {text : String} {comparator : Comparator} :
    comparatorAt offset text = .ok comparator ↔ text = comparator.text := by
  constructor
  · intro read
    rw [comparatorAt] at read
    split at read
    · next found =>
        cases read
        exact (Comparator.text_of_ofText? found).symm
    · cases read
  · rintro rfl
    simp [comparatorAt, Comparator.ofText?_text]

/-! ## Terms -/

theorem termPhrase_of_term {tokens rest : List Token} {read : Term}
    (run : term tokens = .ok (read, rest)) :
    ∃ front, tokens = front ++ rest ∧ TermPhrase (front.map Token.lexeme) read := by
  obtain ⟨_, openRun, run⟩ := bind_eq_ok run
  obtain ⟨⟨_, field⟩, fieldRun, run⟩ := bind_eq_ok run
  obtain ⟨_, fieldCheck, run⟩ := bind_eq_ok run
  obtain ⟨_, firstComma, run⟩ := bind_eq_ok run
  obtain ⟨⟨_, comparatorText⟩, comparatorRun, run⟩ := bind_eq_ok run
  obtain ⟨comparator, comparatorCheck, run⟩ := bind_eq_ok run
  obtain ⟨_, secondComma, run⟩ := bind_eq_ok run
  obtain ⟨⟨_, value⟩, valueRun, run⟩ := bind_eq_ok run
  obtain ⟨_, valueCheck, run⟩ := bind_eq_ok run
  obtain ⟨_, closeRun, run⟩ := bind_eq_ok run
  cases run
  obtain ⟨token1, rfl, lexeme1⟩ := expect_eq_ok_iff.1 openRun
  obtain ⟨token2, rfl, lexeme2, -⟩ := expectQuoted_eq_ok_iff.1 fieldRun
  obtain ⟨token3, rfl, lexeme3⟩ := expect_eq_ok_iff.1 firstComma
  obtain ⟨token4, rfl, lexeme4, -⟩ := expectQuoted_eq_ok_iff.1 comparatorRun
  obtain ⟨token5, rfl, lexeme5⟩ := expect_eq_ok_iff.1 secondComma
  obtain ⟨token6, rfl, lexeme6, -⟩ := expectQuoted_eq_ok_iff.1 valueRun
  obtain ⟨token7, rfl, lexeme7⟩ := expect_eq_ok_iff.1 closeRun
  have fieldValid := isFieldName_iff.1 (require_eq_ok_iff.1 fieldCheck)
  have valueValid := isValueText_iff.1 (require_eq_ok_iff.1 valueCheck)
  have sameComparator := comparatorAt_eq_ok_iff.1 comparatorCheck
  refine ⟨[token1, token2, token3, token4, token5, token6, token7], rfl, ?_⟩
  simp only [List.map_cons, List.map_nil, lexeme1, lexeme2, lexeme3, lexeme4, lexeme5, lexeme6,
    lexeme7, sameComparator]
  exact .term fieldValid valueValid ((trim_eq_iff valueValid).1 rfl)

theorem term_of_termPhrase {front rest : List Token} {read : Term}
    (phrase : TermPhrase (front.map Token.lexeme) read) :
    term (front ++ rest) = .ok (read, rest) := by
  generalize shape : front.map Token.lexeme = lexemes at phrase
  cases phrase with
  | @term field written held comparator fieldValid valueValid trims =>
      simp only [List.map_eq_cons_iff, List.map_eq_nil_iff] at shape
      obtain ⟨token1, _, rfl, lexeme1, token2, _, rfl, lexeme2, token3, _, rfl, lexeme3,
        token4, _, rfl, lexeme4, token5, _, rfl, lexeme5, token6, _, rfl, lexeme6,
        token7, _, rfl, lexeme7, rfl⟩ := shape
      refine bind_eq_ok_iff.2 ⟨_, expect_eq_ok_iff.2 ⟨token1, rfl, lexeme1⟩, ?_⟩
      refine bind_eq_ok_iff.2
        ⟨(_, _), expectQuoted_eq_ok_iff.2 ⟨token2, rfl, lexeme2, rfl⟩, ?_⟩
      refine bind_eq_ok_iff.2
        ⟨(), require_eq_ok_iff.2 (isFieldName_iff.2 fieldValid), ?_⟩
      refine bind_eq_ok_iff.2 ⟨_, expect_eq_ok_iff.2 ⟨token3, rfl, lexeme3⟩, ?_⟩
      refine bind_eq_ok_iff.2
        ⟨(_, _), expectQuoted_eq_ok_iff.2 ⟨token4, rfl, lexeme4, rfl⟩, ?_⟩
      refine bind_eq_ok_iff.2 ⟨comparator, comparatorAt_eq_ok_iff.2 rfl, ?_⟩
      refine bind_eq_ok_iff.2 ⟨_, expect_eq_ok_iff.2 ⟨token5, rfl, lexeme5⟩, ?_⟩
      refine bind_eq_ok_iff.2
        ⟨(_, _), expectQuoted_eq_ok_iff.2 ⟨token6, rfl, lexeme6, rfl⟩, ?_⟩
      refine bind_eq_ok_iff.2
        ⟨(), require_eq_ok_iff.2 (isValueText_iff.2 valueValid), ?_⟩
      refine bind_eq_ok_iff.2 ⟨_, expect_eq_ok_iff.2 ⟨token7, rfl, lexeme7⟩, ?_⟩
      rw [(trim_eq_iff valueValid).2 trims]
      rfl

theorem term_eq_ok_iff {tokens rest : List Token} {read : Term} :
    term tokens = .ok (read, rest) ↔
      ∃ front, tokens = front ++ rest ∧ TermPhrase (front.map Token.lexeme) read := by
  constructor
  · exact termPhrase_of_term
  · rintro ⟨front, rfl, phrase⟩
    exact term_of_termPhrase phrase

/-! ## Nodes -/

theorem operand_eq_ok_iff {tokens rest : List Token} {read : Term} :
    operand tokens = .ok (read, rest) ↔
      ∃ front lexemes, tokens = front ++ rest ∧
        front.map Token.lexeme = .comma :: lexemes ∧ TermPhrase lexemes read := by
  constructor
  · intro run
    obtain ⟨_, commaRun, termRun⟩ := bind_eq_ok run
    obtain ⟨comma, rfl, lexeme⟩ := expect_eq_ok_iff.1 commaRun
    obtain ⟨front, rfl, phrase⟩ := term_eq_ok_iff.1 termRun
    exact ⟨comma :: front, _, rfl, by rw [List.map_cons, lexeme], phrase⟩
  · rintro ⟨front, lexemes, rfl, shape, phrase⟩
    obtain ⟨comma, front, rfl, lexeme, rfl⟩ := List.map_eq_cons_iff.1 shape
    refine bind_eq_ok_iff.2 ⟨_, expect_eq_ok_iff.2 ⟨comma, rfl, lexeme⟩, ?_⟩
    exact term_eq_ok_iff.2 ⟨front, rfl, phrase⟩

theorem operands_eq_ok_iff {tokens rest : List Token} {left right : Term} :
    operands tokens = .ok ((left, right), rest) ↔
      ∃ front first second, tokens = front ++ rest ∧
        front.map Token.lexeme = .comma :: (first ++ .comma :: second) ∧
        TermPhrase first left ∧ TermPhrase second right := by
  constructor
  · intro run
    obtain ⟨_, commaRun, run⟩ := bind_eq_ok run
    obtain ⟨⟨_, _⟩, leftRun, run⟩ := bind_eq_ok run
    obtain ⟨_, nextCommaRun, run⟩ := bind_eq_ok run
    obtain ⟨⟨_, _⟩, rightRun, run⟩ := bind_eq_ok run
    cases run
    obtain ⟨comma, rfl, lexeme⟩ := expect_eq_ok_iff.1 commaRun
    obtain ⟨first, rfl, firstPhrase⟩ := term_eq_ok_iff.1 leftRun
    obtain ⟨nextComma, rfl, nextLexeme⟩ := expect_eq_ok_iff.1 nextCommaRun
    obtain ⟨second, rfl, secondPhrase⟩ := term_eq_ok_iff.1 rightRun
    refine ⟨comma :: (first ++ nextComma :: second), _, _, ?_, ?_, firstPhrase, secondPhrase⟩
    · simp
    · simp [lexeme, nextLexeme]
  · rintro ⟨front, first, second, rfl, shape, firstPhrase, secondPhrase⟩
    obtain ⟨comma, front, rfl, lexeme, termsShape⟩ := List.map_eq_cons_iff.1 shape
    obtain ⟨firstTokens, front, rfl, rfl, restShape⟩ := List.map_eq_append_iff.1 termsShape
    obtain ⟨nextComma, secondTokens, rfl, nextLexeme, rfl⟩ :=
      List.map_eq_cons_iff.1 restShape
    refine bind_eq_ok_iff.2 ⟨_, expect_eq_ok_iff.2 ⟨comma, rfl, lexeme⟩, ?_⟩
    refine bind_eq_ok_iff.2
      ⟨(left, nextComma :: (secondTokens ++ rest)), term_eq_ok_iff.2 ⟨firstTokens, ?_, firstPhrase⟩,
        ?_⟩
    · simp
    refine bind_eq_ok_iff.2 ⟨_, expect_eq_ok_iff.2 ⟨nextComma, rfl, nextLexeme⟩, ?_⟩
    exact bind_eq_ok_iff.2
      ⟨(right, rest), term_eq_ok_iff.2 ⟨secondTokens, rfl, secondPhrase⟩, rfl⟩

theorem connective_ofText?_eq_some_iff {text : String} {connective : Connective} :
    Connective.ofText? text = some connective ↔ text = connective.text := by
  constructor
  · intro found
    rw [Connective.ofText?] at found
    split at found
    · next same => cases found; exact same
    · split at found
      · next same => cases found; exact same
      · cases found
  · rintro rfl
    cases connective <;> rfl

theorem nodePhrase_of_node {tokens rest : List Token} {read : Node}
    (run : node tokens = .ok (read, rest)) :
    ∃ front, tokens = front ++ rest ∧ NodePhrase (front.map Token.lexeme) read := by
  cases tokens with
  | nil => cases run
  | cons token tail =>
      rw [node] at run
      split at run
      · next mark lexeme =>
          split at run
          · next connective found =>
              obtain ⟨⟨⟨left, right⟩, _⟩, operandsRun, run⟩ := bind_eq_ok run
              cases run
              obtain ⟨front, first, second, rfl, shape, firstPhrase, secondPhrase⟩ :=
                operands_eq_ok_iff.1 operandsRun
              refine ⟨token :: front, rfl, ?_⟩
              rw [List.map_cons, lexeme, shape, connective_ofText?_eq_some_iff.1 found]
              exact .binary firstPhrase secondPhrase
          · split at run
            · next isNegation =>
                obtain ⟨⟨operand, _⟩, operandRun, run⟩ := bind_eq_ok run
                cases run
                obtain ⟨front, lexemes, rfl, shape, phrase⟩ :=
                  operand_eq_ok_iff.1 operandRun
                refine ⟨token :: front, rfl, ?_⟩
                rw [List.map_cons, lexeme, shape, isNegation]
                exact .negation phrase
            · cases run
      · obtain ⟨⟨leaf, _⟩, termRun, run⟩ := bind_eq_ok run
        cases run
        obtain ⟨front, equality, phrase⟩ := term_eq_ok_iff.1 termRun
        exact ⟨front, equality, .leaf phrase⟩
      · cases run

theorem node_of_nodePhrase {front rest : List Token} {read : Node}
    (phrase : NodePhrase (front.map Token.lexeme) read) :
    node (front ++ rest) = .ok (read, rest) := by
  generalize shape : front.map Token.lexeme = lexemes at phrase
  cases phrase with
  | leaf termPhrase =>
      cases termPhrase with
      | term fieldValid valueValid trims =>
          obtain ⟨token, tail, rfl, lexeme, _⟩ := List.map_eq_cons_iff.1 shape
          rw [List.cons_append, node]
          simp only [lexeme]
          refine bind_eq_ok_iff.2 ⟨(_, rest), term_eq_ok_iff.2 ⟨token :: tail, rfl, ?_⟩, rfl⟩
          rw [shape]
          exact .term fieldValid valueValid trims
  | @binary first second connective left right firstPhrase secondPhrase =>
      obtain ⟨token, tail, rfl, lexeme, tailShape⟩ := List.map_eq_cons_iff.1 shape
      rw [List.cons_append, node]
      simp only [lexeme, connective_ofText?_eq_some_iff.2 rfl]
      exact bind_eq_ok_iff.2
        ⟨((left, right), rest),
          operands_eq_ok_iff.2 ⟨tail, first, second, rfl, tailShape, firstPhrase, secondPhrase⟩,
          rfl⟩
  | @negation lexemes operand termPhrase =>
      obtain ⟨token, tail, rfl, lexeme, tailShape⟩ := List.map_eq_cons_iff.1 shape
      have noConnective : Connective.ofText? "!" = none := by decide
      rw [List.cons_append, node]
      simp only [lexeme, noConnective, negationText, if_true]
      exact bind_eq_ok_iff.2
        ⟨(operand, rest),
          operand_eq_ok_iff.2 ⟨tail, lexemes, rfl, tailShape, termPhrase⟩, rfl⟩

theorem node_eq_ok_iff {tokens rest : List Token} {read : Node} :
    node tokens = .ok (read, rest) ↔
      ∃ front, tokens = front ++ rest ∧ NodePhrase (front.map Token.lexeme) read := by
  constructor
  · exact nodePhrase_of_node
  · rintro ⟨front, rfl, phrase⟩
    exact node_of_nodePhrase phrase

/-! ## Filters -/

theorem moreNodes_of_no_comma {tokens : List Token}
    (noComma : (nextToken tokens).lexeme ≠ .comma) : moreNodes tokens = .ok ([], tokens) := by
  cases tokens with
  | nil => rw [moreNodes]
  | cons token tail =>
      rw [moreNodes]
      exact if_neg noComma

theorem moreNodes_cons {comma : Token} {tail afterFirst rest : List Token} {first : Node}
    {later : List Node} (lexeme : comma.lexeme = .comma)
    (firstRun : node tail = .ok (first, afterFirst))
    (laterRun : moreNodes afterFirst = .ok (later, rest)) :
    moreNodes (comma :: tail) = .ok (first :: later, rest) := by
  rw [moreNodes, if_pos lexeme]
  split
  · next failed => simp [firstRun] at failed
  · next found =>
      rw [firstRun] at found
      cases found
      rw [laterRun]

theorem moreNodes_eq_ok_iff {tokens rest : List Token} {nodes : List Node} :
    moreNodes tokens = .ok (nodes, rest) ↔
      ∃ front, tokens = front ++ rest ∧ NodesPhrase (front.map Token.lexeme) nodes ∧
        (nextToken rest).lexeme ≠ .comma := by
  constructor
  · intro run
    fun_induction moreNodes tokens generalizing nodes with
    | case1 =>
        cases run
        exact ⟨[], rfl, .none, by decide⟩
    | case2 => cases run
    | case3 => cases run
    | case4 token tail comma first afterFirst found later afterLater laterRun
        inductionHypothesis =>
        cases run
        obtain ⟨laterFront, rfl, laterPhrase, noComma⟩ := inductionHypothesis laterRun
        obtain ⟨firstFront, rfl, firstPhrase⟩ := node_eq_ok_iff.1 found
        refine ⟨token :: (firstFront ++ laterFront), by simp, ?_, noComma⟩
        rw [List.map_cons, List.map_append, comma]
        exact .more firstPhrase laterPhrase
    | case5 token tail noComma =>
        cases run
        exact ⟨[], rfl, .none, noComma⟩
  · rintro ⟨front, rfl, phrase, noComma⟩
    generalize shape : front.map Token.lexeme = lexemes at phrase
    induction phrase generalizing front with
    | none =>
        rw [List.map_eq_nil_iff.1 shape]
        exact moreNodes_of_no_comma noComma
    | more firstPhrase laterPhrase inductionHypothesis =>
        obtain ⟨comma, front, rfl, lexeme, restShape⟩ := List.map_eq_cons_iff.1 shape
        obtain ⟨firstFront, laterFront, rfl, rfl, laterShape⟩ :=
          List.map_eq_append_iff.1 restShape
        exact moreNodes_cons lexeme
          (node_eq_ok_iff.2 ⟨firstFront, List.append_assoc _ _ _, firstPhrase⟩)
          (inductionHypothesis laterFront laterShape)

theorem TermPhrase.first_eq {lexemes : List Lexeme} {term : Term}
    (phrase : TermPhrase lexemes term) : ∃ later, lexemes = .openParen :: later := by
  cases phrase
  exact ⟨_, rfl⟩

theorem nodeList_eq_ok_iff {tokens rest : List Token} {nodes : List Node} :
    nodeList tokens = .ok (nodes, rest) ↔
      ∃ opening closing first later term others,
        tokens = opening :: (first ++ (later ++ closing :: rest)) ∧
        opening.lexeme = .openBracket ∧ closing.lexeme = .closeBracket ∧
        TermPhrase (first.map Token.lexeme) term ∧
        NodesPhrase (later.map Token.lexeme) others ∧ nodes = .leaf term :: others := by
  constructor
  · intro run
    obtain ⟨_, openRun, run⟩ := bind_eq_ok run
    split at run
    · obtain ⟨⟨term, _⟩, firstRun, run⟩ := bind_eq_ok run
      obtain ⟨⟨others, _⟩, othersRun, run⟩ := bind_eq_ok run
      obtain ⟨_, closeRun, run⟩ := bind_eq_ok run
      cases run
      obtain ⟨opening, rfl, openLexeme⟩ := expect_eq_ok_iff.1 openRun
      obtain ⟨first, rfl, firstPhrase⟩ := term_eq_ok_iff.1 firstRun
      obtain ⟨later, rfl, othersPhrase, -⟩ := moreNodes_eq_ok_iff.1 othersRun
      obtain ⟨closing, rfl, closeLexeme⟩ := expect_eq_ok_iff.1 closeRun
      exact ⟨opening, closing, first, later, term, others, rfl, openLexeme, closeLexeme,
        firstPhrase, othersPhrase, rfl⟩
    · cases run
  · rintro ⟨opening, closing, first, later, term, others, rfl, openLexeme, closeLexeme,
      firstPhrase, othersPhrase, rfl⟩
    have firstLexeme :
        (nextToken (first ++ (later ++ closing :: rest))).lexeme = .openParen := by
      obtain ⟨_, shape⟩ := firstPhrase.first_eq
      obtain ⟨token, tail, rfl, lexeme, -⟩ := List.map_eq_cons_iff.1 shape
      exact lexeme
    have noComma : (nextToken (closing :: rest)).lexeme ≠ .comma := by
      simp [nextToken, closeLexeme]
    refine bind_eq_ok_iff.2 ⟨_, expect_eq_ok_iff.2 ⟨opening, rfl, openLexeme⟩, ?_⟩
    simp only [firstLexeme, if_true]
    refine bind_eq_ok_iff.2 ⟨(term, _), term_eq_ok_iff.2 ⟨first, rfl, firstPhrase⟩, ?_⟩
    refine bind_eq_ok_iff.2
      ⟨(others, _), moreNodes_eq_ok_iff.2 ⟨later, rfl, othersPhrase, noComma⟩, ?_⟩
    exact bind_eq_ok_iff.2 ⟨_, expect_eq_ok_iff.2 ⟨closing, rfl, closeLexeme⟩, rfl⟩

/-- What `filter` leaves behind counts only where it is the end of the text: nothing is itself a
phrase. -/
theorem filter_eq_ok_iff {tokens rest : List Token} {read : Filter}
    (atEnd : (nextToken rest).lexeme = .endOfText) :
    filter tokens = .ok (read, rest) ↔
      ∃ front, tokens = front ++ rest ∧ FilterPhrase (front.map Token.lexeme) read := by
  constructor
  · intro run
    rw [filter] at run
    split at run
    · cases run
      exact ⟨[], rfl, .nothing⟩
    · obtain ⟨⟨term, _⟩, termRun, run⟩ := bind_eq_ok run
      cases run
      obtain ⟨front, equality, phrase⟩ := term_eq_ok_iff.1 termRun
      exact ⟨front, equality, .bare phrase⟩
    · obtain ⟨⟨nodes, _⟩, listRun, run⟩ := bind_eq_ok run
      cases run
      obtain ⟨opening, closing, first, later, term, others, rfl, openLexeme, closeLexeme,
        firstPhrase, othersPhrase, rfl⟩ := nodeList_eq_ok_iff.1 listRun
      refine ⟨opening :: (first ++ (later ++ [closing])), by simp, ?_⟩
      simp only [List.map_cons, List.map_append, List.map_nil, openLexeme, closeLexeme]
      exact .list firstPhrase othersPhrase
    · cases run
  · rintro ⟨front, rfl, phrase⟩
    generalize shape : front.map Token.lexeme = lexemes at phrase
    rw [filter]
    cases phrase with
    | nothing =>
        rw [List.map_eq_nil_iff.1 shape, List.nil_append]
        simp only [atEnd]
    | bare termPhrase =>
        obtain ⟨_, rfl⟩ := termPhrase.first_eq
        obtain ⟨token, tail, rfl, lexeme, -⟩ := List.map_eq_cons_iff.1 shape
        rw [← shape] at termPhrase
        simp only [List.cons_append, nextToken, lexeme]
        exact bind_eq_ok_iff.2
          ⟨(_, rest), term_eq_ok_iff.2 ⟨token :: tail, rfl, termPhrase⟩, rfl⟩
    | list firstPhrase othersPhrase =>
        obtain ⟨opening, inner, rfl, openLexeme, innerShape⟩ := List.map_eq_cons_iff.1 shape
        obtain ⟨first, tail, rfl, rfl, tailShape⟩ := List.map_eq_append_iff.1 innerShape
        obtain ⟨later, final, rfl, rfl, finalShape⟩ := List.map_eq_append_iff.1 tailShape
        obtain ⟨closing, rfl, closeLexeme⟩ := List.map_eq_singleton_iff.1 finalShape
        simp only [List.cons_append, nextToken, openLexeme]
        refine bind_eq_ok_iff.2 ⟨(_, rest), nodeList_eq_ok_iff.2
          ⟨opening, closing, first, later, _, _, ?_, openLexeme, closeLexeme, firstPhrase,
            othersPhrase, rfl⟩, rfl⟩
        simp

/-! ## Phrases can be written -/

theorem IsField.no_quote {text : String} (field : IsField text) : '\'' ∉ text.toList := by
  intro member
  have word := isWord_iff.2 (field.2 _ member)
  revert word
  decide

theorem IsValue.no_quote {text : String} (value : IsValue text) : '\'' ∉ text.toList := by
  intro member
  rcases value _ member with word | blank
  · have isWord := isWord_iff.2 word
    revert isWord
    decide
  · have isBlank := isAsciiBlank_iff.2 blank
    revert isBlank
    decide

theorem Comparator.no_quote (comparator : Comparator) : '\'' ∉ comparator.text.toList := by
  cases comparator <;> decide

theorem Connective.no_quote (connective : Connective) : '\'' ∉ connective.text.toList := by
  cases connective <;> decide

theorem negation_written : (Lexeme.quoted "!").Written := by
  change '\'' ∉ "!".toList
  decide

theorem TermPhrase.written {lexemes : List Lexeme} {term : Term}
    (phrase : TermPhrase lexemes term) : ∀ lexeme ∈ lexemes, lexeme.Written := by
  cases phrase with
  | @term field written held comparator fieldValid valueValid trims =>
      simp [Lexeme.Written, fieldValid.no_quote, valueValid.no_quote, comparator.no_quote]

theorem NodePhrase.written {lexemes : List Lexeme} {node : Node}
    (phrase : NodePhrase lexemes node) : ∀ lexeme ∈ lexemes, lexeme.Written := by
  have comma : Lexeme.comma.Written := trivial
  cases phrase with
  | leaf termPhrase => exact termPhrase.written
  | @binary first second connective left right firstPhrase secondPhrase =>
      simp only [List.forall_mem_cons, List.forall_mem_append]
      exact ⟨connective.no_quote, comma, firstPhrase.written, comma, secondPhrase.written⟩
  | negation termPhrase =>
      simp only [List.forall_mem_cons]
      exact ⟨negation_written, comma, termPhrase.written⟩

theorem NodesPhrase.written {lexemes : List Lexeme} {nodes : List Node}
    (phrase : NodesPhrase lexemes nodes) : ∀ lexeme ∈ lexemes, lexeme.Written := by
  induction phrase with
  | none =>
      intro lexeme member
      cases member
  | more firstPhrase _ inductionHypothesis =>
      simp only [List.forall_mem_cons, List.forall_mem_append]
      exact ⟨trivial, firstPhrase.written, inductionHypothesis⟩

theorem FilterPhrase.written {lexemes : List Lexeme} {filter : Filter}
    (phrase : FilterPhrase lexemes filter) : ∀ lexeme ∈ lexemes, lexeme.Written := by
  cases phrase with
  | nothing =>
      intro lexeme member
      cases member
  | bare termPhrase => exact termPhrase.written
  | list firstPhrase laterPhrase =>
      simp only [List.forall_mem_cons, List.forall_mem_append]
      exact ⟨trivial, firstPhrase.written, laterPhrase.written, trivial, List.forall_mem_nil _⟩

/-! ## Whole texts -/

theorem expectEnd_eq_ok_iff {tokens : List Token} :
    expectEnd tokens = .ok () ↔ (nextToken tokens).lexeme = .endOfText := by
  rw [expectEnd]
  split
  · next atEnd => simp [atEnd]
  · next notEnd => simp; exact notEnd

/-- A reader that accepts the phrases of a kind reads a whole text when the text spells a phrase of
this kind. -/
theorem parseWith_eq_ok_iff {α : Type} {reader : Reader α} {Phrase : List Lexeme → α → Prop}
    (reads : ∀ {tokens rest : List Token} {read : α},
      (nextToken rest).lexeme = .endOfText →
      (reader tokens = .ok (read, rest) ↔
        ∃ front, tokens = front ++ rest ∧ Phrase (front.map Token.lexeme) read))
    (written : ∀ {lexemes : List Lexeme} {read : α},
      Phrase lexemes read → ∀ lexeme ∈ lexemes, lexeme.Written)
    {text : String} {read : α} :
    parseWith reader text = .ok read ↔
      ∃ lexemes, Spells text.toList lexemes ∧ Phrase lexemes read := by
  constructor
  · intro run
    obtain ⟨tokens, tokenRun, run⟩ := bind_eq_ok run
    obtain ⟨⟨_, rest⟩, readRun, run⟩ := bind_eq_ok run
    obtain ⟨_, endRun, run⟩ := bind_eq_ok run
    cases run
    have atEnd := expectEnd_eq_ok_iff.1 endRun
    obtain ⟨front, rfl, phrase⟩ := (reads atEnd).1 readRun
    obtain ⟨lexemes, spells, same⟩ := spells_of_tokenize tokenRun
    rw [List.map_append] at same
    refine ⟨lexemes, spells, ?_⟩
    cases rest with
    | nil =>
        rw [List.map_nil, List.append_nil] at same
        exact False.elim (written phrase .endOfText (by simp [same]))
    | cons token tail =>
        have unwritten : Lexeme.endOfText ∉ lexemes :=
          fun member => spells.written _ member
        rw [List.map_cons, show token.lexeme = .endOfText from atEnd] at same
        have equal := (List.append_cons_inj_of_notMem unwritten List.not_mem_nil).1 same.symm
        rwa [equal.1]
  · rintro ⟨lexemes, spells, phrase⟩
    obtain ⟨tokens, tokenRun, same⟩ := spells.tokenize
    obtain ⟨front, final, rfl, rfl, finalShape⟩ := List.map_eq_append_iff.1 same
    obtain ⟨final, rfl, finalLexeme⟩ := List.map_eq_singleton_iff.1 finalShape
    refine bind_eq_ok_iff.2 ⟨_, tokenRun, ?_⟩
    have atEnd : (nextToken [final]).lexeme = .endOfText := finalLexeme
    refine bind_eq_ok_iff.2 ⟨(read, [final]), (reads atEnd).2 ⟨front, rfl, phrase⟩, ?_⟩
    exact bind_eq_ok_iff.2 ⟨(), expectEnd_eq_ok_iff.2 atEnd, rfl⟩

theorem parse_iff_phrase {text : String} {read : Filter} :
    parse text = .ok read ↔ ∃ lexemes, Spells text.toList lexemes ∧ FilterPhrase lexemes read :=
  parseWith_eq_ok_iff filter_eq_ok_iff FilterPhrase.written

theorem parseTerm_iff_phrase {text : String} {read : Term} :
    parseTerm text = .ok read ↔ ∃ lexemes, Spells text.toList lexemes ∧ TermPhrase lexemes read :=
  parseWith_eq_ok_iff (fun _ => term_eq_ok_iff) TermPhrase.written

theorem parseNode_iff_phrase {text : String} {read : Node} :
    parseNode text = .ok read ↔ ∃ lexemes, Spells text.toList lexemes ∧ NodePhrase lexemes read :=
  parseWith_eq_ok_iff (fun _ => node_eq_ok_iff) NodePhrase.written

theorem FilterPhrase.lexemes_eq_nil_iff {lexemes : List Lexeme} {read : Filter}
    (phrase : FilterPhrase lexemes read) : lexemes = [] ↔ read = empty := by
  cases phrase with
  | nothing => simp
  | bare termPhrase =>
      obtain ⟨_, rfl⟩ := termPhrase.first_eq
      simp [ofTerm, empty]
  | list => simp [empty]

theorem Spells.lexemes_eq_nil_iff {chars : List Char} {lexemes : List Lexeme}
    (spells : Spells chars lexemes) : lexemes = [] ↔ chars = [] := by
  constructor
  · rintro rfl
    exact spells.chars_eq_nil
  · rintro rfl
    cases lexemes with
    | nil => rfl
    | cons lexeme lexemes => exact absurd rfl spells.ne_nil

theorem parse_eq_empty_iff {text : String} : parse text = .ok empty ↔ text = "" := by
  rw [parse_iff_phrase, ← String.toList_eq_nil_iff]
  constructor
  · rintro ⟨lexemes, spells, phrase⟩
    exact spells.lexemes_eq_nil_iff.1 (phrase.lexemes_eq_nil_iff.2 rfl)
  · intro noChars
    rw [noChars]
    exact ⟨[], .nothing, .nothing⟩

/-- The readers of filters, terms and nodes accept the grammar exactly: a text is read as a value
when it spells a phrase for this value, and as the empty filter only when it is empty. -/
theorem parse_exact (text : String) :
    (∀ read : Filter, parse text = .ok read ↔
      ∃ lexemes, Spells text.toList lexemes ∧ FilterPhrase lexemes read) ∧
    (∀ read : Term, parseTerm text = .ok read ↔
      ∃ lexemes, Spells text.toList lexemes ∧ TermPhrase lexemes read) ∧
    (∀ read : Node, parseNode text = .ok read ↔
      ∃ lexemes, Spells text.toList lexemes ∧ NodePhrase lexemes read) ∧
    (parse text = .ok empty ↔ text = "") :=
  ⟨fun _ => parse_iff_phrase, fun _ => parseTerm_iff_phrase, fun _ => parseNode_iff_phrase,
    parse_eq_empty_iff⟩

end RemoteRecords.Filter
