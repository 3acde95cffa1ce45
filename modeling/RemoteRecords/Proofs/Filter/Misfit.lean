import RemoteRecords.Proofs.Filter.Grammar

/-!
# Where reading stops

A reader that fails stops at the first token that fits no continuation: `MisfitAt` says this of a
language of lexeme sequences, and each reader is followed through the language of its phrases
(`misfitAt_of_term`, `misfitAt_of_node`, `misfitAt_of_moreNodes`). A filter is rejected at a token
before which the lexemes begin some filter, while no filter goes on with this token
(`misfitAt_of_filter`).
-/

namespace RemoteRecords.Filter

/-! ## Languages of lexemes -/

/-- Some sequence of the language begins with `front`. -/
def Begins (language : List Lexeme → Prop) (front : List Lexeme) : Prop :=
  ∃ rest, language (front ++ rest)

/-- The tokens before some token begin a sequence of the language; together with this token, which
stands at `offset`, they begin none. -/
def MisfitAt (language : List Lexeme → Prop) (tokens : List Token) (offset : Nat) : Prop :=
  ∃ front rest, tokens = front ++ rest ∧ (nextToken rest).start = offset ∧
    Begins language (front.map Token.lexeme) ∧
    ¬ Begins language (front.map Token.lexeme ++ [(nextToken rest).lexeme])

/-- A lexeme of a class and a sequence of another language behind it. -/
def Step (fits : Lexeme → Prop) (later : List Lexeme → Prop) : List Lexeme → Prop
  | [] => False
  | lexeme :: rest => fits lexeme ∧ later rest

/-- A phrase and a sequence of another language behind it. -/
def Then {α : Type} (Phrase : List Lexeme → α → Prop) (later : List Lexeme → Prop)
    (lexemes : List Lexeme) : Prop :=
  ∃ front rest value, lexemes = front ++ rest ∧ Phrase front value ∧ later rest

/-- A quoted text of a class. -/
def IsQuoted (valid : String → Prop) : Lexeme → Prop
  | .quoted text => valid text
  | _ => False

def IsComparator (text : String) : Prop :=
  ∃ comparator : Comparator, text = comparator.text

/-- Only the end of the text. -/
def AtEnd : List Lexeme → Prop := Step (· = .endOfText) (· = [])

section Languages

variable {language later : List Lexeme → Prop} {tokens : List Token} {offset : Nat}

theorem misfitAt_here (inhabited : ∃ lexemes, language lexemes)
    (stuck : ∀ rest, ¬ language ((nextToken tokens).lexeme :: rest)) :
    MisfitAt language tokens (nextToken tokens).start := by
  refine ⟨[], tokens, rfl, rfl, inhabited, ?_⟩
  rintro ⟨rest, member⟩
  exact stuck rest member

/-- What is behind `front` in the language decides about the tokens behind it. -/
theorem MisfitAt.behind {front : List Token}
    (residual : ∀ rest, language (front.map Token.lexeme ++ rest) ↔ later rest)
    (misfit : MisfitAt later tokens offset) : MisfitAt language (front ++ tokens) offset := by
  obtain ⟨middle, rest, rfl, startsAt, viable, stuck⟩ := misfit
  have begins : ∀ lexemes, Begins language (front.map Token.lexeme ++ lexemes) ↔
      Begins later lexemes := by
    intro lexemes
    simp only [Begins, List.append_assoc, residual]
  refine ⟨front ++ middle, rest, by simp, startsAt, ?_, ?_⟩
  · rw [List.map_append, begins]
    exact viable
  · rw [List.map_append, List.append_assoc, begins]
    exact stuck

theorem MisfitAt.cons {token : Token}
    (residual : ∀ rest, language (token.lexeme :: rest) ↔ later rest)
    (misfit : MisfitAt later tokens offset) : MisfitAt language (token :: tokens) offset := by
  rw [← List.singleton_append]
  exact misfit.behind residual

/-- Languages that agree on the sequences with the first lexeme of the tokens agree on where these
stop. -/
theorem MisfitAt.congr (inhabited : ∃ lexemes, language lexemes)
    (agree : ∀ rest, language ((nextToken tokens).lexeme :: rest) ↔
      later ((nextToken tokens).lexeme :: rest))
    (misfit : MisfitAt later tokens offset) : MisfitAt language tokens offset := by
  obtain ⟨front, rest, rfl, startsAt, viable, stuck⟩ := misfit
  have begins : ∀ lexemes,
      Begins language ((nextToken (front ++ rest)).lexeme :: lexemes) ↔
        Begins later ((nextToken (front ++ rest)).lexeme :: lexemes) := by
    intro lexemes
    simp only [Begins, List.cons_append, agree]
  refine ⟨front, rest, rfl, startsAt, ?_, ?_⟩
  · cases front with
    | nil => exact inhabited
    | cons token front => exact (begins _).2 viable
  · cases front with
    | nil => exact mt (begins []).1 stuck
    | cons token front => exact mt (begins _).1 stuck

end Languages

/-! ## Phrases before more -/

theorem then_inhabited {α : Type} {Phrase : List Lexeme → α → Prop}
    {later : List Lexeme → Prop} (phrase : ∃ lexemes value, Phrase lexemes value)
    (more : ∃ lexemes, later lexemes) : ∃ lexemes, Then Phrase later lexemes := by
  obtain ⟨front, value, valuePhrase⟩ := phrase
  obtain ⟨rest, member⟩ := more
  exact ⟨front ++ rest, front, rest, value, rfl, valuePhrase, member⟩

theorem step_inhabited (lexeme : Lexeme) {later : List Lexeme → Prop}
    (more : ∃ lexemes, later lexemes) : ∃ lexemes, Step (· = lexeme) later lexemes := by
  obtain ⟨rest, member⟩ := more
  exact ⟨lexeme :: rest, rfl, member⟩

/-- Where a reader takes every phrase of a kind, whatever follows it, no phrase of this kind goes on
behind another one. -/
theorem then_append_iff {α : Type} {Phrase : List Lexeme → α → Prop} {reader : Reader α}
    (reads : ∀ {front rest : List Token} {value : α}, Phrase (front.map Token.lexeme) value →
      reader (front ++ rest) = .ok (value, rest))
    {front : List Lexeme} {value : α} (phrase : Phrase front value)
    (later : List Lexeme → Prop) (rest : List Lexeme) :
    Then Phrase later (front ++ rest) ↔ later rest := by
  -- The reader does not look at positions, so any will do.
  let place : List Lexeme → List Token := List.map fun lexeme => ⟨lexeme, 0, 0⟩
  have lexemes_place : ∀ lexemes, (place lexemes).map Token.lexeme = lexemes := by
    intro lexemes
    simp [place, Function.comp_def]
  constructor
  · rintro ⟨other, otherRest, otherValue, equality, otherPhrase, member⟩
    have left : reader (place front ++ place rest) = .ok (value, place rest) :=
      reads (by rw [lexemes_place]; exact phrase)
    have right : reader (place other ++ place otherRest) = .ok (otherValue, place otherRest) :=
      reads (by rw [lexemes_place]; exact otherPhrase)
    have same : place front ++ place rest = place other ++ place otherRest := by
      simp only [place, ← List.map_append, equality]
    rw [same, right, Except.ok.injEq, Prod.mk.injEq] at left
    have sameRest := congrArg (List.map Token.lexeme) left.2
    rw [lexemes_place, lexemes_place] at sameRest
    rwa [← sameRest]
  · intro member
    exact ⟨front, rest, value, rfl, phrase, member⟩

theorem step_possible {fits : Lexeme → Prop} {later : List Lexeme → Prop}
    (possible : ∃ lexemes, Step fits later lexemes) : ∃ lexemes, later lexemes := by
  obtain ⟨lexemes, member⟩ := possible
  cases lexemes with
  | nil => exact False.elim member
  | cons lexeme rest => exact ⟨rest, member.2⟩

theorem then_possible {α : Type} {Phrase : List Lexeme → α → Prop} {later : List Lexeme → Prop}
    (possible : ∃ lexemes, Then Phrase later lexemes) : ∃ lexemes, later lexemes := by
  obtain ⟨_, _, rest, _, _, _, member⟩ := possible
  exact ⟨rest, member⟩

theorem termPhrase_inhabited : ∃ lexemes term, TermPhrase lexemes term := by
  have field : IsField "a" := isFieldName_iff.1 (by decide)
  have value : IsValue "" := by simp [IsValue]
  have trims : Text.Trims IsBlankChar "".toList "".toList :=
    ⟨[], [], rfl, by simp, by simp, by simp, by simp⟩
  exact ⟨_, ⟨"a", .equal, ""⟩, .term field value trims⟩

theorem nodePhrase_inhabited : ∃ lexemes node, NodePhrase lexemes node := by
  obtain ⟨lexemes, term, phrase⟩ := termPhrase_inhabited
  exact ⟨lexemes, .leaf term, .leaf phrase⟩

theorem then_term_eq (later : List Lexeme → Prop) :
    Then TermPhrase later =
      Step (· = .openParen) (Step (IsQuoted IsField) (Step (· = .comma)
        (Step (IsQuoted IsComparator) (Step (· = .comma) (Step (IsQuoted IsValue)
          (Step (· = .closeParen) later)))))) := by
  funext lexemes
  apply propext
  constructor
  · rintro ⟨front, rest, value, rfl, phrase, member⟩
    cases phrase with
    | @term field written held comparator fieldValid valueValid trims =>
        exact ⟨rfl, fieldValid, rfl, ⟨comparator, rfl⟩, rfl, valueValid, rfl, member⟩
  · intro member
    rcases lexemes with
      _ | ⟨lexeme1, _ | ⟨lexeme2, _ | ⟨lexeme3, _ | ⟨lexeme4, _ | ⟨lexeme5, _ | ⟨lexeme6,
        _ | ⟨lexeme7, rest⟩⟩⟩⟩⟩⟩⟩ <;> simp only [Step, and_false] at member
    obtain ⟨rfl, isField, rfl, isComparator, rfl, isValue, rfl, member⟩ := member
    cases lexeme2 with
    | quoted field =>
        cases lexeme4 with
        | quoted comparatorText =>
            cases lexeme6 with
            | quoted written =>
                obtain ⟨comparator, rfl⟩ := isComparator
                have trims := (trim_eq_iff isValue).1 rfl
                exact ⟨_, rest, _, rfl, .term isField isValue trims, member⟩
            | _ => exact False.elim isValue
        | _ => exact False.elim isComparator
    | _ => exact False.elim isField

theorem step_iff {fits : Lexeme → Prop} {later : List Lexeme → Prop} {lexemes : List Lexeme} :
    Step fits later lexemes ↔
      ∃ lexeme rest, lexemes = lexeme :: rest ∧ fits lexeme ∧ later rest := by
  cases lexemes <;> simp [Step]

/-- A connective and its operands before more. -/
def ConnectiveThen (later : List Lexeme → Prop) : List Lexeme → Prop :=
  Step (· = .comma) (Then TermPhrase (Step (· = .comma) (Then TermPhrase later)))

/-- A negation's operand before more. -/
def OperandThen (later : List Lexeme → Prop) : List Lexeme → Prop :=
  Step (· = .comma) (Then TermPhrase later)

theorem then_node_iff {later : List Lexeme → Prop} {lexemes : List Lexeme} :
    Then NodePhrase later lexemes ↔
      Then TermPhrase later lexemes ∨
        (∃ connective : Connective,
          Step (· = .quoted connective.text) (ConnectiveThen later) lexemes) ∨
        Step (· = .quoted "!") (OperandThen later) lexemes := by
  constructor
  · rintro ⟨front, rest, value, rfl, phrase, member⟩
    cases phrase with
    | leaf termPhrase => exact Or.inl ⟨front, rest, _, rfl, termPhrase, member⟩
    | @binary first second connective left right firstPhrase secondPhrase =>
        have operands : Then TermPhrase (Step (· = .comma) (Then TermPhrase later))
            (first ++ .comma :: (second ++ rest)) :=
          ⟨first, _, left, rfl, firstPhrase, rfl, second, rest, right, rfl, secondPhrase, member⟩
        refine Or.inr (Or.inl ⟨connective, rfl, rfl, ?_⟩)
        simpa using operands
    | @negation written operand termPhrase =>
        exact Or.inr (Or.inr ⟨rfl, rfl, written, rest, operand, rfl, termPhrase, member⟩)
  · rintro (⟨front, rest, value, rfl, phrase, member⟩ | ⟨connective, member⟩ | member)
    · exact ⟨front, rest, .leaf value, rfl, .leaf phrase, member⟩
    · obtain ⟨_, _, rfl, rfl, operands⟩ := step_iff.1 member
      obtain ⟨_, _, rfl, rfl, first, _, left, rfl, firstPhrase, separated⟩ := step_iff.1 operands
      obtain ⟨_, _, rfl, rfl, second, rest, right, rfl, secondPhrase, member⟩ :=
        step_iff.1 separated
      exact ⟨_, rest, .binary connective left right, by simp, .binary firstPhrase secondPhrase,
        member⟩
    · obtain ⟨_, _, rfl, rfl, operand⟩ := step_iff.1 member
      obtain ⟨_, _, rfl, rfl, first, rest, value, rfl, phrase, member⟩ := step_iff.1 operand
      exact ⟨_, rest, .negation value, rfl, .negation phrase, member⟩

theorem then_nodes_iff {later : List Lexeme → Prop} {lexemes : List Lexeme} :
    Then NodesPhrase later lexemes ↔
      later lexemes ∨
        Step (· = .comma) (Then NodePhrase (Then NodesPhrase later)) lexemes := by
  constructor
  · rintro ⟨front, rest, value, rfl, phrase, member⟩
    cases phrase with
    | none => exact Or.inl member
    | @more first others node nodes firstPhrase othersPhrase =>
        refine Or.inr ⟨rfl, first, others ++ rest, node, List.append_assoc _ _ _, firstPhrase, ?_⟩
        exact ⟨others, rest, nodes, rfl, othersPhrase, member⟩
  · rintro (member | member)
    · exact ⟨[], lexemes, [], rfl, .none, member⟩
    · obtain ⟨_, _, rfl, rfl, first, _, node, rfl, firstPhrase, others, rest, nodes, rfl,
        othersPhrase, member⟩ := step_iff.1 member
      exact ⟨_, rest, _, by simp, .more firstPhrase othersPhrase, member⟩

/-- Nodes in brackets before more, without the opening bracket. -/
def ListThen (later : List Lexeme → Prop) : List Lexeme → Prop :=
  Then TermPhrase (Then NodesPhrase (Step (· = .closeBracket) later))

theorem then_filter_iff {later : List Lexeme → Prop} {lexemes : List Lexeme} :
    Then FilterPhrase later lexemes ↔
      later lexemes ∨ Then TermPhrase later lexemes ∨
        Step (· = .openBracket) (ListThen later) lexemes := by
  constructor
  · rintro ⟨front, rest, value, rfl, phrase, member⟩
    cases phrase with
    | nothing => exact Or.inl member
    | bare termPhrase => exact Or.inr (Or.inl ⟨front, rest, _, rfl, termPhrase, member⟩)
    | @list first others term nodes firstPhrase othersPhrase =>
        have inside : ListThen later (first ++ (others ++ .closeBracket :: rest)) :=
          ⟨first, _, term, rfl, firstPhrase, others, _, nodes, rfl, othersPhrase, rfl, member⟩
        refine Or.inr (Or.inr ⟨rfl, ?_⟩)
        simpa using inside
  · rintro (member | ⟨front, rest, value, rfl, phrase, member⟩ | member)
    · exact ⟨[], lexemes, empty, rfl, .nothing, member⟩
    · exact ⟨front, rest, ofTerm value, rfl, .bare phrase, member⟩
    · obtain ⟨_, _, rfl, rfl, first, _, term, rfl, firstPhrase, others, _, nodes, rfl,
        othersPhrase, closed⟩ := step_iff.1 member
      obtain ⟨_, rest, rfl, rfl, behind⟩ := step_iff.1 closed
      exact ⟨_, rest, _, by simp, .list firstPhrase othersPhrase, behind⟩

/-! ## Failing steps -/

theorem eq_error_of_bind {ε α β : Type} {step : Except ε α} {next : α → Except ε β}
    {failure : ε} (failed : step >>= next = .error failure)
    (total : ∀ value, next value ≠ .error failure) : step = .error failure := by
  rcases bind_eq_error_iff.1 failed with refused | ⟨value, _, failedLater⟩
  · exact refused
  · exact absurd failedLater (total value)

section Steps

variable {later : List Lexeme → Prop} {tokens : List Token} {error : SyntaxError}

theorem misfitAt_of_expect {lexeme : Lexeme} {wanted : Expected} {β : Type}
    {next : List Token → Except SyntaxError β} (inText : lexeme ≠ .endOfText)
    (possible : ∃ lexemes, Step (· = lexeme) later lexemes)
    (failed : expect lexeme wanted tokens >>= next = .error error)
    (behind : (∃ lexemes, later lexemes) → ∀ rest, next rest = .error error →
      MisfitAt later rest error.offset) :
    MisfitAt (Step (· = lexeme) later) tokens error.offset := by
  have here : (nextToken tokens).lexeme ≠ lexeme →
      MisfitAt (Step (· = lexeme) later) tokens (nextToken tokens).start :=
    fun different => misfitAt_here possible fun _ member => different member.1
  rcases bind_eq_error_iff.1 failed with refused | ⟨rest, read, failedLater⟩
  · cases tokens with
    | nil =>
        cases refused
        exact here (Ne.symm inText)
    | cons token tail =>
        rw [expect] at refused
        split at refused
        · cases refused
        · next different =>
            cases refused
            exact here different
  · obtain ⟨token, rfl, rfl⟩ := expect_eq_ok_iff.1 read
    have misfit := behind (step_possible possible) rest failedLater
    exact misfit.cons fun _ => ⟨And.right, fun member => ⟨rfl, member⟩⟩

/-- A quoted text is read first and checked afterwards. -/
theorem misfitAt_of_expectQuoted {valid : String → Prop} {wanted : Expected} {β : Type}
    {next : (Nat × String) × List Token → Except SyntaxError β}
    (possible : ∃ lexemes, Step (IsQuoted valid) later lexemes)
    (failed : expectQuoted wanted tokens >>= next = .error error)
    (behind : (∃ lexemes, later lexemes) → ∀ start text rest,
      next ((start, text), rest) = .error error →
        (¬ valid text ∧ error.offset = start) ∨
          (valid text ∧ MisfitAt later rest error.offset)) :
    MisfitAt (Step (IsQuoted valid) later) tokens error.offset := by
  have here : ¬ IsQuoted valid (nextToken tokens).lexeme →
      MisfitAt (Step (IsQuoted valid) later) tokens (nextToken tokens).start :=
    fun misfit => misfitAt_here possible fun _ member => misfit member.1
  rcases bind_eq_error_iff.1 failed with refused | ⟨⟨⟨start, text⟩, rest⟩, read, failedLater⟩
  · cases tokens with
    | nil =>
        cases refused
        exact here id
    | cons token tail =>
        rw [expectQuoted] at refused
        split at refused
        · cases refused
        · next unquoted =>
            cases refused
            refine here ?_
            cases lexeme : token.lexeme with
            | quoted text => exact absurd lexeme (unquoted text)
            | _ => simp [nextToken, lexeme, IsQuoted]
  · obtain ⟨token, rfl, lexeme, rfl⟩ := expectQuoted_eq_ok_iff.1 read
    rcases behind (step_possible possible) _ _ _ failedLater with
      ⟨invalid, startsAt⟩ | ⟨isValid, misfit⟩
    · rw [startsAt]
      refine here ?_
      simpa [nextToken, lexeme, IsQuoted] using invalid
    · refine misfit.cons fun rest => ?_
      rw [lexeme]
      exact ⟨And.right, fun member => ⟨isValid, member⟩⟩

theorem require_eq_error {condition : Bool} {offset : Nat} {cause : Cause}
    (failed : require condition offset cause = .error error) :
    condition = false ∧ error.offset = offset := by
  cases condition with
  | true => cases failed
  | false =>
      cases failed
      exact ⟨rfl, rfl⟩

theorem comparatorAt_eq_error {offset : Nat} {text : String}
    (failed : comparatorAt offset text = .error error) :
    ¬ IsComparator text ∧ error.offset = offset := by
  constructor
  · rintro ⟨comparator, rfl⟩
    rw [comparatorAt_eq_ok_iff.2 rfl] at failed
    cases failed
  · rw [comparatorAt] at failed
    split at failed
    · cases failed
    · cases failed
      rfl

end Steps

/-! ## Failing readers -/

section Readers

variable {later : List Lexeme → Prop} {tokens : List Token} {error : SyntaxError} {β : Type}

theorem misfitAt_of_term_error (possible : ∃ lexemes, Then TermPhrase later lexemes)
    (failed : term tokens = .error error) :
    MisfitAt (Then TermPhrase later) tokens error.offset := by
  rw [then_term_eq] at possible ⊢
  refine misfitAt_of_expect (by decide) possible failed fun possible tokens failed => ?_
  refine misfitAt_of_expectQuoted possible failed fun possible start field tokens failed => ?_
  rcases bind_eq_error_iff.1 failed with refused | ⟨_, checked, failed⟩
  · obtain ⟨invalid, startsAt⟩ := require_eq_error refused
    exact Or.inl ⟨fun valid => by simp [isFieldName_iff.2 valid] at invalid, startsAt⟩
  refine Or.inr ⟨isFieldName_iff.1 (require_eq_ok_iff.1 checked), ?_⟩
  refine misfitAt_of_expect (by decide) possible failed fun possible tokens failed => ?_
  refine misfitAt_of_expectQuoted possible failed fun possible start text tokens failed => ?_
  rcases bind_eq_error_iff.1 failed with refused | ⟨comparator, checked, failed⟩
  · exact Or.inl (comparatorAt_eq_error refused)
  refine Or.inr ⟨⟨comparator, comparatorAt_eq_ok_iff.1 checked⟩, ?_⟩
  refine misfitAt_of_expect (by decide) possible failed fun possible tokens failed => ?_
  refine misfitAt_of_expectQuoted possible failed fun possible start value tokens failed => ?_
  rcases bind_eq_error_iff.1 failed with refused | ⟨_, checked, failed⟩
  · obtain ⟨invalid, startsAt⟩ := require_eq_error refused
    exact Or.inl ⟨fun valid => by simp [isValueText_iff.2 valid] at invalid, startsAt⟩
  refine Or.inr ⟨isValueText_iff.1 (require_eq_ok_iff.1 checked), ?_⟩
  refine misfitAt_of_expect (by decide) possible failed fun _ _ failed => ?_
  cases failed

/-- A phrase is read first; behind it the language goes on. -/
theorem misfitAt_of_bind {α : Type} {Phrase : List Lexeme → α → Prop} {reader : Reader α}
    (reads : ∀ {tokens rest : List Token} {value : α}, reader tokens = .ok (value, rest) ↔
      ∃ front, tokens = front ++ rest ∧ Phrase (front.map Token.lexeme) value)
    {next : α × List Token → Except SyntaxError β}
    (stops : reader tokens = .error error → MisfitAt (Then Phrase later) tokens error.offset)
    (failed : reader tokens >>= next = .error error)
    (behind : ∀ value rest, reader tokens = .ok (value, rest) → next (value, rest) = .error error →
      MisfitAt later rest error.offset) :
    MisfitAt (Then Phrase later) tokens error.offset := by
  rcases bind_eq_error_iff.1 failed with refused | ⟨⟨value, rest⟩, run, failedLater⟩
  · exact stops refused
  · have misfit := behind value rest run failedLater
    obtain ⟨front, rfl, phrase⟩ := reads.1 run
    have takes : ∀ {front rest : List Token} {value : α},
        Phrase (front.map Token.lexeme) value → reader (front ++ rest) = .ok (value, rest) :=
      fun phrase => reads.2 ⟨_, rfl, phrase⟩
    exact misfit.behind (then_append_iff takes phrase later)

theorem misfitAt_of_term {next : Term × List Token → Except SyntaxError β}
    (possible : ∃ lexemes, Then TermPhrase later lexemes)
    (failed : term tokens >>= next = .error error)
    (behind : (∃ lexemes, later lexemes) → ∀ read rest, next (read, rest) = .error error →
      MisfitAt later rest error.offset) :
    MisfitAt (Then TermPhrase later) tokens error.offset :=
  misfitAt_of_bind term_eq_ok_iff (misfitAt_of_term_error possible) failed
    fun read rest _ => behind (then_possible possible) read rest

theorem misfitAt_of_operands_error (possible : ∃ lexemes, ConnectiveThen later lexemes)
    (failed : operands tokens = .error error) :
    MisfitAt (ConnectiveThen later) tokens error.offset := by
  refine misfitAt_of_expect (by decide) possible failed fun possible tokens failed => ?_
  refine misfitAt_of_term possible failed fun possible left tokens failed => ?_
  refine misfitAt_of_expect (by decide) possible failed fun possible tokens failed => ?_
  refine misfitAt_of_term possible failed fun possible right rest failed => ?_
  cases failed

theorem misfitAt_of_operand_error (possible : ∃ lexemes, OperandThen later lexemes)
    (failed : operand tokens = .error error) :
    MisfitAt (OperandThen later) tokens error.offset := by
  refine misfitAt_of_expect (by decide) possible failed fun possible tokens failed => ?_
  exact misfitAt_of_term_error possible failed

/-- Nothing but the lexemes that begin a node stands before a node. -/
theorem then_node_of_openParen (rest : List Lexeme) :
    Then NodePhrase later (.openParen :: rest) ↔ Then TermPhrase later (.openParen :: rest) := by
  simp [then_node_iff, Step]

theorem then_node_of_connective (connective : Connective) (rest : List Lexeme) :
    Then NodePhrase later (.quoted connective.text :: rest) ↔ ConnectiveThen later rest := by
  have noTerm : ¬ Then TermPhrase later (.quoted connective.text :: rest) := by
    rw [then_term_eq]
    exact fun member => Lexeme.noConfusion member.1
  have noNegation : connective.text ≠ "!" := by
    cases connective <;> decide
  have injective : ∀ other : Connective, connective.text = other.text ↔ other = connective := by
    intro other
    cases connective <;> cases other <;> decide
  simp [then_node_iff, Step, noTerm, noNegation, injective]

theorem then_node_of_negation (rest : List Lexeme) :
    Then NodePhrase later (.quoted "!" :: rest) ↔ OperandThen later rest := by
  have noTerm : ¬ Then TermPhrase later (.quoted "!" :: rest) := by
    rw [then_term_eq]
    exact fun member => Lexeme.noConfusion member.1
  have noConnective : ∀ connective : Connective, "!" ≠ connective.text := by
    intro connective
    cases connective <;> decide
  simp [then_node_iff, Step, noTerm, noConnective]

theorem first_of_then_node {lexeme : Lexeme} {rest : List Lexeme}
    (member : Then NodePhrase later (lexeme :: rest)) :
    lexeme = .openParen ∨ (∃ connective : Connective, lexeme = .quoted connective.text) ∨
      lexeme = .quoted "!" := by
  rcases then_node_iff.1 member with termMember | ⟨connective, same, -⟩ | ⟨same, -⟩
  · rw [then_term_eq] at termMember
    exact Or.inl termMember.1
  · exact Or.inr (Or.inl ⟨connective, same⟩)
  · exact Or.inr (Or.inr same)

theorem then_term_possible (more : ∃ lexemes, later lexemes) :
    ∃ lexemes, Then TermPhrase later lexemes :=
  then_inhabited termPhrase_inhabited more

theorem operandThen_possible (more : ∃ lexemes, later lexemes) :
    ∃ lexemes, OperandThen later lexemes :=
  step_inhabited .comma (then_term_possible more)

theorem connectiveThen_possible (more : ∃ lexemes, later lexemes) :
    ∃ lexemes, ConnectiveThen later lexemes :=
  step_inhabited .comma (then_term_possible (operandThen_possible more))

theorem misfitAt_of_node_error (possible : ∃ lexemes, Then NodePhrase later lexemes)
    (failed : node tokens = .error error) :
    MisfitAt (Then NodePhrase later) tokens error.offset := by
  have more := then_possible possible
  cases tokens with
  | nil =>
      cases failed
      refine misfitAt_here possible fun rest member => ?_
      simpa [nextToken] using first_of_then_node member
  | cons token tail =>
      rw [node] at failed
      split at failed
      · next mark lexeme =>
          split at failed
          · next connective found =>
              have refused : operands tail = .error error :=
                eq_error_of_bind failed fun _ same => by cases same
              have misfit := misfitAt_of_operands_error (connectiveThen_possible more) refused
              refine misfit.cons fun rest => ?_
              rw [lexeme, connective_ofText?_eq_some_iff.1 found]
              exact then_node_of_connective connective rest
          · next noConnective =>
              split at failed
              · next isNegation =>
                  have refused : operand tail = .error error :=
                    eq_error_of_bind failed fun _ same => by cases same
                  have misfit := misfitAt_of_operand_error (operandThen_possible more) refused
                  refine misfit.cons fun rest => ?_
                  rw [lexeme, isNegation]
                  exact then_node_of_negation rest
              · next noNegation =>
                  cases failed
                  refine misfitAt_here possible fun rest member => ?_
                  rcases first_of_then_node member with paren | ⟨connective, same⟩ | same
                  · rw [nextToken, lexeme] at paren
                    cases paren
                  · rw [nextToken, lexeme, Lexeme.quoted.injEq] at same
                    rw [connective_ofText?_eq_some_iff.2 same] at noConnective
                    cases noConnective
                  · rw [nextToken, lexeme, Lexeme.quoted.injEq] at same
                    exact noNegation same
      · next lexeme =>
          have refused : term (token :: tail) = .error error :=
            eq_error_of_bind failed fun _ same => by cases same
          refine (misfitAt_of_term_error (then_term_possible more) refused).congr possible ?_
          intro rest
          rw [nextToken, lexeme]
          exact then_node_of_openParen rest
      · next notQuoted notParen =>
          cases failed
          refine misfitAt_here possible fun rest member => ?_
          rcases first_of_then_node member with paren | ⟨connective, same⟩ | same
          · exact notParen paren
          · exact notQuoted _ same
          · exact notQuoted _ same

theorem moreNodes_comma {comma : Token} (lexeme : comma.lexeme = .comma) (tail : List Token) :
    moreNodes (comma :: tail) = node tail >>= fun (first, rest) =>
      moreNodes rest >>= fun (nodes, rest) => .ok (first :: nodes, rest) := by
  rw [moreNodes, if_pos lexeme]
  split
  · next refused =>
      rw [refused]
      rfl
  · next first rest found =>
      rw [found]
      change _ = moreNodes rest >>= _
      cases moreNodes rest <;> rfl

theorem then_nodes_of_comma (noComma : ∀ rest, ¬ later (.comma :: rest)) (rest : List Lexeme) :
    Then NodesPhrase later (.comma :: rest) ↔ Then NodePhrase (Then NodesPhrase later) rest := by
  rw [then_nodes_iff]
  simp [Step, noComma]

theorem misfitAt_of_moreNodes {next : List Node × List Token → Except SyntaxError β}
    (possible : ∃ lexemes, later lexemes) (noComma : ∀ rest, ¬ later (.comma :: rest))
    (failed : moreNodes tokens >>= next = .error error)
    (behind : ∀ nodes rest, next (nodes, rest) = .error error →
      MisfitAt later rest error.offset) :
    MisfitAt (Then NodesPhrase later) tokens error.offset := by
  have possibleNodes : ∃ lexemes, Then NodesPhrase later lexemes :=
    then_inhabited ⟨[], [], .none⟩ possible
  -- Every node takes tokens, and what is done behind the nodes depends on those read before.
  induction length : tokens.length using Nat.strongRecOn generalizing tokens next with
  | ind count inductionHypothesis =>
      by_cases comma : (nextToken tokens).lexeme = .comma
      · cases tokens with
        | nil => cases comma
        | cons token tail =>
            have commaLexeme : token.lexeme = .comma := comma
            rw [moreNodes_comma commaLexeme, bind_assoc] at failed
            have misfit : MisfitAt (Then NodePhrase (Then NodesPhrase later)) tail
                error.offset := by
              have possibleNode := then_inhabited nodePhrase_inhabited possibleNodes
              refine misfitAt_of_bind node_eq_ok_iff (misfitAt_of_node_error possibleNode) failed ?_
              intro first rest run failedLater
              have shorter : rest.length < count := by
                have less := node_length run
                rw [List.length_cons] at length
                omega
              dsimp only at failedLater
              rw [bind_assoc] at failedLater
              refine inductionHypothesis rest.length shorter failedLater ?_ rfl
              intro nodes rest failedBehind
              exact behind (first :: nodes) rest failedBehind
            refine misfit.cons fun rest => ?_
            rw [commaLexeme]
            exact then_nodes_of_comma noComma rest
      · rw [moreNodes_of_no_comma comma] at failed
        refine (behind [] tokens failed).congr possibleNodes fun rest => ?_
        rw [then_nodes_iff]
        simp [Step, comma]

/-! ## Filters -/

theorem misfitAt_of_expectEnd (failed : expectEnd tokens = .error error) :
    MisfitAt AtEnd tokens error.offset := by
  have possible : ∃ lexemes, AtEnd lexemes := ⟨[.endOfText], rfl, rfl⟩
  rw [expectEnd] at failed
  split at failed
  · cases failed
  · next notEnd =>
      cases failed
      refine misfitAt_here possible fun rest member => ?_
      exact notEnd member.1

theorem listThen_possible (more : ∃ lexemes, later lexemes) :
    ∃ lexemes, ListThen later lexemes := by
  have closed := step_inhabited .closeBracket more
  exact then_term_possible (then_inhabited ⟨[], [], .none⟩ closed)

theorem misfitAt_of_nodeList {next : List Node × List Token → Except SyntaxError β}
    (possible : ∃ lexemes, later lexemes) (failed : nodeList tokens >>= next = .error error)
    (behind : ∀ nodes rest, next (nodes, rest) = .error error →
      MisfitAt later rest error.offset) :
    MisfitAt (Step (· = .openBracket) (ListThen later)) tokens error.offset := by
  have possibleList := listThen_possible possible
  rw [nodeList, bind_assoc] at failed
  refine misfitAt_of_expect (by decide) (step_inhabited .openBracket possibleList) failed ?_
  intro _ tokens failed
  split at failed
  · simp only [bind_assoc] at failed
    refine misfitAt_of_term possibleList failed fun _ first tokens failed => ?_
    have closed : ∃ lexemes, Step (· = .closeBracket) later lexemes :=
      step_inhabited .closeBracket possible
    refine misfitAt_of_moreNodes closed (fun _ member => Lexeme.noConfusion member.1) failed ?_
    intro nodes tokens failed
    refine misfitAt_of_expect (by decide) closed failed fun _ rest failed => ?_
    exact behind (.leaf first :: nodes) rest failed
  · next notParen =>
      cases failed
      refine misfitAt_here possibleList fun rest member => ?_
      rw [ListThen, then_term_eq] at member
      exact notParen member.1

/-- Where the tokens of a whole text are no filter, the lexemes before the reported token begin a
filter, and with this token they begin none. -/
theorem misfitAt_of_filter
    (failed : (filter tokens >>= fun found => expectEnd found.2 >>= fun _ => .ok found.1) =
      .error error) :
    MisfitAt (Then FilterPhrase AtEnd) tokens error.offset := by
  have possibleEnd : ∃ lexemes, AtEnd lexemes := ⟨[.endOfText], rfl, rfl⟩
  have possible : ∃ lexemes, Then FilterPhrase AtEnd lexemes :=
    then_inhabited ⟨[], empty, .nothing⟩ possibleEnd
  have finish : ∀ (read : Filter) (rest : List Token),
      (expectEnd rest >>= fun _ => .ok read) = .error error →
        MisfitAt AtEnd rest error.offset := by
    intro read rest failed
    exact misfitAt_of_expectEnd (eq_error_of_bind failed fun _ same => by cases same)
  rw [filter] at failed
  split at failed
  · next atEnd =>
      have refused : expectEnd tokens = .error error :=
        eq_error_of_bind failed fun _ same => by cases same
      rw [expectEnd_eq_ok_iff.2 atEnd] at refused
      cases refused
  · next lexeme =>
      rw [bind_assoc] at failed
      have misfit : MisfitAt (Then TermPhrase AtEnd) tokens error.offset :=
        misfitAt_of_term (then_term_possible possibleEnd) failed fun _ read rest failed =>
          finish (ofTerm read) rest failed
      refine misfit.congr possible fun rest => ?_
      rw [lexeme, then_filter_iff]
      simp [AtEnd, Step]
  · next lexeme =>
      rw [bind_assoc] at failed
      have misfit : MisfitAt (Step (· = .openBracket) (ListThen AtEnd)) tokens error.offset :=
        misfitAt_of_nodeList possibleEnd failed fun nodes rest failed =>
          finish ⟨nodes⟩ rest failed
      refine misfit.congr possible fun rest => ?_
      rw [lexeme, then_filter_iff, then_term_eq]
      simp [AtEnd, Step]
  · next notEnd notParen notBracket =>
      cases failed
      refine misfitAt_here possible fun rest member => ?_
      rcases then_filter_iff.1 member with endMember | termMember | listMember
      · exact notEnd endMember.1
      · rw [then_term_eq] at termMember
        exact notParen termMember.1
      · exact notBracket listMember.1

end Readers

end RemoteRecords.Filter
