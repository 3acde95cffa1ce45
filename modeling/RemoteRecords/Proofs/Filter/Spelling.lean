import RemoteRecords.Filter.Token
import RemoteRecords.Proofs.Except

/-!
# Spellings of filter texts

A filter text is a sequence of lexemes with gaps between them. `Spells` says which characters write
which lexemes; `Covers` says the same together with the byte positions of the tokens and admits gaps
at either end. `tokensFrom_eq_ok_iff` shows that the tokens read from some characters are the ones
that cover them; `spells_of_tokenize` and `Spells.tokenize` that a text is tokenized exactly when it
spells lexemes.
-/

namespace RemoteRecords.Filter

/-! ## Written lexemes -/

/-- The characters that write a lexeme. -/
def Lexeme.spelling : Lexeme → List Char
  | .openBracket => ['[']
  | .closeBracket => [']']
  | .openParen => ['(']
  | .closeParen => [')']
  | .comma => [',']
  | .quoted text => '\'' :: (text.toList ++ ['\''])
  | .endOfText => []

/-- A lexeme that characters can write: a quoted text has no quote inside, and nothing writes the
end of the text. -/
def Lexeme.Written : Lexeme → Prop
  | .quoted text => '\'' ∉ text.toList
  | .endOfText => False
  | _ => True

/-- A run of spaces, tabs, carriage returns and line feeds. -/
def IsGap (chars : List Char) : Prop :=
  ∀ c ∈ chars, c = ' ' ∨ c = '\t' ∨ c = '\r' ∨ c = '\n'

/-- The characters write the lexemes in order. A gap may stand between two of them, but neither
before the first nor after the last. -/
inductive Spells : List Char → List Lexeme → Prop
  | nothing : Spells [] []
  | last {lexeme : Lexeme} :
      lexeme.Written → Spells lexeme.spelling [lexeme]
  | next {lexeme following : Lexeme} {lexemes : List Lexeme} {gap chars : List Char} :
      lexeme.Written → IsGap gap → Spells chars (following :: lexemes) →
      Spells (lexeme.spelling ++ (gap ++ chars)) (lexeme :: following :: lexemes)

/-- The tokens lie one behind the other in the characters, the first of which stands at byte
`offset`; all between them are gaps, and the end of the text comes last. -/
inductive Covers : Nat → List Char → List Token → Prop
  | finish {offset : Nat} {gap : List Char} :
      IsGap gap →
      Covers offset gap [⟨.endOfText, offset + byteCount gap, offset + byteCount gap⟩]
  | token {offset start stop : Nat} {gap chars : List Char} {lexeme : Lexeme}
      {tokens : List Token} :
      IsGap gap → lexeme.Written → start = offset + byteCount gap →
      stop = start + byteCount lexeme.spelling → Covers stop chars tokens →
      Covers offset (gap ++ (lexeme.spelling ++ chars)) (⟨lexeme, start, stop⟩ :: tokens)

theorem isLayout_iff {c : Char} :
    Text.isLayout c = true ↔ c = ' ' ∨ c = '\t' ∨ c = '\r' ∨ c = '\n' := by
  simp [Text.isLayout, or_assoc]

theorem IsGap.nil : IsGap [] := by
  simp [IsGap]

theorem isGap_cons {c : Char} {gap : List Char} :
    IsGap (c :: gap) ↔ Text.isLayout c = true ∧ IsGap gap := by
  simp [IsGap, isLayout_iff]

theorem byteCount_append (left right : List Char) :
    byteCount (left ++ right) = byteCount left + byteCount right := by
  induction left with
  | nil => simp [byteCount]
  | cons c rest inductionHypothesis =>
      simp only [List.cons_append, byteCount, inductionHypothesis]
      omega

/-! ## Lexemes at the ends of a text -/

/-- A written lexeme neither begins nor ends with layout. -/
theorem Lexeme.Written.spelling_ends {lexeme : Lexeme} (written : lexeme.Written) :
    (∃ c rest, lexeme.spelling = c :: rest ∧ Text.isLayout c = false) ∧
      ∃ rest c, lexeme.spelling = rest ++ [c] ∧ Text.isLayout c = false := by
  cases lexeme with
  | quoted text =>
      exact ⟨⟨'\'', _, rfl, by decide⟩, ⟨'\'' :: text.toList, '\'', rfl, by decide⟩⟩
  | endOfText => exact False.elim written
  | openBracket => exact ⟨⟨_, _, rfl, by decide⟩, ⟨[], _, rfl, by decide⟩⟩
  | closeBracket => exact ⟨⟨_, _, rfl, by decide⟩, ⟨[], _, rfl, by decide⟩⟩
  | openParen => exact ⟨⟨_, _, rfl, by decide⟩, ⟨[], _, rfl, by decide⟩⟩
  | closeParen => exact ⟨⟨_, _, rfl, by decide⟩, ⟨[], _, rfl, by decide⟩⟩
  | comma => exact ⟨⟨_, _, rfl, by decide⟩, ⟨[], _, rfl, by decide⟩⟩

/-- Whether the first character is layout. -/
def beginsBlank (chars : List Char) : Bool := chars.head?.any Text.isLayout

theorem beginsBlank_append_of_ne_nil {left : List Char} (nonempty : left ≠ [])
    (right : List Char) : beginsBlank (left ++ right) = beginsBlank left := by
  cases left with
  | nil => exact absurd rfl nonempty
  | cons c rest => rfl

theorem endsBlank_append_of_ne_nil (left : List Char) {right : List Char}
    (nonempty : right ≠ []) : endsBlank (left ++ right) = endsBlank right := by
  obtain ⟨c, final⟩ := Option.ne_none_iff_exists'.1 (mt List.getLast?_eq_none_iff.1 nonempty)
  simp [endsBlank, final]

theorem endsBlank_concat (chars : List Char) (c : Char) :
    endsBlank (chars ++ [c]) = Text.isLayout c := by
  simp [endsBlank]

theorem endsBlank_spelling {lexeme : Lexeme} (written : lexeme.Written) :
    endsBlank lexeme.spelling = false := by
  obtain ⟨-, rest, c, spelling, plain⟩ := written.spelling_ends
  rw [spelling, endsBlank_concat, plain]

theorem Lexeme.Written.spelling_ne_nil {lexeme : Lexeme} (written : lexeme.Written) :
    lexeme.spelling ≠ [] := by
  obtain ⟨⟨c, rest, spelling, -⟩, -⟩ := written.spelling_ends
  simp [spelling]

theorem beginsBlank_spelling {lexeme : Lexeme} (written : lexeme.Written) :
    beginsBlank lexeme.spelling = false := by
  obtain ⟨⟨c, rest, spelling, plain⟩, -⟩ := written.spelling_ends
  simp [spelling, beginsBlank, plain]

theorem IsGap.eq_nil_of_endsBlank {gap : List Char} (blank : IsGap gap)
    (plain : endsBlank gap = false) : gap = [] := by
  rcases List.eq_nil_or_concat gap with empty | ⟨rest, c, equality⟩
  · exact empty
  · rw [List.concat_eq_append] at equality
    have layout : Text.isLayout c = true :=
      isLayout_iff.2 (blank c (by simp [equality]))
    rw [equality, endsBlank_concat, layout] at plain
    cases plain

theorem Spells.chars_eq_nil {chars : List Char} (spells : Spells chars []) : chars = [] := by
  cases spells
  rfl

theorem Spells.ne_nil {chars : List Char} {lexeme : Lexeme} {lexemes : List Lexeme}
    (spells : Spells chars (lexeme :: lexemes)) : chars ≠ [] := by
  cases spells with
  | last written => exact written.spelling_ne_nil
  | next written _ _ => simp [written.spelling_ne_nil]

/-- What spells lexemes neither begins nor ends with layout. -/
theorem Spells.plain_ends {chars : List Char} {lexemes : List Lexeme}
    (spells : Spells chars lexemes) :
    beginsBlank chars = false ∧ endsBlank chars = false := by
  induction spells with
  | nothing => exact ⟨rfl, rfl⟩
  | last written => exact ⟨beginsBlank_spelling written, endsBlank_spelling written⟩
  | next written blank rest inductionHypothesis =>
      constructor
      · rw [beginsBlank_append_of_ne_nil written.spelling_ne_nil]
        exact beginsBlank_spelling written
      · rw [← List.append_assoc, endsBlank_append_of_ne_nil _ rest.ne_nil]
        exact inductionHypothesis.2

theorem Spells.written {chars : List Char} {lexemes : List Lexeme}
    (spells : Spells chars lexemes) : ∀ lexeme ∈ lexemes, lexeme.Written := by
  induction spells with
  | nothing => simp
  | last written => simpa using written
  | next written _ _ inductionHypothesis =>
      intro lexeme member
      rcases List.mem_cons.1 member with rfl | later
      · exact written
      · exact inductionHypothesis lexeme later

/-- The characters that write lexemes one behind the other. -/
def spellings (lexemes : List Lexeme) : List Char := lexemes.flatMap Lexeme.spelling

theorem spells_spellings {lexemes : List Lexeme}
    (written : ∀ lexeme ∈ lexemes, lexeme.Written) : Spells (spellings lexemes) lexemes := by
  induction lexemes with
  | nil => exact .nothing
  | cons lexeme lexemes inductionHypothesis =>
      have first : lexeme.Written := written lexeme List.mem_cons_self
      have later := inductionHypothesis
        fun other member => written other (List.mem_cons_of_mem _ member)
      cases lexemes with
      | nil =>
          have alone : spellings [lexeme] = lexeme.spelling := List.append_nil _
          rw [alone]
          exact .last first
      | cons following lexemes => exact @Spells.next _ _ _ [] _ first IsGap.nil later

theorem spellings_append (left right : List Lexeme) :
    spellings (left ++ right) = spellings left ++ spellings right := List.flatMap_append

theorem spellings_cons (lexeme : Lexeme) (lexemes : List Lexeme) :
    spellings (lexeme :: lexemes) = lexeme.spelling ++ spellings lexemes := List.flatMap_cons

/-! ## The tokens of covered characters -/

theorem splitQuote_append {body : List Char} (plain : '\'' ∉ body) (rest : List Char) :
    splitQuote (body ++ '\'' :: rest) = some (body, rest) := by
  induction body with
  | nil => simp [splitQuote]
  | cons c body inductionHypothesis =>
      have different : c ≠ '\'' := fun same => plain (by simp [same])
      have later : '\'' ∉ body := fun member => plain (by simp [member])
      simp [splitQuote, different, inductionHypothesis later]

theorem eq_append_of_splitQuote {chars body rest : List Char}
    (split : splitQuote chars = some (body, rest)) :
    chars = body ++ '\'' :: rest ∧ '\'' ∉ body := by
  induction chars generalizing body with
  | nil => simp [splitQuote] at split
  | cons c chars inductionHypothesis =>
      by_cases quote : c = '\''
      · simp only [splitQuote, quote, if_true, Option.some.injEq, Prod.mk.injEq] at split
        obtain ⟨rfl, rfl⟩ := split
        simp [quote]
      · simp only [splitQuote, quote, if_false, Option.map_eq_some_iff] at split
        obtain ⟨⟨inner, after⟩, found, equality⟩ := split
        cases equality
        obtain ⟨rfl, plain⟩ := inductionHypothesis found
        exact ⟨rfl, by simp [Ne.symm quote, plain]⟩

theorem tokensFrom_layout {offset : Nat} {c : Char} (layout : Text.isLayout c = true)
    (rest : List Char) :
    tokensFrom offset (c :: rest) = tokensFrom (offset + c.utf8Size) rest := by
  rw [tokensFrom, if_pos layout]

theorem tokensFrom_gap {gap : List Char} (blank : IsGap gap) (offset : Nat)
    (rest : List Char) :
    tokensFrom offset (gap ++ rest) = tokensFrom (offset + byteCount gap) rest := by
  induction gap generalizing offset with
  | nil => rfl
  | cons c gap inductionHypothesis =>
      obtain ⟨layout, laterBlank⟩ := isGap_cons.1 blank
      rw [List.cons_append, tokensFrom_layout layout, inductionHypothesis laterBlank,
        byteCount, Nat.add_assoc]

theorem tokensFrom_bracket {c : Char} {lexeme : Lexeme} (bracket : bracket? c = some lexeme)
    (plain : Text.isLayout c = false) (offset : Nat) (rest : List Char) :
    tokensFrom offset (c :: rest) =
      (tokensFrom (offset + c.utf8Size) rest).map
        (⟨lexeme, offset, offset + c.utf8Size⟩ :: ·) := by
  rw [tokensFrom, if_neg (by simp [plain])]
  simp only [bracket]

theorem tokensFrom_quoted {body : List Char} (plain : '\'' ∉ body) (offset : Nat)
    (rest : List Char) :
    tokensFrom offset ('\'' :: (body ++ '\'' :: rest)) =
      (tokensFrom (offset + byteCount body + 2) rest).map
        (⟨.quoted (String.ofList body), offset, offset + byteCount body + 2⟩ :: ·) := by
  rw [tokensFrom, if_neg (by decide)]
  have noBracket : bracket? '\'' = none := by decide
  simp only [noBracket, if_true]
  split
  · next missing => simp [splitQuote_append plain] at missing
  · next body' after split =>
      rw [splitQuote_append plain, Option.some.injEq, Prod.mk.injEq] at split
      obtain ⟨rfl, rfl⟩ := split
      rfl

theorem byteCount_quoted (text : String) :
    byteCount (Lexeme.quoted text).spelling = byteCount text.toList + 2 := by
  have quoteSize : ('\'').utf8Size = 1 := by decide
  simp only [Lexeme.spelling, byteCount, byteCount_append, quoteSize]
  omega

theorem tokensFrom_spelling {lexeme : Lexeme} (written : lexeme.Written) (offset : Nat)
    (rest : List Char) :
    tokensFrom offset (lexeme.spelling ++ rest) =
      (tokensFrom (offset + byteCount lexeme.spelling) rest).map
        (⟨lexeme, offset, offset + byteCount lexeme.spelling⟩ :: ·) := by
  cases lexeme with
  | quoted text =>
      have read := tokensFrom_quoted written offset rest
      rw [String.ofList_toList] at read
      rw [byteCount_quoted, ← Nat.add_assoc, ← read]
      simp [Lexeme.spelling]
  | endOfText => exact False.elim written
  | openBracket => exact tokensFrom_bracket (by decide) (by decide) offset rest
  | closeBracket => exact tokensFrom_bracket (by decide) (by decide) offset rest
  | openParen => exact tokensFrom_bracket (by decide) (by decide) offset rest
  | closeParen => exact tokensFrom_bracket (by decide) (by decide) offset rest
  | comma => exact tokensFrom_bracket (by decide) (by decide) offset rest

theorem Covers.tokensFrom_eq {offset : Nat} {chars : List Char} {tokens : List Token}
    (covers : Covers offset chars tokens) : tokensFrom offset chars = .ok tokens := by
  induction covers with
  | @finish offset gap blank =>
      have read := tokensFrom_gap blank offset []
      rw [List.append_nil] at read
      rw [read, tokensFrom]
  | token blank written startsAt stopsAt _ inductionHypothesis =>
      rw [tokensFrom_gap blank, tokensFrom_spelling written, ← startsAt, ← stopsAt,
        inductionHypothesis]
      rfl

/-- Layout before the first token widens its gap. -/
theorem Covers.cons_layout {offset : Nat} {c : Char} {chars : List Char}
    {tokens : List Token} (layout : Text.isLayout c = true)
    (covers : Covers (offset + c.utf8Size) chars tokens) :
    Covers offset (c :: chars) tokens := by
  cases covers with
  | finish blank =>
      rw [Nat.add_assoc]
      exact Covers.finish (isGap_cons.2 ⟨layout, blank⟩)
  | token blank written startsAt stopsAt rest =>
      exact Covers.token (isGap_cons.2 ⟨layout, blank⟩) written
        (by rw [startsAt, byteCount]; omega) stopsAt rest

theorem Covers.append_gap {gap : List Char} (blank : IsGap gap) {offset : Nat}
    {chars : List Char} {tokens : List Token}
    (covers : Covers (offset + byteCount gap) chars tokens) :
    Covers offset (gap ++ chars) tokens := by
  induction gap generalizing offset with
  | nil => exact covers
  | cons c gap inductionHypothesis =>
      obtain ⟨layout, laterBlank⟩ := isGap_cons.1 blank
      rw [byteCount, ← Nat.add_assoc] at covers
      exact (inductionHypothesis laterBlank covers).cons_layout layout

theorem Covers.cons_token {offset : Nat} {lexeme : Lexeme} {chars : List Char}
    {tokens : List Token} (written : lexeme.Written)
    (covers : Covers (offset + byteCount lexeme.spelling) chars tokens) :
    Covers offset (lexeme.spelling ++ chars)
      (⟨lexeme, offset, offset + byteCount lexeme.spelling⟩ :: tokens) :=
  @Covers.token offset offset _ [] _ _ _ IsGap.nil written rfl rfl covers

theorem written_of_bracket {c : Char} {lexeme : Lexeme} (bracket : bracket? c = some lexeme) :
    lexeme.Written ∧ lexeme.spelling = [c] := by
  simp only [bracket?] at bracket
  split at bracket
  · next same => cases bracket; exact ⟨trivial, by rw [same]; rfl⟩
  · split at bracket
    · next same => cases bracket; exact ⟨trivial, by rw [same]; rfl⟩
    · split at bracket
      · next same => cases bracket; exact ⟨trivial, by rw [same]; rfl⟩
      · split at bracket
        · next same => cases bracket; exact ⟨trivial, by rw [same]; rfl⟩
        · split at bracket
          · next same => cases bracket; exact ⟨trivial, by rw [same]; rfl⟩
          · cases bracket

theorem covers_of_tokensFrom {offset : Nat} {chars : List Char} {tokens : List Token}
    (read : tokensFrom offset chars = .ok tokens) : Covers offset chars tokens := by
  fun_induction tokensFrom offset chars generalizing tokens with
  | case1 offset =>
      cases read
      exact Covers.finish IsGap.nil
  | case2 offset c rest layout inductionHypothesis =>
      exact (inductionHypothesis read).cons_layout layout
  | case3 offset c rest _ lexeme bracket inductionHypothesis =>
      obtain ⟨later, readLater, rfl⟩ := map_eq_ok_iff.1 read
      obtain ⟨written, spelling⟩ := written_of_bracket bracket
      have size : byteCount lexeme.spelling = c.utf8Size := by
        simp [spelling, byteCount]
      have covers := inductionHypothesis readLater
      rw [← size] at covers ⊢
      have longer := Covers.cons_token written covers
      rwa [spelling, List.cons_append, List.nil_append, ← spelling] at longer
  | case4 => cases read
  | case5 offset rest body after split stop =>
      rename_i inductionHypothesis
      obtain ⟨later, readLater, rfl⟩ := map_eq_ok_iff.1 read
      obtain ⟨rfl, plain⟩ := eq_append_of_splitQuote split
      have written : (Lexeme.quoted (String.ofList body)).Written := by
        simpa only [Lexeme.Written, String.toList_ofList] using plain
      have size := byteCount_quoted (String.ofList body)
      rw [String.toList_ofList] at size
      have covers := inductionHypothesis readLater
      rw [show stop = offset + byteCount (Lexeme.quoted (String.ofList body)).spelling by
        rw [size]; rfl] at covers ⊢
      have longer := Covers.cons_token written covers
      simpa only [Lexeme.spelling, String.toList_ofList, List.cons_append, List.append_assoc,
        List.nil_append] using longer
  | case6 => cases read

theorem tokensFrom_eq_ok_iff {offset : Nat} {chars : List Char} {tokens : List Token} :
    tokensFrom offset chars = .ok tokens ↔ Covers offset chars tokens :=
  ⟨covers_of_tokensFrom, Covers.tokensFrom_eq⟩

/-- A text is tokenized when its characters are covered and no layout stands at either end. -/
theorem tokenize_eq_ok_iff {text : String} {tokens : List Token} :
    tokenize text = .ok tokens ↔
      beginsBlank text.toList = false ∧ endsBlank text.toList = false ∧
        Covers 0 text.toList tokens := by
  rw [← tokensFrom_eq_ok_iff, tokenize]
  change (if beginsBlank text.toList = true then _ else _) = _ ↔ _
  by_cases begins : beginsBlank text.toList = true
  · simp [begins]
  · by_cases ends : endsBlank text.toList = true
    · simp [begins, ends]
    · simp [begins, ends]

/-! ## Covered characters spell lexemes -/

/-- Covered characters that do not end with layout spell lexemes behind a gap. -/
theorem Covers.spells {offset : Nat} {chars : List Char} {tokens : List Token}
    (covers : Covers offset chars tokens) (ends : endsBlank chars = false) :
    ∃ gap body lexemes, chars = gap ++ body ∧ IsGap gap ∧ Spells body lexemes ∧
      tokens.map Token.lexeme = lexemes ++ [.endOfText] := by
  induction covers with
  | finish blank =>
      exact ⟨_, [], [], (List.append_nil _).symm, blank, .nothing, rfl⟩
  | @token offset start stop gap chars lexeme tokens blank written _ _ _ inductionHypothesis =>
      have restEnds : endsBlank chars = false := by
        by_cases empty : chars = []
        · rw [empty]
          rfl
        · rwa [← List.append_assoc, endsBlank_append_of_ne_nil _ empty] at ends
      obtain ⟨inner, body, lexemes, rfl, innerBlank, spells, same⟩ :=
        inductionHypothesis restEnds
      refine ⟨gap, lexeme.spelling ++ (inner ++ body), lexeme :: lexemes, rfl, blank, ?_, ?_⟩
      · cases lexemes with
        | nil =>
            rw [spells.chars_eq_nil, List.append_nil] at restEnds ⊢
            rw [innerBlank.eq_nil_of_endsBlank restEnds, List.append_nil]
            exact .last written
        | cons following later => exact .next written innerBlank spells
      · simp [same]

theorem Spells.covers {chars : List Char} {lexemes : List Lexeme}
    (spells : Spells chars lexemes) (offset : Nat) :
    ∃ tokens, Covers offset chars tokens ∧
      tokens.map Token.lexeme = lexemes ++ [.endOfText] := by
  induction spells generalizing offset with
  | nothing => exact ⟨_, .finish IsGap.nil, rfl⟩
  | @last lexeme written =>
      have finished : Covers (offset + byteCount lexeme.spelling) [] _ := .finish IsGap.nil
      have covers := Covers.cons_token written finished
      rw [List.append_nil] at covers
      exact ⟨_, covers, rfl⟩
  | @next lexeme following lexemes gap chars written blank _ inductionHypothesis =>
      obtain ⟨tokens, covers, same⟩ :=
        inductionHypothesis (offset + byteCount lexeme.spelling + byteCount gap)
      exact ⟨_, Covers.cons_token written (covers.append_gap blank), by simp [same]⟩

theorem spells_of_tokenize {text : String} {tokens : List Token}
    (read : tokenize text = .ok tokens) :
    ∃ lexemes, Spells text.toList lexemes ∧
      tokens.map Token.lexeme = lexemes ++ [.endOfText] := by
  obtain ⟨begins, ends, covers⟩ := tokenize_eq_ok_iff.1 read
  obtain ⟨gap, body, lexemes, equality, blank, spells, same⟩ := covers.spells ends
  have noGap : gap = [] := by
    cases gap with
    | nil => rfl
    | cons c rest =>
        rw [equality, List.cons_append] at begins
        simp [beginsBlank, (isGap_cons.1 blank).1] at begins
  refine ⟨lexemes, ?_, same⟩
  rwa [equality, noGap, List.nil_append]

theorem Spells.tokenize {text : String} {lexemes : List Lexeme}
    (spells : Spells text.toList lexemes) :
    ∃ tokens, Filter.tokenize text = .ok tokens ∧
      tokens.map Token.lexeme = lexemes ++ [.endOfText] := by
  obtain ⟨tokens, covers, same⟩ := spells.covers 0
  obtain ⟨begins, ends⟩ := spells.plain_ends
  exact ⟨tokens, tokenize_eq_ok_iff.2 ⟨begins, ends, covers⟩, same⟩

end RemoteRecords.Filter
