import RemoteRecords.Proofs.Filter.Misfit
import RemoteRecords.Proofs.Text.Trimming

/-!
# The first error of a text

A rejected text is reported with the byte position of its first error. `FirstErrorAt` says where
this is: at layout that stands at an end of the text, at a character that begins no token, or at the
token up to which the text begins some filter and with which it begins none
(`parse_error_firstErrorAt`).
-/

namespace RemoteRecords.Filter

/-! ## Byte positions -/

theorem byteCount_eq_utf8ByteSize (chars : List Char) :
    byteCount chars = (String.ofList chars).utf8ByteSize := by
  induction chars with
  | nil => rfl
  | cons c rest inductionHypothesis =>
      rw [String.ofList_cons, String.utf8ByteSize_append, String.utf8ByteSize_singleton,
        ← inductionHypothesis, byteCount]

/-- The byte position behind the first characters of a text is a character boundary. -/
theorem boundary_of_append {text : String} {before after : List Char}
    (split : text.toList = before ++ after) :
    byteCount before ≤ text.utf8ByteSize ∧
      String.Pos.Raw.IsValid text ⟨byteCount before⟩ := by
  have joined : text = String.ofList before ++ String.ofList after := by
    rw [← String.ofList_append, ← split, String.ofList_toList]
  constructor
  · rw [joined, String.utf8ByteSize_append, byteCount_eq_utf8ByteSize]
    omega
  · rw [String.Pos.Raw.isValid_iff_exists_append]
    refine ⟨String.ofList before, String.ofList after, joined, ?_⟩
    rw [byteCount_eq_utf8ByteSize]
    rfl

/-! ## Characters that begin no token -/

/-- No lexeme begins with the character. -/
def BeginsNoLexeme (c : Char) : Prop :=
  ∀ lexeme : Lexeme, lexeme.Written → lexeme.spelling.head? ≠ some c

/-- The characters `c :: after` do not begin with a gap or a token. -/
def Unreadable (c : Char) (after : List Char) : Prop :=
  (BeginsNoLexeme c ∧ ¬ IsGap [c]) ∨ (c = '\'' ∧ '\'' ∉ after)

theorem bracket?_spelling {lexeme : Lexeme} (written : lexeme.Written) {c : Char}
    (first : lexeme.spelling.head? = some c) (unquoted : c ≠ '\'') : bracket? c = some lexeme := by
  cases lexeme with
  | quoted text =>
      cases first
      exact absurd rfl unquoted
  | endOfText => exact False.elim written
  | openBracket => cases first; rfl
  | closeBracket => cases first; rfl
  | openParen => cases first; rfl
  | closeParen => cases first; rfl
  | comma => cases first; rfl

theorem beginsNoLexeme_of_bracket {c : Char} (noBracket : bracket? c = none)
    (unquoted : c ≠ '\'') : BeginsNoLexeme c := by
  intro lexeme written first
  rw [bracket?_spelling written first unquoted] at noBracket
  cases noBracket

theorem not_mem_of_splitQuote_eq_none {chars : List Char} (unsplit : splitQuote chars = none) :
    '\'' ∉ chars := by
  intro member
  obtain ⟨body, rest, rfl, plain⟩ := List.eq_append_cons_of_mem member
  rw [splitQuote_append plain] at unsplit
  cases unsplit

/-- Where no tokens can be read, tokens and gaps stand before a character that begins none. -/
theorem unreadable_of_tokensFrom {offset : Nat} {chars : List Char} {error : SyntaxError}
    (failed : tokensFrom offset chars = .error error) :
    ∃ before c after tokens, chars = before ++ c :: after ∧ Covers offset before tokens ∧
      error.offset = offset + byteCount before ∧ Unreadable c after := by
  have startsHere : ∀ place, Covers place [] [⟨.endOfText, place, place⟩] :=
    fun place => @Covers.finish place [] IsGap.nil
  fun_induction tokensFrom offset chars with
  | case1 => cases failed
  | case2 offset c rest layout inductionHypothesis =>
      obtain ⟨before, d, after, tokens, rfl, covers, startsAt, unreadable⟩ :=
        inductionHypothesis failed
      refine ⟨c :: before, d, after, tokens, rfl, covers.cons_layout layout, ?_, unreadable⟩
      rw [startsAt, byteCount]
      omega
  | case3 offset c rest _ lexeme bracket inductionHypothesis =>
      obtain ⟨before, d, after, tokens, rfl, covers, startsAt, unreadable⟩ :=
        inductionHypothesis (map_eq_error_iff.1 failed)
      obtain ⟨written, spelling⟩ := written_of_bracket bracket
      have size : byteCount lexeme.spelling = c.utf8Size := by
        simp [spelling, byteCount]
      rw [← size] at covers
      have longer := Covers.cons_token written covers
      rw [spelling] at longer
      refine ⟨c :: before, d, after, _, rfl, longer, ?_, unreadable⟩
      rw [startsAt, byteCount]
      omega
  | case4 offset rest unsplit =>
      cases failed
      have noQuote := not_mem_of_splitQuote_eq_none unsplit
      exact ⟨[], '\'', rest, _, rfl, startsHere offset, rfl, Or.inr ⟨rfl, noQuote⟩⟩
  | case5 offset rest body after split stop =>
      rename_i inductionHypothesis
      obtain ⟨before, d, later, tokens, rfl, covers, startsAt, unreadable⟩ :=
        inductionHypothesis (map_eq_error_iff.1 failed)
      obtain ⟨rfl, plain⟩ := eq_append_of_splitQuote split
      have written : (Lexeme.quoted (String.ofList body)).Written := by
        simpa only [Lexeme.Written, String.toList_ofList] using plain
      have size := byteCount_quoted (String.ofList body)
      rw [String.toList_ofList] at size
      have stopsAt : stop = offset + byteCount (Lexeme.quoted (String.ofList body)).spelling := by
        rw [size]
        rfl
      rw [stopsAt] at covers
      refine ⟨_, d, later, _, ?_, Covers.cons_token written covers, ?_, unreadable⟩
      · simp [Lexeme.spelling]
      · rw [startsAt, stopsAt, byteCount_append]
        omega
  | case6 offset c rest plain noBracket unquoted =>
      cases failed
      have noGap : ¬ IsGap [c] := fun gap => plain (isGap_cons.1 gap).1
      have noLexeme := beginsNoLexeme_of_bracket noBracket unquoted
      exact ⟨[], c, rest, _, rfl, startsHere offset, rfl, Or.inl ⟨noLexeme, noGap⟩⟩

/-! ## Tokens in their text -/

/-- A token stands where it says, and the end of the text behind everything. -/
theorem Covers.position {offset : Nat} {chars : List Char} {tokens : List Token}
    (covers : Covers offset chars tokens) {token : Token} (member : token ∈ tokens) :
    ∃ before after, chars = before ++ (token.lexeme.spelling ++ after) ∧
      token.start = offset + byteCount before ∧ (token.lexeme = .endOfText → after = []) := by
  induction covers with
  | @finish offset gap blank =>
      rw [List.mem_singleton.1 member]
      exact ⟨gap, [], by simp [Lexeme.spelling], rfl, fun _ => rfl⟩
  | @token offset start stop gap chars lexeme tokens blank written startsAt stopsAt covers
      inductionHypothesis =>
      rcases List.mem_cons.1 member with rfl | later
      · refine ⟨gap, chars, rfl, startsAt, ?_⟩
        rintro rfl
        exact False.elim written
      · obtain ⟨before, after, rfl, place, final⟩ := inductionHypothesis later
        refine ⟨gap ++ (lexeme.spelling ++ before), after, by simp, ?_, final⟩
        rw [place, stopsAt, startsAt, byteCount_append, byteCount_append]
        omega

/-! ## Beginnings of filters -/

/-- The lexemes begin a text that is a filter. -/
def Viable (lexemes : List Lexeme) : Prop :=
  ∃ text read tokens, parse text = .ok read ∧ tokenize text = .ok tokens ∧
    lexemes <+: tokens.map Token.lexeme

theorem atEnd_iff {lexemes : List Lexeme} : AtEnd lexemes ↔ lexemes = [.endOfText] := by
  simp [AtEnd, step_iff]

theorem viable_iff {lexemes : List Lexeme} :
    Viable lexemes ↔ Begins (Then FilterPhrase AtEnd) lexemes := by
  constructor
  · rintro ⟨text, read, tokens, parsed, tokenized, rest, begins⟩
    obtain ⟨written, spells, phrase⟩ := parse_iff_phrase.1 parsed
    obtain ⟨others, tokenizedAgain, same⟩ := spells.tokenize
    rw [tokenizedAgain, Except.ok.injEq] at tokenized
    rw [← tokenized, same] at begins
    exact ⟨rest, written, [.endOfText], read, begins, phrase, atEnd_iff.2 rfl⟩
  · rintro ⟨rest, written, final, read, begins, phrase, atEnd⟩
    have spells := spells_spellings phrase.written
    have characters : (String.ofList (spellings written)).toList = spellings written :=
      String.toList_ofList
    rw [← characters] at spells
    obtain ⟨tokens, tokenized, same⟩ := spells.tokenize
    refine ⟨_, read, tokens, parse_iff_phrase.2 ⟨written, spells, phrase⟩, tokenized, rest, ?_⟩
    rw [begins, same, atEnd_iff.1 atEnd]

/-! ## The first error -/

/-- The first error of a text lies at a byte position. What stands at the ends of the text counts
before what stands inside, and characters that are no tokens count before tokens that are no
filter. -/
inductive FirstErrorAt (text : String) : Nat → Prop
  | leading :
      beginsBlank text.toList = true → FirstErrorAt text 0
  | trailing {body gap : List Char} :
      beginsBlank text.toList = false → text.toList = body ++ gap → IsGap gap → gap ≠ [] →
      endsBlank body = false → FirstErrorAt text (byteCount body)
  | unreadable {before after : List Char} {c : Char} {tokens : List Token} :
      beginsBlank text.toList = false → endsBlank text.toList = false →
      (∀ read, tokenize text ≠ .ok read) → text.toList = before ++ c :: after →
      Covers 0 before tokens → Unreadable c after → FirstErrorAt text (byteCount before)
  | misfit {before after : List Token} {token : Token} :
      tokenize text = .ok (before ++ token :: after) →
      (token.lexeme = .endOfText → token.start = text.utf8ByteSize) →
      Viable (before.map Token.lexeme) →
      ¬ Viable (before.map Token.lexeme ++ [token.lexeme]) → FirstErrorAt text token.start

theorem FirstErrorAt.split {text : String} {offset : Nat} (first : FirstErrorAt text offset) :
    ∃ before after, text.toList = before ++ after ∧ offset = byteCount before := by
  cases first with
  | leading => exact ⟨[], text.toList, rfl, rfl⟩
  | trailing _ split => exact ⟨_, _, split, rfl⟩
  | unreadable _ _ _ split => exact ⟨_, _, split, rfl⟩
  | misfit tokenized =>
      obtain ⟨-, -, covers⟩ := tokenize_eq_ok_iff.1 tokenized
      obtain ⟨before, after, split, place, -⟩ :=
        covers.position (List.mem_append_right _ List.mem_cons_self)
      rw [Nat.zero_add] at place
      exact ⟨before, _, split, place⟩

/-- The trailing layout of a text stands behind what is left without it. -/
theorem withoutTrailing_append (chars : List Char) :
    ∃ gap, chars = withoutTrailing chars ++ gap ∧ IsGap gap ∧
      endsBlank (withoutTrailing chars) = false := by
  obtain ⟨dropped, split, layout⟩ := Text.exists_dropped_append Text.isLayout chars.reverse
  refine ⟨dropped.reverse, ?_, ?_, ?_⟩
  · have reversed := congrArg List.reverse split
    rwa [List.reverse_reverse, List.reverse_append] at reversed
  · intro c member
    exact isLayout_iff.1 (layout c (List.mem_reverse.1 member))
  · have plain := Text.head_dropWhile Text.isLayout chars.reverse
    rw [endsBlank, withoutTrailing, List.getLast?_reverse]
    split
    · next c final => exact plain c final
    · rfl

theorem firstErrorAt_of_tokenize {text : String} {error : SyntaxError}
    (failed : tokenize text = .error error) : FirstErrorAt text error.offset := by
  have noTokens : ∀ read, tokenize text ≠ .ok read := by
    intro read succeeded
    rw [failed] at succeeded
    cases succeeded
  rw [tokenize] at failed
  change (if beginsBlank text.toList = true then _ else _) = _ at failed
  by_cases begins : beginsBlank text.toList = true
  · rw [if_pos begins] at failed
    cases failed
    exact .leading begins
  have plainFront := eq_false_of_ne_true begins
  rw [if_neg begins] at failed
  by_cases ends : endsBlank text.toList = true
  · rw [if_pos ends] at failed
    cases failed
    obtain ⟨gap, split, blank, bodyEnds⟩ := withoutTrailing_append text.toList
    have trails : gap ≠ [] := by
      rintro rfl
      rw [split, List.append_nil, bodyEnds] at ends
      cases ends
    exact .trailing plainFront split blank trails bodyEnds
  · rw [if_neg ends] at failed
    obtain ⟨before, c, after, tokens, split, covers, place, unreadable⟩ :=
      unreadable_of_tokensFrom failed
    rw [place, Nat.zero_add]
    exact .unreadable plainFront (eq_false_of_ne_true ends) noTokens split covers unreadable

/-- Where all tokens of a text, its end among them, begin a filter, the text is one. -/
theorem parse_of_begins {text : String} {tokens : List Token}
    (tokenized : tokenize text = .ok tokens)
    (begins : Begins (Then FilterPhrase AtEnd) (tokens.map Token.lexeme)) :
    ∃ read, parse text = .ok read := by
  obtain ⟨lexemes, spells, same⟩ := spells_of_tokenize tokenized
  obtain ⟨rest, phraseLexemes, final, read, equality, phrase, atEnd⟩ := begins
  have unwritten : Lexeme.endOfText ∉ phraseLexemes := fun member => phrase.written _ member
  rw [same, atEnd_iff.1 atEnd, List.append_assoc, List.singleton_append] at equality
  have equal := (List.append_cons_inj_of_notMem unwritten List.not_mem_nil).1 equality.symm
  rw [equal.1] at phrase
  exact ⟨read, parse_iff_phrase.2 ⟨lexemes, spells, phrase⟩⟩

theorem firstErrorAt_of_misfit {text : String} {tokens : List Token} {offset : Nat}
    (tokenized : tokenize text = .ok tokens) (rejected : ∀ read, parse text ≠ .ok read)
    (misfit : MisfitAt (Then FilterPhrase AtEnd) tokens offset) : FirstErrorAt text offset := by
  obtain ⟨front, rest, rfl, rfl, viable, stuck⟩ := misfit
  obtain ⟨-, -, covers⟩ := tokenize_eq_ok_iff.1 tokenized
  cases rest with
  | nil =>
      rw [List.append_nil] at tokenized
      obtain ⟨read, accepted⟩ := parse_of_begins tokenized viable
      exact absurd accepted (rejected read)
  | cons token after =>
      refine .misfit tokenized ?_ (viable_iff.2 viable) (mt viable_iff.1 stuck)
      change token.lexeme = .endOfText → token.start = text.utf8ByteSize
      intro final
      obtain ⟨before, behind, split, place, last⟩ :=
        covers.position (List.mem_append_right front List.mem_cons_self)
      have whole : text = String.ofList before := by
        rw [← String.toList_inj, String.toList_ofList, split, final, last final]
        exact List.append_nil _
      rw [place, Nat.zero_add, byteCount_eq_utf8ByteSize, ← whole]

/-- A rejected text is reported with the place of its first error, which is a character boundary of
the text. -/
theorem parse_error_firstErrorAt {text : String} {error : SyntaxError}
    (rejected : parse text = .error error) :
    error.offset ≤ text.utf8ByteSize ∧ String.Pos.Raw.IsValid text ⟨error.offset⟩ ∧
      FirstErrorAt text error.offset := by
  have first : FirstErrorAt text error.offset := by
    rcases bind_eq_error_iff.1 rejected with failed | ⟨tokens, tokenized, failed⟩
    · exact firstErrorAt_of_tokenize failed
    · have noFilter : ∀ read, parse text ≠ .ok read := by
        intro read accepted
        rw [rejected] at accepted
        cases accepted
      exact firstErrorAt_of_misfit tokenized noFilter (misfitAt_of_filter failed)
  obtain ⟨before, after, split, place⟩ := first.split
  obtain ⟨within, valid⟩ := boundary_of_append split
  rw [← place] at within valid
  exact ⟨within, valid, first⟩

/-- A text with a token that fits no filter, and one with a character that begins no token behind a
character of two bytes. -/
theorem parse_error_firstErrorAt_comparator_and_tilde :
    parse "('name','==','x')" = .error ⟨8, .unsupportedComparator "=="⟩ ∧
      FirstErrorAt "('name','==','x')" 8 ∧
      parse "['é'~" = .error ⟨5, .unexpectedChar '~'⟩ ∧
      String.Pos.Raw.IsValid "['é'~" ⟨5⟩ ∧ FirstErrorAt "['é'~" 5 := by
  have comparator : parse "('name','==','x')" = .error ⟨8, .unsupportedComparator "=="⟩ := by
    decide +kernel
  have tilde : parse "['é'~" = .error ⟨5, .unexpectedChar '~'⟩ := by
    decide +kernel
  obtain ⟨-, -, atComparator⟩ := parse_error_firstErrorAt comparator
  obtain ⟨-, valid, atTilde⟩ := parse_error_firstErrorAt tilde
  exact ⟨comparator, atComparator, tilde, valid, atTilde⟩

end RemoteRecords.Filter
