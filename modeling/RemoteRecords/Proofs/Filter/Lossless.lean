import RemoteRecords.Bounds
import RemoteRecords.Proofs.Filter.FirstError
import RemoteRecords.Proofs.Text.Encoding

/-!
# Tokens cover their text

The tokens of a text lie in it one behind the other, each on the bytes that write its lexeme, and all
bytes between them are layout (`Lossless`). A text has tokens exactly when it spells lexemes, and
these are the lexemes of its tokens (`tokenize_lossless`).
-/

namespace RemoteRecords.Filter

/-! ## Bytes of a text -/

theorem length_encoding (chars : List Char) :
    (Bytes.encoding chars).length = byteCount chars := by
  induction chars with
  | nil => rfl
  | cons c rest inductionHypothesis =>
      rw [Bytes.encoding_cons, List.length_append, String.length_utf8EncodeChar,
        inductionHypothesis, byteCount]

theorem length_ofText (text : String) : (Bytes.ofText text).length = text.utf8ByteSize := by
  rw [Bytes.ofText_eq_encoding, length_encoding, byteCount_eq_utf8ByteSize, String.ofList_toList]

theorem byteCount_spelling_pos {lexeme : Lexeme} (written : lexeme.Written) :
    0 < byteCount lexeme.spelling := by
  obtain ⟨⟨c, rest, spelling, -⟩, -⟩ := written.spelling_ends
  rw [spelling, byteCount]
  exact Nat.add_pos_left c.utf8Size_pos _

/-- The byte of a space, a tab, a carriage return or a line feed. -/
def IsLayoutByte (byte : UInt8) : Prop := byte = 32 ∨ byte = 9 ∨ byte = 13 ∨ byte = 10

theorem IsGap.isLayoutByte {gap : List Char} (blank : IsGap gap) {byte : UInt8}
    (member : byte ∈ Bytes.encoding gap) : IsLayoutByte byte := by
  obtain ⟨c, cMember, byteMember⟩ := List.mem_flatMap.1 member
  have layout := blank c cMember
  rcases layout with rfl | rfl | rfl | rfl
  · exact .inl (List.mem_singleton.1 byteMember)
  · exact .inr (.inl (List.mem_singleton.1 byteMember))
  · exact .inr (.inr (.inl (List.mem_singleton.1 byteMember)))
  · exact .inr (.inr (.inr (List.mem_singleton.1 byteMember)))

/-! ## Places of tokens -/

/-- A byte position lies on a token. -/
def Token.Holds (token : Token) (place : Nat) : Prop := token.start ≤ place ∧ place < token.stop

section Covers

variable {offset : Nat} {chars : List Char} {tokens : List Token}
  (covers : Covers offset chars tokens)

include covers

theorem Covers.stop_eq {token : Token} (member : token ∈ tokens) :
    token.stop = token.start + byteCount token.lexeme.spelling := by
  induction covers with
  | finish blank =>
      rw [List.mem_singleton.1 member]
      rfl
  | token blank written startsAt stopsAt _ inductionHypothesis =>
      rcases List.mem_cons.1 member with rfl | later
      · exact stopsAt
      · exact inductionHypothesis later

theorem Covers.le_start {token : Token} (member : token ∈ tokens) : offset ≤ token.start := by
  obtain ⟨before, -, -, place, -⟩ := covers.position member
  omega

/-- A token stands behind all tokens before it. -/
theorem Covers.ordered :
    tokens.Pairwise fun first second => first.start < second.start ∧ first.stop ≤ second.start := by
  induction covers with
  | finish blank => exact List.pairwise_singleton _ _
  | token blank written startsAt stopsAt rest inductionHypothesis =>
      refine List.pairwise_cons.2 ⟨?_, inductionHypothesis⟩
      intro later member
      have behind := rest.le_start member
      have long := byteCount_spelling_pos written
      dsimp only
      omega

/-- The end of the text is the last token, and no other one. -/
theorem Covers.final :
    ∃ front, tokens = front ++
        [⟨.endOfText, offset + byteCount chars, offset + byteCount chars⟩] ∧
      ∀ token ∈ front, token.lexeme.Written := by
  induction covers with
  | finish blank => exact ⟨[], rfl, nofun⟩
  | @token offset start stop gap chars lexeme tokens blank written startsAt stopsAt _
      inductionHypothesis =>
      obtain ⟨front, split, frontWritten⟩ := inductionHypothesis
      refine ⟨⟨lexeme, start, stop⟩ :: front, ?_, List.forall_mem_cons.2 ⟨written, frontWritten⟩⟩
      rw [split, byteCount_append, byteCount_append, stopsAt, startsAt]
      simp only [List.cons_append, Nat.add_assoc]

/-- A byte that lies on no token is layout. -/
theorem Covers.isLayoutByte {index : Nat} {byte : UInt8}
    (found : (Bytes.encoding chars)[index]? = some byte)
    (free : ∀ token ∈ tokens, ¬ token.Holds (offset + index)) : IsLayoutByte byte := by
  induction covers generalizing index with
  | finish blank => exact blank.isLayoutByte (List.mem_of_getElem? found)
  | @token offset start stop gap chars lexeme tokens blank written startsAt stopsAt _
      inductionHypothesis =>
      obtain ⟨off, freeLater⟩ := List.forall_mem_cons.1 free
      rw [Bytes.encoding_append, List.getElem?_append] at found
      split at found
      · exact blank.isLayoutByte (List.mem_of_getElem? found)
      · next behindGap =>
          rw [length_encoding] at behindGap found
          have behind : stop ≤ offset + index := by
            by_contra before
            exact off ⟨by dsimp only; omega, by dsimp only; omega⟩
          rw [Bytes.encoding_append, List.getElem?_append_right (by
            rw [length_encoding]; omega), length_encoding] at found
          refine inductionHypothesis found ?_
          have place : stop + (index - byteCount gap - byteCount lexeme.spelling) =
              offset + index := by omega
          rwa [place]

end Covers

/-! ## Covered texts -/

section Text

variable {text : String} {tokens : List Token} (covers : Covers 0 text.toList tokens)
  {token : Token} (member : token ∈ tokens)

include covers member

/-- The bytes under a token are those that write its lexeme. -/
theorem Covers.slice :
    Bounds.slice? (Bytes.ofText text) token.start token.stop =
      some (Bytes.encoding token.lexeme.spelling) := by
  obtain ⟨before, after, split, place, -⟩ := covers.position member
  have stop := covers.stop_eq member
  rw [Nat.zero_add] at place
  have bytes : Bytes.ofText text = Bytes.encoding before ++
      (Bytes.encoding token.lexeme.spelling ++ Bytes.encoding after) := by
    rw [Bytes.ofText_eq_encoding, split, Bytes.encoding_append, Bytes.encoding_append]
  have width : token.stop - token.start = (Bytes.encoding token.lexeme.spelling).length := by
    rw [stop, length_encoding]
    omega
  rw [Bounds.slice?_eq_some_iff]
  refine ⟨by omega, ?_, ?_⟩
  · rw [bytes, List.length_append, List.length_append, length_encoding, length_encoding]
    omega
  · rw [width, bytes, List.drop_left' (by rw [length_encoding, place]), List.take_left]

/-- A token begins and ends on character boundaries. -/
theorem Covers.boundaries :
    String.Pos.Raw.IsValid text ⟨token.start⟩ ∧ String.Pos.Raw.IsValid text ⟨token.stop⟩ := by
  obtain ⟨before, after, split, place, -⟩ := covers.position member
  have behind : text.toList = (before ++ token.lexeme.spelling) ++ after := by
    rw [split, List.append_assoc]
  obtain ⟨-, starts⟩ := boundary_of_append split
  obtain ⟨-, stops⟩ := boundary_of_append behind
  rw [byteCount_append] at stops
  rw [covers.stop_eq member, place, Nat.zero_add]
  exact ⟨starts, stops⟩

end Text

/-- The tokens hold everything that the text does: each stands on the bytes that write its lexeme,
they lie one behind the other, and the bytes on none of them are layout. The last token, and no other
one, is the end of the text. -/
structure Lossless (text : String) (tokens : List Token) : Prop where
  inside : ∀ token ∈ tokens, token.start ≤ token.stop ∧ token.stop ≤ text.utf8ByteSize
  boundaries : ∀ token ∈ tokens,
    String.Pos.Raw.IsValid text ⟨token.start⟩ ∧ String.Pos.Raw.IsValid text ⟨token.stop⟩
  spelled : ∀ token ∈ tokens, Bounds.slice? (Bytes.ofText text) token.start token.stop =
    some (Bytes.encoding token.lexeme.spelling)
  ordered : tokens.Pairwise fun first second =>
    first.start < second.start ∧ first.stop ≤ second.start
  layout : ∀ place byte, (Bytes.ofText text)[place]? = some byte →
    (∀ token ∈ tokens, ¬ token.Holds place) → IsLayoutByte byte
  final : ∃ front, tokens = front ++ [⟨.endOfText, text.utf8ByteSize, text.utf8ByteSize⟩] ∧
    ∀ token ∈ front, token.lexeme.Written

theorem Covers.lossless {text : String} {tokens : List Token}
    (covers : Covers 0 text.toList tokens) : Lossless text tokens := by
  refine ⟨?_, fun _ => covers.boundaries, fun _ => covers.slice, covers.ordered, ?_, ?_⟩
  · intro token member
    obtain ⟨ordered, inside, -⟩ := Bounds.slice?_eq_some_iff.1 (covers.slice member)
    exact ⟨ordered, length_ofText text ▸ inside⟩
  · intro place byte found free
    refine covers.isLayoutByte found ?_
    rwa [Nat.zero_add]
  · obtain ⟨front, split, written⟩ := covers.final
    rw [Nat.zero_add, byteCount_eq_utf8ByteSize, String.ofList_toList] at split
    exact ⟨front, split, written⟩

/-- Reading the tokens of a text comes to an end: with tokens that cover the text, or with an error
when the text spells no lexemes. Whatever a text spells, with any gaps, are the lexemes of its
tokens. -/
theorem tokenize_lossless (text : String) :
    ((∃ tokens, tokenize text = .ok tokens ∧ Lossless text tokens) ∨
        ∃ error, tokenize text = .error error ∧ ∀ lexemes, ¬ Spells text.toList lexemes) ∧
      ∀ lexemes, Spells text.toList lexemes →
        ∃ tokens, tokenize text = .ok tokens ∧
          tokens.map Token.lexeme = lexemes ++ [.endOfText] := by
  refine ⟨?_, fun lexemes spells => spells.tokenize⟩
  cases read : tokenize text with
  | ok tokens =>
      obtain ⟨-, -, covers⟩ := tokenize_eq_ok_iff.1 read
      exact .inl ⟨tokens, rfl, covers.lossless⟩
  | error error =>
      refine .inr ⟨error, rfl, ?_⟩
      intro lexemes spells
      obtain ⟨tokens, succeeded, -⟩ := spells.tokenize
      cases read.symm.trans succeeded

/-- A quoted character of two bytes between brackets, with a gap on either side. -/
theorem tokenize_lossless_two_bytes :
    let text := "[ 'é'\t\n]"
    let lexemes : List Lexeme := [.openBracket, .quoted "é", .closeBracket]
    let tokens : List Token := [⟨.openBracket, 0, 1⟩, ⟨.quoted "é", 2, 6⟩, ⟨.closeBracket, 8, 9⟩,
      ⟨.endOfText, 9, 9⟩]
    Spells text.toList lexemes ∧ tokenize text = .ok tokens ∧
      tokens.map Token.lexeme = lexemes ++ [.endOfText] ∧ Lossless text tokens := by
  intro text lexemes tokens
  have inner : IsGap [' '] := by simp [IsGap]
  have outer : IsGap ['\t', '\n'] := by simp [IsGap]
  have quoted : '\'' ∉ "é".toList := by decide +kernel
  have chars : text.toList = Lexeme.openBracket.spelling ++ ([' '] ++
      ((Lexeme.quoted "é").spelling ++ (['\t', '\n'] ++ Lexeme.closeBracket.spelling))) := by
    decide +kernel
  have spells : Spells text.toList lexemes := by
    rw [chars]
    exact .next trivial inner (.next quoted outer (.last trivial))
  have read : tokenize text = .ok tokens := by decide +kernel
  obtain ⟨covered, spelled⟩ := tokenize_lossless text
  obtain ⟨others, readAgain, same⟩ := spelled lexemes spells
  rw [read, Except.ok.injEq] at readAgain
  rcases covered with ⟨found, foundRead, lossless⟩ | ⟨error, failed, -⟩
  · rw [read, Except.ok.injEq] at foundRead
    exact ⟨spells, read, readAgain ▸ same, foundRead ▸ lossless⟩
  · rw [read] at failed
    cases failed

end RemoteRecords.Filter
