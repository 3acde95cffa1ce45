import RemoteRecords.Proofs.Filter.Spelling
import Mathlib.Data.List.Basic
import Mathlib.Data.List.Count

/-!
# Quotes and brackets in a text

Each quote of a text that spells lexemes begins or ends a quoted text, and each bracket or comma
outside of quoted texts is a lexeme by itself. So the lexemes can be counted by their characters
(`SpellsLoosely.count_quote`, `SpellsLoosely.count_bracket`), and a text can be split at a bracket
(`SpellsLoosely.split`) when no quoted text holds this bracket.
-/

namespace RemoteRecords.Filter

/-! ## Spellings with gaps at the ends -/

/-- The characters write the lexemes in order. A gap may stand anywhere but inside a lexeme. -/
inductive SpellsLoosely : List Char → List Lexeme → Prop
  | gap {gap : List Char} : IsGap gap → SpellsLoosely gap []
  | lexeme {gap rest : List Char} {lexeme : Lexeme} {lexemes : List Lexeme} :
      IsGap gap → lexeme.Written → SpellsLoosely rest lexemes →
      SpellsLoosely (gap ++ (lexeme.spelling ++ rest)) (lexeme :: lexemes)

theorem SpellsLoosely.behind_gap {gap chars : List Char} {lexemes : List Lexeme}
    (blank : IsGap gap) (spells : SpellsLoosely chars lexemes) :
    SpellsLoosely (gap ++ chars) lexemes := by
  have joined : ∀ later : List Char, IsGap later → IsGap (gap ++ later) := by
    intro later laterBlank c member
    rcases List.mem_append.1 member with early | late
    · exact blank c early
    · exact laterBlank c late
  cases spells with
  | gap laterBlank => exact .gap (joined _ laterBlank)
  | lexeme laterBlank written rest =>
      rw [← List.append_assoc]
      exact .lexeme (joined _ laterBlank) written rest

theorem Spells.loosely {chars : List Char} {lexemes : List Lexeme}
    (spells : Spells chars lexemes) : SpellsLoosely chars lexemes := by
  induction spells with
  | nothing => exact .gap IsGap.nil
  | @last lexeme written =>
      have alone : SpellsLoosely ([] ++ (lexeme.spelling ++ [])) [lexeme] :=
        .lexeme IsGap.nil written (.gap IsGap.nil)
      rwa [List.nil_append, List.append_nil] at alone
  | @next lexeme following lexemes gap chars written blank _ inductionHypothesis =>
      exact @SpellsLoosely.lexeme [] _ _ _ IsGap.nil written
        (inductionHypothesis.behind_gap blank)

/-- What begins with the spelling of a lexeme begins with the spelling of no other. -/
theorem Lexeme.Written.spelling_append_inj {first second : Lexeme} (firstWritten : first.Written)
    (secondWritten : second.Written) {left right : List Char}
    (same : first.spelling ++ left = second.spelling ++ right) : first = second := by
  cases first with
  | quoted text =>
      cases second with
      | quoted other =>
          simp only [Lexeme.spelling, List.cons_append, List.cons.injEq, true_and,
            List.append_assoc, List.nil_append] at same
          have split := splitQuote_append (show '\'' ∉ text.toList from firstWritten) left
          rw [same, splitQuote_append (show '\'' ∉ other.toList from secondWritten)] at split
          simp only [Option.some.injEq, Prod.mk.injEq, String.toList_inj] at split
          rw [split.1]
      | endOfText => exact False.elim secondWritten
      | _ => simp [Lexeme.spelling] at same
  | endOfText => exact False.elim firstWritten
  | _ =>
      cases second with
      | endOfText => exact False.elim secondWritten
      | _ => simp [Lexeme.spelling] at same <;> rfl

/-! ## Counting quotes -/

def Lexeme.isQuoted : Lexeme → Bool
  | .quoted _ => true
  | _ => false

theorem IsGap.not_mem {gap : List Char} (blank : IsGap gap) {c : Char}
    (plain : Text.isLayout c = false) : c ∉ gap := by
  intro member
  rw [isLayout_iff.2 (blank c member)] at plain
  cases plain

theorem Lexeme.Written.count_quote {lexeme : Lexeme} (written : lexeme.Written) :
    lexeme.spelling.count '\'' = 2 * [lexeme].countP Lexeme.isQuoted := by
  cases lexeme with
  | quoted text =>
      have inside : text.toList.count '\'' = 0 := List.count_eq_zero.2 written
      simp [Lexeme.spelling, Lexeme.isQuoted, List.count_append, inside]
  | endOfText => exact False.elim written
  | _ => rfl

/-- Every quote begins or ends a quoted text. -/
theorem SpellsLoosely.count_quote {chars : List Char} {lexemes : List Lexeme}
    (spells : SpellsLoosely chars lexemes) :
    chars.count '\'' = 2 * lexemes.countP Lexeme.isQuoted := by
  induction spells with
  | gap blank =>
      rw [List.count_eq_zero.2 (blank.not_mem (by decide))]
      rfl
  | @lexeme gap rest lexeme lexemes blank written _ inductionHypothesis =>
      have split : (lexeme :: lexemes).countP Lexeme.isQuoted =
          [lexeme].countP Lexeme.isQuoted + lexemes.countP Lexeme.isQuoted := by
        rw [← List.countP_append, List.singleton_append]
      rw [List.count_append, List.count_append, inductionHypothesis, written.count_quote,
        List.count_eq_zero.2 (blank.not_mem (by decide)), split]
      omega

/-! ## Brackets -/

/-- An element that is not in the first part of a list is in the second. -/
theorem append_eq_append_cons_of_not_mem {α : Type} {first second before after : List α} {item : α}
    (same : first ++ second = before ++ item :: after) (absent : item ∉ first) :
    ∃ between, before = first ++ between ∧ second = between ++ item :: after := by
  rcases List.append_eq_append_iff.1 same with ⟨between, split, rest⟩ | ⟨between, split, rest⟩
  · exact ⟨between, split, rest⟩
  · cases between with
    | nil =>
        rw [List.append_nil] at split
        exact ⟨[], by rw [split, List.append_nil], rest.symm⟩
    | cons other between =>
        injection rest with sameItem _
        exact absurd (by rw [split, sameItem]; simp) absent

/-- A lexeme that is no quoted text, or a quoted text without brackets and commas. -/
def Lexeme.Plain : Lexeme → Prop
  | .quoted text => ∀ c ∈ text.toList, bracket? c = none
  | _ => True

section Bracket

variable {c : Char} {bracket : Lexeme} (isBracket : bracket? c = some bracket)

include isBracket

theorem not_isLayout_of_bracket : Text.isLayout c = false := by
  obtain ⟨written, spelling⟩ := written_of_bracket isBracket
  obtain ⟨⟨first, rest, split, plain⟩, -⟩ := written.spelling_ends
  rw [spelling, List.cons.injEq] at split
  rw [split.1, plain]

theorem ne_quote_of_bracket : c ≠ '\'' := by
  rintro rfl
  have noBracket : bracket? '\'' = none := by decide
  rw [noBracket] at isBracket
  cases isBracket

theorem Lexeme.Plain.not_mem_quoted {text : String} (plain : (Lexeme.quoted text).Plain) :
    c ∉ (Lexeme.quoted text).spelling := by
  have different := ne_quote_of_bracket isBracket
  have outside : c ∉ text.toList := by
    intro member
    rw [plain c member] at isBracket
    cases isBracket
  simp [Lexeme.spelling, different, outside]

/-- A bracket is the spelling of its lexeme, and occurs in that of no other plain lexeme. -/
theorem Lexeme.Plain.spelling_or_not_mem {lexeme : Lexeme} (plain : lexeme.Plain)
    (written : lexeme.Written) :
    lexeme = bracket ∧ lexeme.spelling = [c] ∨ lexeme ≠ bracket ∧ c ∉ lexeme.spelling := by
  obtain ⟨-, spelling⟩ := written_of_bracket isBracket
  by_cases same : lexeme = bracket
  · exact .inl ⟨same, same ▸ spelling⟩
  · right
    refine ⟨same, ?_⟩
    cases lexeme with
    | quoted text => exact plain.not_mem_quoted isBracket
    | endOfText => exact False.elim written
    | _ =>
        intro member
        rw [List.mem_singleton.1 member] at isBracket
        exact same (Option.some.inj isBracket)

/-- Every bracket outside of quoted texts is a lexeme. -/
theorem SpellsLoosely.count_bracket {chars : List Char} {lexemes : List Lexeme}
    (spells : SpellsLoosely chars lexemes) (plain : ∀ lexeme ∈ lexemes, lexeme.Plain) :
    chars.count c = lexemes.count bracket := by
  have noGap := not_isLayout_of_bracket isBracket
  induction spells with
  | gap blank => rw [List.count_eq_zero.2 (blank.not_mem noGap), List.count_nil]
  | lexeme blank written _ inductionHypothesis =>
      obtain ⟨firstPlain, laterPlain⟩ := List.forall_mem_cons.1 plain
      rw [List.count_append, List.count_append, inductionHypothesis laterPlain,
        List.count_eq_zero.2 (blank.not_mem noGap)]
      rcases firstPlain.spelling_or_not_mem isBracket written with
        ⟨rfl, spelling⟩ | ⟨different, absent⟩
      · rw [spelling, List.count_singleton_self, List.count_cons_self]
        omega
      · rw [List.count_eq_zero.2 absent, List.count_cons_of_ne different]
        omega

/-- A text can be split at a bracket outside of quoted texts. -/
theorem SpellsLoosely.split {before after : List Char} {lexemes : List Lexeme}
    (spells : SpellsLoosely (before ++ c :: after) lexemes)
    (plain : ∀ lexeme ∈ lexemes, lexeme.Plain) :
    ∃ front behind, lexemes = front ++ bracket :: behind ∧ SpellsLoosely before front ∧
      SpellsLoosely after behind := by
  have noGap := not_isLayout_of_bracket isBracket
  generalize whole : before ++ c :: after = chars at spells
  induction spells generalizing before with
  | gap blank =>
      rw [← whole] at blank
      exact absurd (List.mem_append_right before List.mem_cons_self) (blank.not_mem noGap)
  | @lexeme gap rest lexeme lexemes blank written spells inductionHypothesis =>
      obtain ⟨firstPlain, laterPlain⟩ := List.forall_mem_cons.1 plain
      obtain ⟨between, rfl, inner⟩ :=
        append_eq_append_cons_of_not_mem whole.symm (blank.not_mem noGap)
      have later : ∀ tail, between = lexeme.spelling ++ tail → rest = tail ++ c :: after →
          ∃ front behind, lexeme :: lexemes = front ++ bracket :: behind ∧
            SpellsLoosely (gap ++ between) front ∧ SpellsLoosely after behind := by
        rintro tail rfl restSplit
        obtain ⟨front, behind, rfl, frontSpells, behindSpells⟩ :=
          inductionHypothesis laterPlain restSplit.symm
        exact ⟨lexeme :: front, behind, rfl, .lexeme blank written frontSpells, behindSpells⟩
      rcases firstPlain.spelling_or_not_mem isBracket written with
        ⟨rfl, spelling⟩ | ⟨-, absent⟩
      · rw [spelling] at inner
        cases between with
        | nil =>
            injection inner with _ sameRest
            rw [List.append_nil]
            exact ⟨[], lexemes, rfl, .gap blank, sameRest ▸ spells⟩
        | cons other tail =>
            injection inner with sameOther sameRest
            exact later tail (by rw [spelling, ← sameOther]; rfl) sameRest
      · obtain ⟨tail, betweenSplit, restSplit⟩ :=
          append_eq_append_cons_of_not_mem inner absent
        exact later tail betweenSplit restSplit

end Bracket

/-! ## Texts between quotes -/

theorem SpellsLoosely.begins {c : Char} {chars : List Char} {lexemes : List Lexeme}
    (spells : SpellsLoosely (c :: chars) lexemes) (plain : Text.isLayout c = false) :
    ∃ first later tail, lexemes = first :: later ∧ first.Written ∧
      c :: chars = first.spelling ++ tail := by
  generalize whole : c :: chars = all at spells
  cases spells with
  | gap blank =>
      rw [← whole] at blank
      exact absurd List.mem_cons_self (blank.not_mem plain)
  | @lexeme gap rest lexeme lexemes blank written spells =>
      cases gap with
      | cons other gap =>
          injection whole with same _
          rw [← same] at blank
          exact absurd List.mem_cons_self (blank.not_mem plain)
      | nil => exact ⟨lexeme, lexemes, rest, rfl, written, rfl⟩

/-- A lexeme at the front of a text is the first that the text spells. -/
theorem SpellsLoosely.head?_eq {lexeme : Lexeme} (written : lexeme.Written) {rest : List Char}
    {lexemes : List Lexeme} (spells : SpellsLoosely (lexeme.spelling ++ rest) lexemes) :
    lexemes.head? = some lexeme := by
  obtain ⟨⟨c, chars, spelling, plain⟩, -⟩ := written.spelling_ends
  rw [spelling, List.cons_append] at spells
  obtain ⟨first, later, tail, rfl, firstWritten, split⟩ := spells.begins plain
  have same : lexeme.spelling ++ rest = first.spelling ++ tail := by
    rw [spelling]
    exact split
  rw [written.spelling_append_inj firstWritten same]
  rfl

theorem SpellsLoosely.begins_quoted {chars : List Char} {lexemes : List Lexeme}
    (spells : SpellsLoosely ('\'' :: chars) lexemes) :
    ∃ text later, lexemes = .quoted text :: later := by
  obtain ⟨first, later, tail, rfl, written, split⟩ := spells.begins (by decide)
  cases first with
  | quoted text => exact ⟨text, later, rfl⟩
  | endOfText => exact False.elim written
  | _ => cases split

theorem SpellsLoosely.eq_nil {lexemes : List Lexeme} (spells : SpellsLoosely [] lexemes) :
    lexemes = [] := by
  generalize whole : ([] : List Char) = chars at spells
  cases spells with
  | gap blank => rfl
  | lexeme blank written spells => simp [written.spelling_ne_nil] at whole

theorem SpellsLoosely.ends_quoted {chars : List Char} {lexemes : List Lexeme}
    (spells : SpellsLoosely chars lexemes) (final : chars.getLast? = some '\'') :
    ∃ early text, lexemes = early ++ [.quoted text] := by
  induction spells with
  | gap blank => exact absurd (List.mem_of_getLast? final) (blank.not_mem (by decide))
  | @lexeme gap rest lexeme lexemes blank written spells inductionHypothesis =>
      cases rest with
      | nil =>
          rw [spells.eq_nil]
          rw [List.append_nil, List.getLast?_append_of_ne_nil _ written.spelling_ne_nil] at final
          cases lexeme with
          | quoted text => exact ⟨[], text, rfl⟩
          | endOfText => exact False.elim written
          | _ => cases final
      | cons c rest =>
          rw [← List.append_assoc, List.getLast?_append_of_ne_nil _ (List.cons_ne_nil c rest)]
            at final
          obtain ⟨early, text, rfl⟩ := inductionHypothesis final
          exact ⟨lexeme :: early, text, rfl⟩

end RemoteRecords.Filter
