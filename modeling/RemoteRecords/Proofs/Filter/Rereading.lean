import RemoteRecords.Proofs.Filter.Marks
import RemoteRecords.Proofs.Filter.RoundTrip

/-!
# Texts of arbitrary nodes

Nothing in the text of a term or a node is escaped, but the number of its quotes is that of its
kind: a quote too many in a field or a value leaves no reading. So the text of a node is read as
this node with its values trimmed, or not at all (`text_rereads`).
-/

namespace RemoteRecords.Filter

/-! ## Phrases as lexemes of values -/

/-- A term with a field and a value that a text can hold. -/
structure Term.Spellable (term : Term) : Prop where
  field : IsField term.field
  value : IsValue term.value

def Term.trimmed (term : Term) : Term := { term with value := Text.trim term.value }

def Node.trimmed : Node → Node
  | .leaf term => .leaf term.trimmed
  | .binary connective left right => .binary connective left.trimmed right.trimmed
  | .negation operand => .negation operand.trimmed

theorem termPhrase_iff {lexemes : List Lexeme} {read : Term} :
    TermPhrase lexemes read ↔
      ∃ written : Term, lexemes = written.lexemes ∧ written.Spellable ∧ read = written.trimmed := by
  constructor
  · rintro @⟨field, text, held, comparator, fieldValid, valueValid, trims⟩
    refine ⟨⟨field, comparator, text⟩, rfl, ⟨fieldValid, valueValid⟩, ?_⟩
    rw [Term.trimmed, (trim_eq_iff valueValid).2 trims]
  · rintro ⟨written, rfl, spellable, rfl⟩
    exact .term spellable.field spellable.value ((trim_eq_iff spellable.value).1 rfl)

theorem nodePhrase_iff {lexemes : List Lexeme} {read : Node} :
    NodePhrase lexemes read ↔
      ∃ written : Node, lexemes = written.lexemes ∧ (∀ term ∈ written.terms, term.Spellable) ∧
        read = written.trimmed := by
  constructor
  · intro phrase
    cases phrase with
    | leaf termPhrase =>
        obtain ⟨written, rfl, spellable, rfl⟩ := termPhrase_iff.1 termPhrase
        exact ⟨.leaf written, rfl, by simp [Node.terms, spellable], rfl⟩
    | @binary _ _ connective _ _ firstPhrase secondPhrase =>
        obtain ⟨left, rfl, leftSpellable, rfl⟩ := termPhrase_iff.1 firstPhrase
        obtain ⟨right, rfl, rightSpellable, rfl⟩ := termPhrase_iff.1 secondPhrase
        exact ⟨.binary connective left right, rfl,
          by simp [Node.terms, leftSpellable, rightSpellable], rfl⟩
    | negation termPhrase =>
        obtain ⟨written, rfl, spellable, rfl⟩ := termPhrase_iff.1 termPhrase
        exact ⟨.negation written, rfl, by simp [Node.terms, spellable], rfl⟩
  · rintro ⟨written, rfl, spellable, rfl⟩
    have phrases : ∀ term ∈ written.terms, TermPhrase term.lexemes term.trimmed :=
      fun term member => termPhrase_iff.2 ⟨term, rfl, spellable term member, rfl⟩
    cases written with
    | leaf term => exact .leaf (phrases term (by simp [Node.terms]))
    | binary connective left right =>
        exact .binary (phrases left (by simp [Node.terms])) (phrases right (by simp [Node.terms]))
    | negation operand => exact .negation (phrases operand (by simp [Node.terms]))

/-! ## Values from their lexemes -/

theorem Comparator.text_inj {first second : Comparator} :
    first.text = second.text ↔ first = second := by
  refine ⟨fun same => ?_, congrArg Comparator.text⟩
  have found := Comparator.ofText?_text first
  rw [same, Comparator.ofText?_text] at found
  exact (Option.some.inj found).symm

theorem Connective.text_inj {first second : Connective} :
    first.text = second.text ↔ first = second := by
  cases first <;> cases second <;> decide

theorem Connective.text_ne_negation (connective : Connective) : connective.text ≠ "!" := by
  cases connective <;> decide

theorem Term.lexemes_append_inj {first second : Term} {left right : List Lexeme} :
    first.lexemes ++ left = second.lexemes ++ right ↔ first = second ∧ left = right := by
  cases first
  cases second
  simp [Term.lexemes, Comparator.text_inj, and_assoc]

/-- A term, a connective and a negation begin differently, and a node ends with its last term. -/
theorem Node.lexemes_append_inj {first second : Node} {left right : List Lexeme} :
    first.lexemes ++ left = second.lexemes ++ right ↔ first = second ∧ left = right := by
  have opens : ∀ term : Term, ∃ later, term.lexemes = .openParen :: later := fun _ => ⟨_, rfl⟩
  cases first with
  | leaf term =>
      obtain ⟨later, shape⟩ := opens term
      cases second with
      | leaf other => simp [Node.lexemes, Term.lexemes_append_inj]
      | _ => simp [Node.lexemes, shape]
  | binary connective firstLeft firstRight =>
      cases second with
      | leaf other =>
          obtain ⟨later, shape⟩ := opens other
          simp [Node.lexemes, shape]
      | binary => simp [Node.lexemes, Term.lexemes_append_inj, Connective.text_inj, and_assoc]
      | negation => simp [Node.lexemes, connective.text_ne_negation]
  | negation operand =>
      cases second with
      | leaf other =>
          obtain ⟨later, shape⟩ := opens other
          simp [Node.lexemes, shape]
      | binary connective => simp [Node.lexemes, connective.text_ne_negation.symm]
      | negation => simp [Node.lexemes, Term.lexemes_append_inj]

theorem Spells.unique {chars : List Char} {lexemes others : List Lexeme}
    (spells : Spells chars lexemes) (again : Spells chars others) : lexemes = others := by
  obtain ⟨text, rfl⟩ : ∃ text : String, text.toList = chars :=
    ⟨String.ofList chars, String.toList_ofList⟩
  obtain ⟨tokens, tokenized, same⟩ := spells.tokenize
  obtain ⟨otherTokens, otherTokenized, otherSame⟩ := again.tokenize
  rw [tokenized, Except.ok.injEq] at otherTokenized
  rw [← otherTokenized, same] at otherSame
  exact List.append_cancel_right otherSame

/-! ## Written lexemes -/

/-- The characters of the field and the value of a term. -/
def Term.inside (term : Term) : List Char := term.field.toList ++ term.value.toList

theorem Term.written_of_unquoted {term : Term} (unquoted : '\'' ∉ term.inside) :
    ∀ lexeme ∈ term.lexemes, lexeme.Written := by
  obtain ⟨field, value⟩ := not_or.1 (mt List.mem_append.2 unquoted)
  simp [Term.lexemes, Lexeme.Written, field, value, term.comparator.no_quote]

/-- What holds of commas, of the marks and of the lexemes of all terms holds of those of the
node. -/
theorem Node.forall_mem_lexemes {node : Node} {P : Lexeme → Prop} (comma : P .comma)
    (connectives : ∀ connective : Connective, P (.quoted connective.text))
    (negation : P (.quoted "!")) (terms : ∀ term ∈ node.terms, ∀ lexeme ∈ term.lexemes, P lexeme) :
    ∀ lexeme ∈ node.lexemes, P lexeme := by
  cases node with
  | leaf term => exact terms term (by simp [Node.terms])
  | binary connective left right =>
      simp only [Node.lexemes, List.forall_mem_cons, List.forall_mem_append]
      exact ⟨connectives connective, comma, terms left (by simp [Node.terms]), comma,
        terms right (by simp [Node.terms])⟩
  | negation operand =>
      simp only [Node.lexemes, List.forall_mem_cons]
      exact ⟨negation, comma, terms operand (by simp [Node.terms])⟩

theorem Node.written_of_unquoted {node : Node}
    (unquoted : ∀ term ∈ node.terms, '\'' ∉ term.inside) :
    ∀ lexeme ∈ node.lexemes, lexeme.Written :=
  Node.forall_mem_lexemes trivial Connective.no_quote negation_written
    fun term member => Term.written_of_unquoted (unquoted term member)

/-! ## The number of quotes -/

theorem Term.countP_isQuoted (term : Term) : term.lexemes.countP Lexeme.isQuoted = 3 := rfl

/-- A character that is not in the comparator stands in the text of a term as often as inside of it
and in the text of the empty term. -/
theorem Term.count_spellings {term : Term} {c : Char} (absent : c ∉ term.comparator.text.toList) :
    (spellings term.lexemes).count c = "('','','')".toList.count c + term.inside.count c := by
  have comparator := List.count_eq_zero.2 absent
  simp [Term.lexemes, spellings, Lexeme.spelling, List.count_append, List.count_cons, comparator,
    Term.inside]
  omega

theorem Term.count_quote (term : Term) :
    (spellings term.lexemes).count '\'' =
      2 * term.lexemes.countP Lexeme.isQuoted + term.inside.count '\'' :=
  Term.count_spellings term.comparator.no_quote

theorem Node.count_quote (node : Node) :
    (spellings node.lexemes).count '\'' =
      2 * node.lexemes.countP Lexeme.isQuoted + (node.terms.flatMap Term.inside).count '\'' := by
  cases node with
  | leaf term => simp [Node.lexemes, Node.terms, Term.count_quote]
  | binary connective left right =>
      have mark := List.count_eq_zero.2 connective.no_quote
      simp [Node.lexemes, spellings_cons, spellings_append, Lexeme.spelling, Lexeme.isQuoted,
        List.countP_cons, Term.count_quote, List.count_append, mark, Node.terms]
      omega
  | negation operand =>
      simp [Node.lexemes, spellings_cons, Lexeme.spelling, Lexeme.isQuoted, List.countP_cons,
        Term.count_quote, Node.terms]
      omega

theorem Node.exists_first (node : Node) :
    ∃ first rest, first.Written ∧ node.lexemes = first :: rest := by
  cases node with
  | leaf term => exact ⟨.openParen, _, trivial, rfl⟩
  | binary connective left right =>
      exact ⟨.quoted connective.text, _, connective.no_quote, rfl⟩
  | negation operand => exact ⟨.quoted "!", _, negation_written, rfl⟩

/-- The first lexeme tells the kind of a node, and this the number of its quoted texts. -/
theorem Node.countP_isQuoted_eq {first second : Node}
    (same : first.lexemes.head? = second.lexemes.head?) :
    first.lexemes.countP Lexeme.isQuoted = second.lexemes.countP Lexeme.isQuoted := by
  have opens : ∀ term : Term, term.lexemes.head? = some .openParen := fun _ => rfl
  cases first with
  | leaf term =>
      cases second with
      | leaf other => rfl
      | _ => simp [Node.lexemes, opens] at same
  | binary connective =>
      cases second with
      | leaf other => simp [Node.lexemes, opens] at same
      | binary => simp [Node.lexemes, List.countP_cons, Lexeme.isQuoted, Term.countP_isQuoted]
      | negation => simp [Node.lexemes, connective.text_ne_negation] at same
  | negation operand =>
      cases second with
      | leaf other => simp [Node.lexemes, opens] at same
      | binary connective => simp [Node.lexemes, connective.text_ne_negation.symm] at same
      | negation => simp [Node.lexemes, List.countP_cons, Lexeme.isQuoted, Term.countP_isQuoted]

/-- A text of a node that can be read has no quote in a field or a value. -/
theorem Node.unquoted_of_spells {node written : Node}
    (spells : Spells node.text.toList written.lexemes) :
    ∀ term ∈ node.terms, '\'' ∉ term.inside := by
  rw [node.toList_text] at spells
  obtain ⟨first, rest, firstWritten, shape⟩ := node.exists_first
  have sameFirst : written.lexemes.head? = node.lexemes.head? := by
    have loosely := spells.loosely
    rw [shape, spellings_cons] at loosely
    rw [loosely.head?_eq firstWritten, shape]
    rfl
  have count := spells.loosely.count_quote
  rw [node.count_quote, Node.countP_isQuoted_eq sameFirst] at count
  have none : (node.terms.flatMap Term.inside).count '\'' = 0 := by omega
  intro term member inside
  exact List.count_eq_zero.1 none (List.mem_flatMap.2 ⟨term, member, inside⟩)

/-! ## Rereading -/

theorem parseNode_text_iff {node read : Node} :
    parseNode node.text = .ok read ↔
      (∀ term ∈ node.terms, term.Spellable) ∧ read = node.trimmed := by
  simp only [parseNode_iff_phrase, nodePhrase_iff]
  constructor
  · rintro ⟨_, spells, written, rfl, spellable, rfl⟩
    -- Without a quote inside, the text also spells the lexemes of the node itself.
    have own : Spells node.text.toList node.lexemes := by
      rw [node.toList_text]
      exact spells_spellings (Node.written_of_unquoted (Node.unquoted_of_spells spells))
    have same := congrArg (· ++ []) (spells.unique own)
    rw [(Node.lexemes_append_inj.1 same).1] at spellable ⊢
    exact ⟨spellable, rfl⟩
  · rintro ⟨spellable, rfl⟩
    have phrase : NodePhrase node.lexemes node.trimmed :=
      nodePhrase_iff.2 ⟨node, rfl, spellable, rfl⟩
    rw [node.toList_text]
    exact ⟨node.lexemes, spells_spellings phrase.written, node, rfl, spellable, rfl⟩

theorem parseTerm_text_iff {term read : Term} :
    parseTerm term.text = .ok read ↔ term.Spellable ∧ read = term.trimmed := by
  have asNode : parseTerm term.text = .ok read ↔
      parseNode (Node.leaf term).text = .ok (.leaf read) := by
    rw [parseTerm_iff_phrase, parseNode_iff_phrase]
    have phrases : ∀ lexemes, TermPhrase lexemes read ↔ NodePhrase lexemes (.leaf read) :=
      fun lexemes => ⟨.leaf, fun (.leaf termPhrase) => termPhrase⟩
    simp only [phrases]
    rfl
  rw [asNode, parseNode_text_iff]
  simp [Node.terms, Node.trimmed]

/-- A field or a value of the term holds a quote or a comma. -/
def Term.Delimited (term : Term) : Prop :=
  ('\'' ∈ term.field.toList ∨ ',' ∈ term.field.toList) ∨
    '\'' ∈ term.value.toList ∨ ',' ∈ term.value.toList

theorem Term.Spellable.not_delimited {term : Term} (spellable : term.Spellable) :
    ¬ term.Delimited := by
  have comma : ¬ IsWordChar ',' ∧ ¬ IsBlankChar ',' := by
    rw [← isWord_iff, ← isAsciiBlank_iff]
    decide
  rintro ((member | member) | (member | member))
  · exact spellable.field.no_quote member
  · exact comma.1 (spellable.field.2 _ member)
  · exact spellable.value.no_quote member
  · exact (spellable.value _ member).elim comma.1 comma.2

/-- A text is read as the value it was printed from, with each value of a term trimmed, and only
when all fields and values can be spelled. So one with a quote or a comma is not read. -/
structure Rereads {α : Type} (read : String → Except SyntaxError α) (print : α → String)
    (terms : α → List Term) (trimmed : α → α) : Prop where
  read_print_iff : ∀ value again, read (print value) = .ok again ↔
    (∀ term ∈ terms value, term.Spellable) ∧ again = trimmed value
  rejected : ∀ value, (∃ term ∈ terms value, term.Delimited) →
    ∃ error, read (print value) = .error error

theorem rereads_of_read_print_iff {α : Type} {read : String → Except SyntaxError α}
    {print : α → String} {terms : α → List Term} {trimmed : α → α}
    (iff : ∀ value again, read (print value) = .ok again ↔
      (∀ term ∈ terms value, term.Spellable) ∧ again = trimmed value) :
    Rereads read print terms trimmed := by
  refine ⟨iff, ?_⟩
  rintro value ⟨term, member, delimited⟩
  cases run : read (print value) with
  | error error => exact ⟨error, rfl⟩
  | ok again => exact absurd delimited (((iff value again).1 run).1 term member).not_delimited

/-- Texts of nodes and terms are read as what they were printed from, or rejected. -/
theorem text_rereads :
    Rereads parseNode Node.text Node.terms Node.trimmed ∧
      Rereads parseTerm Term.text (fun term => [term]) Term.trimmed := by
  constructor
  · exact rereads_of_read_print_iff fun _ _ => parseNode_text_iff
  · refine rereads_of_read_print_iff fun _ _ => ?_
    rw [parseTerm_text_iff, List.forall_mem_singleton]

end RemoteRecords.Filter
