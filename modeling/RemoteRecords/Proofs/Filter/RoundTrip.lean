import RemoteRecords.Filter.Printer
import RemoteRecords.Proofs.Filter.Grammar

/-!
# Reading what was printed

The text of a value writes the value's lexemes without gaps (`toList_text`). These are a phrase for
the value exactly when it is well formed, and nothing else is ever read, so printing and reading
round-trip on the well-formed values alone (`text_roundTrips`).
-/

namespace RemoteRecords.Filter

/-! ## Well-formed values -/

/-- A term that a text can hold: the value has no blank at either end. -/
structure Term.WellFormed (term : Term) : Prop where
  field : IsField term.field
  value : IsValue term.value
  valueBegins : ∀ c ∈ term.value.toList.head?, ¬ IsBlankChar c
  valueEnds : ∀ c ∈ term.value.toList.getLast?, ¬ IsBlankChar c

def Node.WellFormed (node : Node) : Prop :=
  ∀ term ∈ node.terms, term.WellFormed

/-- A filter that a text can hold: it is empty or begins with a plain term. -/
structure WellFormed (filter : Filter) : Prop where
  first : filter = empty ∨ ∃ term later, filter.nodes = .leaf term :: later
  nodes : ∀ node ∈ filter.nodes, node.WellFormed

theorem TermPhrase.wellFormed {lexemes : List Lexeme} {term : Term}
    (phrase : TermPhrase lexemes term) : term.WellFormed := by
  cases phrase with
  | @term field written held comparator fieldValid valueValid trims =>
      obtain ⟨before, after, split, -, -, begins, ends⟩ := trims
      have heldValid : IsValue held := by
        intro c member
        have inside : c ∈ written.toList := by
          rw [split]
          exact List.mem_append_right before (List.mem_append_left after member)
        exact valueValid c inside
      exact ⟨fieldValid, heldValid, begins, ends⟩

theorem NodePhrase.wellFormed {lexemes : List Lexeme} {node : Node}
    (phrase : NodePhrase lexemes node) : node.WellFormed := by
  intro term member
  cases phrase with
  | leaf termPhrase =>
      rw [List.mem_singleton.1 member]
      exact termPhrase.wellFormed
  | binary firstPhrase secondPhrase =>
      rcases List.mem_cons.1 member with rfl | later
      · exact firstPhrase.wellFormed
      · rw [List.mem_singleton.1 later]
        exact secondPhrase.wellFormed
  | negation termPhrase =>
      rw [List.mem_singleton.1 member]
      exact termPhrase.wellFormed

theorem NodesPhrase.wellFormed {lexemes : List Lexeme} {nodes : List Node}
    (phrase : NodesPhrase lexemes nodes) : ∀ node ∈ nodes, node.WellFormed := by
  induction phrase with
  | none =>
      intro node member
      cases member
  | more firstPhrase _ inductionHypothesis =>
      intro node member
      rcases List.mem_cons.1 member with rfl | later
      · exact firstPhrase.wellFormed
      · exact inductionHypothesis node later

theorem FilterPhrase.wellFormed {lexemes : List Lexeme} {filter : Filter}
    (phrase : FilterPhrase lexemes filter) : filter.WellFormed := by
  have leafWellFormed : ∀ {written : List Lexeme} {term : Term}, TermPhrase written term →
      (Node.leaf term).WellFormed :=
    fun termPhrase => NodePhrase.wellFormed (.leaf termPhrase)
  cases phrase with
  | nothing =>
      refine ⟨Or.inl rfl, ?_⟩
      intro node member
      cases member
  | bare termPhrase =>
      refine ⟨Or.inr ⟨_, [], rfl⟩, ?_⟩
      intro node member
      rw [List.mem_singleton.1 member]
      exact leafWellFormed termPhrase
  | list firstPhrase laterPhrase =>
      refine ⟨Or.inr ⟨_, _, rfl⟩, ?_⟩
      intro node member
      rcases List.mem_cons.1 member with rfl | later
      · exact leafWellFormed firstPhrase
      · exact laterPhrase.wellFormed node later

/-! ## Lexemes of values -/

def Term.lexemes (term : Term) : List Lexeme :=
  [.openParen, .quoted term.field, .comma, .quoted term.comparator.text, .comma,
    .quoted term.value, .closeParen]

def Node.lexemes : Node → List Lexeme
  | .leaf term => term.lexemes
  | .binary connective left right =>
      .quoted connective.text :: .comma :: (left.lexemes ++ .comma :: right.lexemes)
  | .negation operand => .quoted "!" :: .comma :: operand.lexemes

def moreLexemes (nodes : List Node) : List Lexeme :=
  nodes.flatMap fun node => .comma :: node.lexemes

def lexemes (filter : Filter) : List Lexeme :=
  match filter.nodes with
  | [] => []
  | first :: later => .openBracket :: (first.lexemes ++ (moreLexemes later ++ [.closeBracket]))

theorem Term.WellFormed.phrase {term : Term} (wellFormed : term.WellFormed) :
    TermPhrase term.lexemes term := by
  have trims : Text.Trims IsBlankChar term.value.toList term.value.toList :=
    ⟨[], [], by simp, by simp, by simp, wellFormed.valueBegins, wellFormed.valueEnds⟩
  exact .term wellFormed.field wellFormed.value trims

theorem Node.WellFormed.phrase {node : Node} (wellFormed : node.WellFormed) :
    NodePhrase node.lexemes node := by
  cases node with
  | leaf term =>
      have termWellFormed : term.WellFormed := wellFormed term (by simp [Node.terms])
      exact .leaf termWellFormed.phrase
  | binary connective left right =>
      have leftWellFormed : left.WellFormed := wellFormed left (by simp [Node.terms])
      have rightWellFormed : right.WellFormed := wellFormed right (by simp [Node.terms])
      exact .binary leftWellFormed.phrase rightWellFormed.phrase
  | negation operand =>
      have operandWellFormed : operand.WellFormed := wellFormed operand (by simp [Node.terms])
      exact .negation operandWellFormed.phrase

theorem nodesPhrase_moreLexemes {nodes : List Node}
    (wellFormed : ∀ node ∈ nodes, node.WellFormed) : NodesPhrase (moreLexemes nodes) nodes := by
  induction nodes with
  | nil => exact .none
  | cons node nodes inductionHypothesis =>
      have first : node.WellFormed := wellFormed node List.mem_cons_self
      have later : ∀ other ∈ nodes, other.WellFormed :=
        fun other member => wellFormed other (List.mem_cons_of_mem _ member)
      exact .more first.phrase (inductionHypothesis later)

theorem WellFormed.phrase {filter : Filter} (wellFormed : filter.WellFormed) :
    FilterPhrase filter.lexemes filter := by
  obtain ⟨first, nodes⟩ := wellFormed
  rcases first with rfl | ⟨term, later, shape⟩
  · exact .nothing
  · obtain ⟨allNodes⟩ := filter
    subst shape
    have termWellFormed : term.WellFormed :=
      nodes (.leaf term) List.mem_cons_self term (by simp [Node.terms])
    have laterWellFormed : ∀ node ∈ later, node.WellFormed :=
      fun node member => nodes node (List.mem_cons_of_mem _ member)
    exact .list termWellFormed.phrase (nodesPhrase_moreLexemes laterWellFormed)

/-! ## The printed characters -/

theorem toList_quote (text : String) : (quote text).toList = (Lexeme.quoted text).spelling := by
  simp [quote, Lexeme.spelling]

theorem Term.toList_text (term : Term) : term.text.toList = spellings term.lexemes := by
  simp [Term.text, Term.lexemes, spellings, toList_quote, Lexeme.spelling]

theorem Node.toList_text (node : Node) : node.text.toList = spellings node.lexemes := by
  cases node with
  | leaf term => exact term.toList_text
  | binary connective left right =>
      simp [Node.text, Node.lexemes, spellings_cons, spellings_append, toList_quote,
        Term.toList_text, Lexeme.spelling]
  | negation operand =>
      simp [Node.text, Node.lexemes, spellings_cons, toList_quote, Term.toList_text,
        negationText, Lexeme.spelling]

theorem toList_joinWith (separator text : String) (texts : List String) :
    (Text.joinWith separator (text :: texts)).toList =
      text.toList ++ texts.flatMap fun later => separator.toList ++ later.toList := by
  induction texts generalizing text with
  | nil => simp [Text.joinWith]
  | cons next texts inductionHypothesis =>
      have joined : Text.joinWith separator (text :: next :: texts) =
          text ++ separator ++ Text.joinWith separator (next :: texts) := rfl
      rw [joined, String.toList_append, String.toList_append, inductionHypothesis]
      simp

theorem spellings_moreLexemes (nodes : List Node) :
    spellings (moreLexemes nodes) = nodes.flatMap fun node => ',' :: node.text.toList := by
  induction nodes with
  | nil => rfl
  | cons node nodes inductionHypothesis =>
      have first : moreLexemes (node :: nodes) =
          .comma :: (node.lexemes ++ moreLexemes nodes) := rfl
      rw [first, spellings_cons, spellings_append, inductionHypothesis, ← node.toList_text]
      rfl

theorem toList_text (filter : Filter) : filter.text.toList = spellings filter.lexemes := by
  obtain ⟨nodes⟩ := filter
  cases nodes with
  | nil => rfl
  | cons first later =>
      have printed : text ⟨first :: later⟩ =
          "[" ++ Text.joinWith "," (first.text :: later.map Node.text) ++ "]" := rfl
      have shape : lexemes ⟨first :: later⟩ =
          .openBracket :: (first.lexemes ++ (moreLexemes later ++ [.closeBracket])) := rfl
      rw [printed, shape, String.toList_append, String.toList_append, toList_joinWith,
        spellings_cons, spellings_append, spellings_append, spellings_moreLexemes,
        ← first.toList_text, List.flatMap_map]
      simp [spellings, Lexeme.spelling]

/-! ## Round trips -/

/-- Reading undoes printing on the well-formed values and on no other; only these are ever read, so
what is read settles after one printing. -/
structure RoundTrips {α : Type} (read : String → Except SyntaxError α) (print : α → String)
    (wellFormed : α → Prop) : Prop where
  read_print_iff : ∀ value, read (print value) = .ok value ↔ wellFormed value
  wellFormed_of_read : ∀ written value, read written = .ok value → wellFormed value
  settles : ∀ written value, read written = .ok value → read (print value) = .ok value ∧
    ∀ again, read (print value) = .ok again → print again = print value

theorem roundTrips_of_phrases {α : Type} {read : String → Except SyntaxError α}
    {print : α → String} {wellFormed : α → Prop} {Phrase : List Lexeme → α → Prop}
    {lexemesOf : α → List Lexeme}
    (reads : ∀ {text : String} {value : α}, read text = .ok value ↔
      ∃ lexemes, Spells text.toList lexemes ∧ Phrase lexemes value)
    (sound : ∀ {lexemes : List Lexeme} {value : α}, Phrase lexemes value → wellFormed value)
    (phrase : ∀ {value : α}, wellFormed value → Phrase (lexemesOf value) value)
    (written : ∀ {lexemes : List Lexeme} {value : α}, Phrase lexemes value →
      ∀ lexeme ∈ lexemes, lexeme.Written)
    (printed : ∀ value, (print value).toList = spellings (lexemesOf value)) :
    RoundTrips read print wellFormed := by
  have wellFormedOfRead : ∀ text value, read text = .ok value → wellFormed value := by
    intro text value run
    obtain ⟨lexemes, -, valuePhrase⟩ := reads.1 run
    exact sound valuePhrase
  have readPrint : ∀ value, wellFormed value → read (print value) = .ok value := by
    intro value valid
    have spells := spells_spellings (written (phrase valid))
    rw [← printed value] at spells
    exact reads.2 ⟨lexemesOf value, spells, phrase valid⟩
  refine ⟨?_, wellFormedOfRead, ?_⟩
  · intro value
    constructor
    · exact wellFormedOfRead (print value) value
    · exact readPrint value
  · intro text value run
    have settled := readPrint value (wellFormedOfRead text value run)
    refine ⟨settled, ?_⟩
    intro again runAgain
    rw [settled, Except.ok.injEq] at runAgain
    rw [runAgain]

/-- Filters, nodes and terms are read back from their texts exactly when they are well formed, and
every filter, node or term that is read from a text is. -/
theorem text_roundTrips :
    RoundTrips parse text WellFormed ∧ RoundTrips parseNode Node.text Node.WellFormed ∧
      RoundTrips parseTerm Term.text Term.WellFormed :=
  ⟨roundTrips_of_phrases parse_iff_phrase FilterPhrase.wellFormed WellFormed.phrase
      FilterPhrase.written toList_text,
    roundTrips_of_phrases parseNode_iff_phrase NodePhrase.wellFormed Node.WellFormed.phrase
      NodePhrase.written Node.toList_text,
    roundTrips_of_phrases parseTerm_iff_phrase TermPhrase.wellFormed Term.WellFormed.phrase
      TermPhrase.written Term.toList_text⟩

end RemoteRecords.Filter
