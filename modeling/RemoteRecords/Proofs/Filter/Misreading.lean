import RemoteRecords.Proofs.Filter.Rereading

/-!
# Texts of arbitrary filters

In a list of nodes the count of quotes settles nothing: a value that closes its own quote and
parenthesis can go on with further terms. Such a value brings a parenthesis for each term that it
adds, and a field or a value that is misread holds six quotes or more. So a filter is misread
exactly when its text is read with more terms than it has (`neverMisread_iff`).
-/

namespace RemoteRecords.Filter

/-- The terms of a filter in the order of writing. -/
def terms (filter : Filter) : List Term := filter.nodes.flatMap Node.terms

def trimmed (filter : Filter) : Filter := ⟨filter.nodes.map Node.trimmed⟩

/-! ## Phrases as lexemes of filters -/

theorem NodesPhrase.eq_moreLexemes {lexemes : List Lexeme} {read : List Node}
    (phrase : NodesPhrase lexemes read) :
    ∃ written : List Node, lexemes = moreLexemes written ∧
      (∀ term ∈ written.flatMap Node.terms, term.Spellable) ∧ read = written.map Node.trimmed := by
  induction phrase with
  | none => exact ⟨[], rfl, by simp, rfl⟩
  | more nodePhrase _ inductionHypothesis =>
      obtain ⟨node, rfl, nodeSpellable, rfl⟩ := nodePhrase_iff.1 nodePhrase
      obtain ⟨nodes, rfl, nodesSpellable, rfl⟩ := inductionHypothesis
      refine ⟨node :: nodes, rfl, ?_, rfl⟩
      rw [List.flatMap_cons, List.forall_mem_append]
      exact ⟨nodeSpellable, nodesSpellable⟩

/-- A text that does not begin with a parenthesis is read as a list of nodes or as nothing. -/
theorem FilterPhrase.eq_lexemes {lexemes : List Lexeme} {read : Filter}
    (phrase : FilterPhrase lexemes read) (first : lexemes.head? ≠ some .openParen) :
    ∃ written : Filter, lexemes = written.lexemes ∧
      (∀ term ∈ written.terms, term.Spellable) ∧ read = written.trimmed := by
  cases phrase with
  | nothing => exact ⟨empty, rfl, by simp [terms, empty], rfl⟩
  | bare termPhrase =>
      obtain ⟨later, rfl⟩ := termPhrase.first_eq
      exact absurd rfl first
  | list termPhrase nodesPhrase =>
      obtain ⟨term, rfl, termSpellable, rfl⟩ := termPhrase_iff.1 termPhrase
      obtain ⟨nodes, rfl, nodesSpellable, rfl⟩ := nodesPhrase.eq_moreLexemes
      refine ⟨⟨.leaf term :: nodes⟩, rfl, ?_, rfl⟩
      rw [terms, List.flatMap_cons, List.forall_mem_append]
      exact ⟨List.forall_mem_singleton.2 termSpellable, nodesSpellable⟩

theorem moreLexemes_cons (node : Node) (nodes : List Node) :
    moreLexemes (node :: nodes) = .comma :: (node.lexemes ++ moreLexemes nodes) := rfl

theorem lexemes_cons (node : Node) (nodes : List Node) :
    lexemes ⟨node :: nodes⟩ =
      .openBracket :: (node.lexemes ++ (moreLexemes nodes ++ [.closeBracket])) := rfl

theorem moreLexemes_inj {left right : List Node} (same : moreLexemes left = moreLexemes right) :
    left = right := by
  induction left generalizing right with
  | nil =>
      cases right with
      | nil => rfl
      | cons => cases same
  | cons node nodes inductionHypothesis =>
      cases right with
      | nil => cases same
      | cons other others =>
          rw [moreLexemes_cons, moreLexemes_cons, List.cons.injEq,
            Node.lexemes_append_inj] at same
          rw [same.2.1, inductionHypothesis same.2.2]

theorem lexemes_inj {left right : Filter} (same : left.lexemes = right.lexemes) :
    left = right := by
  obtain ⟨leftNodes⟩ := left
  obtain ⟨rightNodes⟩ := right
  cases leftNodes with
  | nil =>
      cases rightNodes with
      | nil => rfl
      | cons => cases same
  | cons node nodes =>
      cases rightNodes with
      | nil => cases same
      | cons other others =>
          rw [lexemes_cons, lexemes_cons, List.cons.injEq, Node.lexemes_append_inj] at same
          rw [same.2.1, moreLexemes_inj (List.append_cancel_right same.2.2)]

/-! ## Lexemes of all nodes -/

/-- What holds of brackets and commas, of the marks and of the lexemes of all terms holds of those
of the filter. -/
theorem forall_mem_lexemes {filter : Filter} {P : Lexeme → Prop} (openBracket : P .openBracket)
    (closeBracket : P .closeBracket) (comma : P .comma)
    (connectives : ∀ connective : Connective, P (.quoted connective.text))
    (negation : P (.quoted "!"))
    (terms : ∀ term ∈ filter.terms, ∀ lexeme ∈ term.lexemes, P lexeme) :
    ∀ lexeme ∈ filter.lexemes, P lexeme := by
  have ofNodes : ∀ node ∈ filter.nodes, ∀ lexeme ∈ node.lexemes, P lexeme :=
    fun node nodeMember => Node.forall_mem_lexemes comma connectives negation
      fun term member => terms term (List.mem_flatMap.2 ⟨node, nodeMember, member⟩)
  obtain ⟨nodes⟩ := filter
  cases nodes with
  | nil =>
      intro lexeme member
      cases member
  | cons first later =>
      obtain ⟨ofFirst, ofLater⟩ := List.forall_mem_cons.1 ofNodes
      have more : ∀ lexeme ∈ moreLexemes later, P lexeme := by
        simp only [moreLexemes, List.forall_mem_flatMap, List.forall_mem_cons]
        exact fun node member => ⟨comma, ofLater node member⟩
      simp only [lexemes_cons, List.forall_mem_cons, List.forall_mem_append]
      exact ⟨openBracket, ofFirst, more, closeBracket, List.forall_mem_nil _⟩

theorem written_of_unquoted {filter : Filter}
    (unquoted : ∀ term ∈ filter.terms, '\'' ∉ term.inside) :
    ∀ lexeme ∈ filter.lexemes, lexeme.Written :=
  forall_mem_lexemes trivial trivial trivial Connective.no_quote negation_written
    fun term member => Term.written_of_unquoted (unquoted term member)

theorem bracket?_eq_none_of_valid {c : Char} (valid : IsWordChar c ∨ IsBlankChar c) :
    bracket? c = none := by
  rw [← isWord_iff, ← isAsciiBlank_iff] at valid
  have different : ∀ other : Char,
      ¬ (Text.isWord other = true ∨ Text.isAsciiBlank other = true) → c ≠ other := by
    rintro other invalid rfl
    exact invalid valid
  simp [bracket?, different '[' (by decide), different ']' (by decide), different '(' (by decide),
    different ')' (by decide), different ',' (by decide)]

theorem plain_of_all {text : String}
    (all : (text.toList.all fun c => (bracket? c).isNone) = true) : (Lexeme.quoted text).Plain :=
  fun c member => Option.isNone_iff_eq_none.1 (List.all_eq_true.1 all c member)

theorem Term.Spellable.plain {term : Term} (spellable : term.Spellable) :
    ∀ lexeme ∈ term.lexemes, lexeme.Plain := by
  have field : (Lexeme.quoted term.field).Plain :=
    fun c member => bracket?_eq_none_of_valid (.inl (spellable.field.2 c member))
  have value : (Lexeme.quoted term.value).Plain :=
    fun c member => bracket?_eq_none_of_valid (spellable.value c member)
  have comparator : (Lexeme.quoted term.comparator.text).Plain :=
    plain_of_all (by cases term.comparator <;> decide)
  simp only [Term.lexemes, List.forall_mem_cons]
  exact ⟨trivial, field, trivial, comparator, trivial, value, trivial, List.forall_mem_nil _⟩

theorem plain_of_spellable {filter : Filter}
    (spellable : ∀ term ∈ filter.terms, term.Spellable) :
    ∀ lexeme ∈ filter.lexemes, lexeme.Plain := by
  have connectives : ∀ connective : Connective, (Lexeme.quoted connective.text).Plain :=
    fun connective => plain_of_all (by cases connective <;> decide)
  have negation : (Lexeme.quoted "!").Plain := plain_of_all (by decide)
  exact forall_mem_lexemes trivial trivial trivial connectives negation
    fun term member => (spellable term member).plain

/-! ## Parentheses around terms -/

/-- Behind each opening lexeme stand three quoted texts with commas between them, and a closing
one. -/
def Framed (opening closing : Lexeme) (lexemes : List Lexeme) : Prop :=
  ∀ before after, lexemes = before ++ opening :: after →
    ∃ first second third rest, after =
      .quoted first :: .comma :: .quoted second :: .comma :: .quoted third :: closing :: rest

theorem Framed.of_not_mem {opening closing : Lexeme} {lexemes : List Lexeme}
    (absent : opening ∉ lexemes) : Framed opening closing lexemes := by
  rintro before after rfl
  exact absurd (by simp) absent

theorem Framed.append {opening closing : Lexeme} {left right : List Lexeme}
    (leftFramed : Framed opening closing left) (rightFramed : Framed opening closing right) :
    Framed opening closing (left ++ right) := by
  intro before after split
  rcases List.append_eq_append_iff.1 split with ⟨between, rfl, rest⟩ | ⟨between, shape, rest⟩
  · exact rightFramed between after rest
  · cases between with
    | nil => exact rightFramed [] after rest.symm
    | cons lexeme between =>
        injection rest with same rest
        rw [← same] at shape
        obtain ⟨first, second, third, later, rfl⟩ := leftFramed before between shape
        exact ⟨first, second, third, later ++ right, rest⟩

/-- The lexemes are framed by parentheses, read from the front and from the back. -/
structure Bracketed (lexemes : List Lexeme) : Prop where
  forward : Framed .openParen .closeParen lexemes
  backward : Framed .closeParen .openParen lexemes.reverse

theorem Bracketed.append {left right : List Lexeme} (leftBracketed : Bracketed left)
    (rightBracketed : Bracketed right) : Bracketed (left ++ right) := by
  refine ⟨leftBracketed.forward.append rightBracketed.forward, ?_⟩
  rw [List.reverse_append]
  exact rightBracketed.backward.append leftBracketed.backward

theorem Bracketed.of_not_mem {lexemes : List Lexeme} (noOpening : .openParen ∉ lexemes)
    (noClosing : .closeParen ∉ lexemes) : Bracketed lexemes :=
  ⟨.of_not_mem noOpening, .of_not_mem (by rwa [List.mem_reverse])⟩

theorem framed_term {opening closing : Lexeme} (notQuoted : opening.isQuoted = false)
    (notComma : opening ≠ .comma) (different : opening ≠ closing) (first second third : String) :
    Framed opening closing [opening, .quoted first, .comma, .quoted second, .comma, .quoted third,
      closing] := by
  have absent : opening ∉ [.quoted first, .comma, .quoted second, .comma, .quoted third,
      closing] := by
    have notText : ∀ text, opening ≠ .quoted text := by
      rintro text rfl
      cases notQuoted
    simp [notText, notComma, different]
  intro before after split
  cases before with
  | nil =>
      injection split with _ split
      exact ⟨first, second, third, [], split.symm⟩
  | cons lexeme before =>
      injection split with _ split
      rw [split] at absent
      exact absurd (by simp) absent

theorem Term.bracketed (term : Term) : Bracketed term.lexemes :=
  ⟨framed_term rfl (by decide) (by decide) _ _ _, framed_term rfl (by decide) (by decide) _ _ _⟩

theorem Node.bracketed (node : Node) : Bracketed node.lexemes := by
  have mark : ∀ text : String, Bracketed [.quoted text, .comma] :=
    fun text => .of_not_mem (by simp) (by simp)
  have comma : Bracketed [.comma] := .of_not_mem (by simp) (by simp)
  cases node with
  | leaf term => exact term.bracketed
  | binary connective left right =>
      exact (mark connective.text).append (left.bracketed.append (comma.append right.bracketed))
  | negation operand => exact (mark "!").append operand.bracketed

theorem bracketed_moreLexemes (nodes : List Node) : Bracketed (moreLexemes nodes) := by
  have comma : Bracketed [.comma] := .of_not_mem (by simp) (by simp)
  induction nodes with
  | nil => exact .of_not_mem (by simp [moreLexemes]) (by simp [moreLexemes])
  | cons node nodes inductionHypothesis =>
      exact comma.append (node.bracketed.append inductionHypothesis)

theorem bracketed_lexemes (filter : Filter) : Bracketed filter.lexemes := by
  obtain ⟨nodes⟩ := filter
  cases nodes with
  | nil => exact .of_not_mem (by simp [lexemes]) (by simp [lexemes])
  | cons node nodes =>
      have opening : Bracketed [.openBracket] := .of_not_mem (by simp) (by simp)
      have closing : Bracketed [.closeBracket] := .of_not_mem (by simp) (by simp)
      exact opening.append (node.bracketed.append ((bracketed_moreLexemes nodes).append closing))

/-! ## What a quoted text is read as -/

/-- A framed run of lexemes up to a comma is a single quoted text, or goes beyond the frame. -/
theorem eq_quoted_or_mem {run rest after : List Lexeme} {middle first second third : String}
    {bracket : Lexeme} (notQuoted : bracket.isQuoted = false) (notComma : bracket ≠ .comma)
    (same : run ++ .comma :: .quoted middle :: .comma :: rest =
      .quoted first :: .comma :: .quoted second :: .comma :: .quoted third :: bracket :: after)
    (final : ∃ text, run.getLast? = some (.quoted text)) :
    run.countP Lexeme.isQuoted = 1 ∨ bracket ∈ run ∧ 4 ≤ run.countP Lexeme.isQuoted := by
  obtain ⟨text, final⟩ := final
  have notText : bracket ≠ .quoted text := by
    rintro rfl
    cases notQuoted
  -- The run ends with a quoted text, so it does not end at a comma or at the bracket; the comma
  -- behind it or the one behind `middle` is not the bracket.
  rcases run with _ | ⟨lexeme1, _ | ⟨lexeme2, _ | ⟨lexeme3, _ | ⟨lexeme4, _ | ⟨lexeme5,
    _ | ⟨lexeme6, inner⟩⟩⟩⟩⟩⟩
  · cases final
  · injection same with same1 _
    rw [same1]
    exact .inl rfl
  · injection same with _ same
    injection same with same2 _
    rw [same2] at final
    cases final
  · simp only [List.cons_append, List.nil_append, List.cons.injEq] at same
    exact absurd same.2.2.2.2.2.1.symm notComma
  · simp only [List.cons_append, List.nil_append, List.cons.injEq] at same
    rw [same.2.2.2.1] at final
    cases final
  · simp only [List.cons_append, List.nil_append, List.cons.injEq] at same
    exact absurd same.2.2.2.2.2.1.symm notComma
  · simp only [List.cons_append, List.cons.injEq] at same
    obtain ⟨rfl, rfl, rfl, rfl, rfl, rfl, -⟩ := same
    have inside : .quoted text ∈ inner := by
      cases inner with
      | nil =>
          injection final with same
          exact absurd same notText
      | cons lexeme inner => exact List.mem_of_getLast? final
    have one : 0 < inner.countP Lexeme.isQuoted := List.countP_pos_iff.2 ⟨_, inside, rfl⟩
    right
    refine ⟨by simp, ?_⟩
    simp only [List.countP_cons, Lexeme.isQuoted, if_true]
    omega

/-- The lexemes that a quoted text is read as, whatever it holds. -/
structure IsRun (text : String) (run : List Lexeme) : Prop where
  spells : SpellsLoosely (Lexeme.quoted text).spelling run
  first : ∃ first, run.head? = some (.quoted first)
  final : ∃ last, run.getLast? = some (.quoted last)
  quotes : text.toList.count '\'' + 2 = 2 * run.countP Lexeme.isQuoted

theorem SpellsLoosely.isRun {text : String} {run : List Lexeme}
    (spells : SpellsLoosely (Lexeme.quoted text).spelling run) : IsRun text run := by
  refine ⟨spells, ?_, ?_, ?_⟩
  · obtain ⟨first, later, rfl⟩ := SpellsLoosely.begins_quoted spells
    exact ⟨first, rfl⟩
  · have shape : (Lexeme.quoted text).spelling = ('\'' :: text.toList) ++ ['\''] := rfl
    obtain ⟨early, last, rfl⟩ := spells.ends_quoted (by rw [shape, List.getLast?_concat])
    exact ⟨last, by simp⟩
  · rw [← spells.count_quote]
    simp [Lexeme.spelling]

/-- A quoted text without quotes is read as itself. -/
theorem IsRun.eq_singleton {text : String} {run : List Lexeme} (isRun : IsRun text run)
    (plain : '\'' ∉ text.toList) : ∃ middle, run = [.quoted middle] := by
  have quotes := isRun.quotes
  rw [List.count_eq_zero.2 plain] at quotes
  obtain ⟨first, head⟩ := isRun.first
  obtain ⟨last, final⟩ := isRun.final
  cases run with
  | nil => cases head
  | cons lexeme later =>
      injection head with same
      subst same
      have none : later.countP Lexeme.isQuoted = 0 := by
        simp only [List.countP_cons, Lexeme.isQuoted, if_true] at quotes
        omega
      cases later with
      | nil => exact ⟨first, rfl⟩
      | cons other later =>
          have inside : .quoted last ∈ other :: later := List.mem_of_getLast? final
          exact absurd rfl (List.countP_eq_zero.1 none _ inside)

/-- A quoted text that is read as more than one holds six quotes or more, and a bracket. -/
theorem IsRun.count_quote {text : String} {run : List Lexeme} (isRun : IsRun text run) {c : Char}
    {bracket : Lexeme} (isBracket : bracket? c = some bracket)
    (plain : ∀ lexeme ∈ run, lexeme.Plain)
    (shape : run.countP Lexeme.isQuoted = 1 ∨
      bracket ∈ run ∧ 4 ≤ run.countP Lexeme.isQuoted) :
    '\'' ∉ text.toList ∨ 6 ≤ text.toList.count '\'' ∧ c ∈ text.toList := by
  have quotes := isRun.quotes
  rcases shape with single | ⟨member, several⟩
  · left
    rw [← List.count_eq_zero]
    omega
  · right
    have brackets := isRun.spells.count_bracket isBracket plain
    have inside : (Lexeme.quoted text).spelling.count c = text.toList.count c := by
      simp [Lexeme.spelling, (ne_quote_of_bracket isBracket).symm]
    rw [← List.count_pos_iff, ← brackets, inside] at member
    exact ⟨by omega, List.count_pos_iff.1 member⟩

section Term

variable {term : Term} {before after : List Char} {lexemes : List Lexeme}

/-- The runs of the quoted texts of a term that stands in a text. -/
theorem SpellsLoosely.runs_of_term
    (spells : SpellsLoosely (before ++ (spellings term.lexemes ++ after)) lexemes)
    (plain : ∀ lexeme ∈ lexemes, lexeme.Plain) :
    ∃ front field middle value behind,
      lexemes = front ++ .openParen :: (field ++ .comma :: .quoted middle :: .comma ::
        (value ++ .closeParen :: behind)) ∧
      IsRun term.field field ∧ IsRun term.value value := by
  have shape : spellings term.lexemes ++ after =
      '(' :: ((Lexeme.quoted term.field).spelling ++
        ',' :: ((Lexeme.quoted term.comparator.text).spelling ++
          ',' :: ((Lexeme.quoted term.value).spelling ++ ')' :: after))) := by
    simp [Term.lexemes, spellings, Lexeme.spelling]
  have plain_behind : ∀ {front behind : List Lexeme} {bracket : Lexeme},
      (∀ lexeme ∈ front ++ bracket :: behind, lexeme.Plain) →
        ∀ lexeme ∈ behind, lexeme.Plain :=
    fun plain lexeme member => plain lexeme (by simp [member])
  rw [shape] at spells
  obtain ⟨front, _, rfl, -, spells⟩ := SpellsLoosely.split rfl spells plain
  have plain := plain_behind plain
  obtain ⟨field, _, rfl, fieldSpells, spells⟩ := SpellsLoosely.split rfl spells plain
  have plain := plain_behind plain
  obtain ⟨comparator, _, rfl, comparatorSpells, spells⟩ := SpellsLoosely.split rfl spells plain
  have plain := plain_behind plain
  obtain ⟨value, behind, rfl, valueSpells, -⟩ := SpellsLoosely.split rfl spells plain
  obtain ⟨middle, rfl⟩ := comparatorSpells.isRun.eq_singleton term.comparator.no_quote
  exact ⟨front, field, middle, value, behind, rfl, fieldSpells.isRun, valueSpells.isRun⟩

/-- A quote in the field of a term brings a closing parenthesis, one in its value an opening
parenthesis, and both bring at least five other quotes. -/
theorem SpellsLoosely.count_quote_of_term
    (spells : SpellsLoosely (before ++ (spellings term.lexemes ++ after)) lexemes)
    (plain : ∀ lexeme ∈ lexemes, lexeme.Plain) (bracketed : Bracketed lexemes) :
    ('\'' ∉ term.field.toList ∨
      6 ≤ term.field.toList.count '\'' ∧ ')' ∈ term.field.toList) ∧
    ('\'' ∉ term.value.toList ∨
      6 ≤ term.value.toList.count '\'' ∧ '(' ∈ term.value.toList) := by
  obtain ⟨front, field, middle, value, behind, rfl, fieldRun, valueRun⟩ :=
    spells.runs_of_term plain
  constructor
  · obtain ⟨_, _, _, _, same⟩ := bracketed.forward _ _ rfl
    exact fieldRun.count_quote rfl (fun lexeme member => plain lexeme (by simp [member]))
      (eq_quoted_or_mem rfl (by decide) same fieldRun.final)
  · -- Behind the value stands a closing parenthesis: the same argument from the back.
    have reversed : (front ++ .openParen :: (field ++ .comma :: .quoted middle :: .comma ::
        (value ++ .closeParen :: behind))).reverse =
        behind.reverse ++ .closeParen :: (value.reverse ++ .comma :: .quoted middle :: .comma ::
          (field.reverse ++ .openParen :: front.reverse)) := by
      simp
    obtain ⟨_, _, _, _, same⟩ := bracketed.backward _ _ reversed
    obtain ⟨first, head⟩ := valueRun.first
    have shape := eq_quoted_or_mem rfl (by decide) same ⟨first, by simpa using head⟩
    rw [List.countP_reverse, List.mem_reverse] at shape
    exact valueRun.count_quote rfl (fun lexeme member => plain lexeme (by simp [member])) shape

end Term

/-! ## Terms in a text -/

theorem Term.lexemes_infix_node {node : Node} {term : Term} (member : term ∈ node.terms) :
    term.lexemes <:+: node.lexemes := by
  cases node with
  | leaf own =>
      rw [List.mem_singleton.1 member]
      exact List.infix_refl _
  | binary connective left right =>
      rcases List.mem_cons.1 member with rfl | later
      · exact ⟨[.quoted connective.text, .comma], .comma :: right.lexemes, by simp [Node.lexemes]⟩
      · rw [List.mem_singleton.1 later]
        exact ⟨.quoted connective.text :: .comma :: (left.lexemes ++ [.comma]), [],
          by simp [Node.lexemes]⟩
  | negation operand =>
      rw [List.mem_singleton.1 member]
      exact ⟨[.quoted "!", .comma], [], by simp [Node.lexemes]⟩

theorem Node.lexemes_infix_moreLexemes {nodes : List Node} {node : Node} (member : node ∈ nodes) :
    node.lexemes <:+: moreLexemes nodes := by
  obtain ⟨early, later, rfl⟩ := List.append_of_mem member
  exact ⟨moreLexemes early ++ [.comma], moreLexemes later, by simp [moreLexemes]⟩

theorem Node.lexemes_infix {filter : Filter} {node : Node} (member : node ∈ filter.nodes) :
    node.lexemes <:+: filter.lexemes := by
  obtain ⟨nodes⟩ := filter
  cases nodes with
  | nil => cases member
  | cons first nodes =>
      rw [lexemes_cons]
      rcases List.mem_cons.1 member with rfl | later
      · exact ⟨[.openBracket], moreLexemes nodes ++ [.closeBracket], by simp⟩
      · refine (Node.lexemes_infix_moreLexemes later).trans ?_
        exact ⟨.openBracket :: first.lexemes, [.closeBracket], by simp⟩

theorem exists_text_eq_append {filter : Filter} {term : Term} (member : term ∈ filter.terms) :
    ∃ before after, filter.text.toList = before ++ (spellings term.lexemes ++ after) := by
  obtain ⟨node, nodeMember, termMember⟩ := List.mem_flatMap.1 member
  obtain ⟨before, after, split⟩ :=
    (Term.lexemes_infix_node termMember).trans (Node.lexemes_infix nodeMember)
  refine ⟨spellings before, spellings after, ?_⟩
  rw [toList_text, ← split, spellings_append, spellings_append, List.append_assoc]

section Parenthesis

variable {c : Char} (paren : c = '(' ∨ c = ')')

include paren

theorem Term.count_paren (term : Term) :
    (spellings term.lexemes).count c = 1 + term.inside.count c := by
  have absent : c ∉ term.comparator.text.toList := by
    rcases paren with rfl | rfl <;> cases term.comparator <;> decide
  have frame : "('','','')".toList.count c = 1 := by
    rcases paren with rfl | rfl <;> decide
  rw [Term.count_spellings absent, frame]

theorem Node.count_paren (node : Node) :
    (spellings node.lexemes).count c =
      node.terms.length + (node.terms.flatMap Term.inside).count c := by
  have comma : (spellings [.comma]).count c = 0 := by rcases paren with rfl | rfl <;> rfl
  have negation : (spellings [.quoted "!", .comma]).count c = 0 := by
    rcases paren with rfl | rfl <;> decide
  have connectives : ∀ connective : Connective,
      (spellings [.quoted connective.text, .comma]).count c = 0 := by
    intro connective
    rcases paren with rfl | rfl <;> cases connective <;> decide
  cases node with
  | leaf term => simp [Node.lexemes, Term.count_paren paren, Node.terms]
  | binary connective left right =>
      have shape : (Node.binary connective left right).lexemes =
          [.quoted connective.text, .comma] ++ (left.lexemes ++ ([.comma] ++ right.lexemes)) := rfl
      simp only [shape, spellings_append, List.count_append, connectives, comma,
        Term.count_paren paren, Node.terms, List.length_cons, List.length_nil, List.flatMap_cons,
        List.flatMap_nil, List.count_nil]
      omega
  | negation operand =>
      have shape : (Node.negation operand).lexemes = [.quoted "!", .comma] ++ operand.lexemes := rfl
      rw [shape, spellings_append, List.count_append, negation, Term.count_paren paren]
      simp [Node.terms]

theorem count_paren_moreLexemes (nodes : List Node) :
    (spellings (moreLexemes nodes)).count c =
      (nodes.flatMap Node.terms).length +
        ((nodes.flatMap Node.terms).flatMap Term.inside).count c := by
  have comma : (spellings [.comma]).count c = 0 := by rcases paren with rfl | rfl <;> rfl
  induction nodes with
  | nil => rfl
  | cons node nodes inductionHypothesis =>
      have shape : moreLexemes (node :: nodes) = [.comma] ++ (node.lexemes ++ moreLexemes nodes) :=
        rfl
      rw [shape, spellings_append, spellings_append, List.count_append, List.count_append, comma,
        node.count_paren paren, inductionHypothesis, List.flatMap_cons, List.length_append,
        List.flatMap_append, List.count_append]
      omega

/-- There is one parenthesis of each kind for each term, beside those inside of texts. -/
theorem count_paren (filter : Filter) :
    (spellings filter.lexemes).count c =
      filter.terms.length + (filter.terms.flatMap Term.inside).count c := by
  have opening : (spellings [.openBracket]).count c = 0 := by
    rcases paren with rfl | rfl <;> rfl
  have closing : (spellings [.closeBracket]).count c = 0 := by
    rcases paren with rfl | rfl <;> rfl
  obtain ⟨nodes⟩ := filter
  cases nodes with
  | nil => rfl
  | cons node nodes =>
      have shape : lexemes ⟨node :: nodes⟩ =
          [.openBracket] ++ (node.lexemes ++ (moreLexemes nodes ++ [.closeBracket])) := rfl
      rw [shape, spellings_append, spellings_append, spellings_append, List.count_append,
        List.count_append, List.count_append, opening, closing, node.count_paren paren,
        count_paren_moreLexemes paren, terms, List.flatMap_cons, List.length_append,
        List.flatMap_append, List.count_append]
      omega

end Parenthesis

/-! ## Misreading -/

theorem Term.Spellable.not_mem_inside {term : Term} (spellable : term.Spellable) {c : Char}
    {bracket : Lexeme} (isBracket : bracket? c = some bracket) : c ∉ term.inside := by
  have invalid : ¬ (IsWordChar c ∨ IsBlankChar c) := by
    intro valid
    rw [bracket?_eq_none_of_valid valid] at isBracket
    cases isBracket
  intro inside
  rcases List.mem_append.1 inside with member | member
  · exact invalid (.inl (spellable.field.2 c member))
  · exact invalid (spellable.value c member)

/-- The parentheses inside of texts are those of the terms that are read in excess. -/
theorem length_terms_of_spells {filter written : Filter} {c : Char} (paren : c = '(' ∨ c = ')')
    (spells : Spells filter.text.toList written.lexemes)
    (spellable : ∀ term ∈ written.terms, term.Spellable) :
    filter.terms.length + (filter.terms.flatMap Term.inside).count c = written.terms.length := by
  obtain ⟨bracket, isBracket⟩ : ∃ bracket, bracket? c = some bracket := by
    rcases paren with rfl | rfl
    · exact ⟨.openParen, rfl⟩
    · exact ⟨.closeParen, rfl⟩
  have plain := plain_of_spellable spellable
  have own := spells_spellings spells.written
  have outside : (written.terms.flatMap Term.inside).count c = 0 := by
    refine List.count_eq_zero.2 fun inside => ?_
    obtain ⟨term, member, inside⟩ := List.mem_flatMap.1 inside
    exact (spellable term member).not_mem_inside isBracket inside
  have count := spells.loosely.count_bracket isBracket plain
  rw [← own.loosely.count_bracket isBracket plain, toList_text, count_paren paren,
    count_paren paren, outside] at count
  exact count

/-- A filter whose text is read has no quote in a field or a value, or its text is read with more
terms. -/
theorem unquoted_or_length_lt {filter written : Filter}
    (spells : Spells filter.text.toList written.lexemes)
    (spellable : ∀ term ∈ written.terms, term.Spellable) :
    (∀ term ∈ filter.terms, '\'' ∉ term.inside) ∨
      filter.terms.length < written.terms.length ∧
        ∃ term ∈ filter.terms,
          6 ≤ term.field.toList.count '\'' ∨ 6 ≤ term.value.toList.count '\'' := by
  by_cases unquoted : ∀ term ∈ filter.terms, '\'' ∉ term.inside
  · exact .inl unquoted
  · right
    simp only [not_forall, exists_prop, not_not] at unquoted
    obtain ⟨term, member, quoted⟩ := unquoted
    obtain ⟨before, after, split⟩ := exists_text_eq_append member
    have termSpells := spells.loosely
    rw [split] at termSpells
    obtain ⟨field, value⟩ :=
      termSpells.count_quote_of_term (plain_of_spellable spellable) (bracketed_lexemes written)
    have more : ∀ c : Char, c = '(' ∨ c = ')' → c ∈ term.inside →
        filter.terms.length < written.terms.length := by
      intro c paren inside
      have one : 0 < (filter.terms.flatMap Term.inside).count c :=
        List.count_pos_iff.2 (List.mem_flatMap.2 ⟨term, member, inside⟩)
      have total := length_terms_of_spells paren spells spellable
      omega
    rcases List.mem_append.1 quoted with inField | inValue
    · obtain ⟨six, paren⟩ := field.resolve_left (not_not_intro inField)
      exact ⟨more ')' (.inr rfl) (List.mem_append_left _ paren), term, member, .inl six⟩
    · obtain ⟨six, paren⟩ := value.resolve_left (not_not_intro inValue)
      exact ⟨more '(' (.inl rfl) (List.mem_append_right _ paren), term, member, .inr six⟩

theorem text_begins (filter : Filter) :
    filter.text.toList = [] ∨ ∃ rest, filter.text.toList = '[' :: rest := by
  rw [toList_text]
  obtain ⟨nodes⟩ := filter
  cases nodes with
  | nil => exact .inl rfl
  | cons node nodes => exact .inr ⟨_, rfl⟩

/-- What the text of a filter is read as was written as a list of nodes. -/
theorem exists_written_of_parse {filter read : Filter} (run : parse filter.text = .ok read) :
    ∃ written : Filter, Spells filter.text.toList written.lexemes ∧
      (∀ term ∈ written.terms, term.Spellable) ∧ read = written.trimmed := by
  obtain ⟨lexemes, spells, phrase⟩ := parse_iff_phrase.1 run
  have first : lexemes.head? ≠ some .openParen := by
    rcases filter.text_begins with nothing | ⟨rest, begins⟩
    · rw [nothing] at spells
      rw [spells.loosely.eq_nil]
      exact nofun
    · rw [begins] at spells
      have head : lexemes.head? = some .openBracket :=
        SpellsLoosely.head?_eq (show Lexeme.openBracket.Written from trivial) spells.loosely
      rw [head]
      exact nofun
  obtain ⟨written, rfl, spellable, rfl⟩ := phrase.eq_lexemes first
  exact ⟨written, spells, spellable, rfl⟩

theorem length_terms_trimmed (filter : Filter) :
    filter.trimmed.terms.length = filter.terms.length := by
  have nodes : ∀ node : Node, node.trimmed.terms.length = node.terms.length := by
    intro node
    cases node <;> rfl
  simp [terms, trimmed, List.length_flatMap, List.flatMap_map, nodes]

/-- A filter that its text is read as has the same terms with trimmed values, or more terms. -/
theorem eq_trimmed_or_length_lt {filter read : Filter} (run : parse filter.text = .ok read) :
    (read = filter.trimmed ∧ ∀ term ∈ filter.terms, term.Spellable) ∨
      filter.terms.length < read.terms.length ∧
        ∃ term ∈ filter.terms,
          6 ≤ term.field.toList.count '\'' ∨ 6 ≤ term.value.toList.count '\'' := by
  obtain ⟨written, spells, spellable, rfl⟩ := exists_written_of_parse run
  rcases unquoted_or_length_lt spells spellable with unquoted | more
  · left
    have own : Spells filter.text.toList filter.lexemes := by
      rw [filter.toList_text]
      exact spells_spellings (written_of_unquoted unquoted)
    rw [← lexemes_inj (spells.unique own)]
    exact ⟨rfl, spellable⟩
  · rw [length_terms_trimmed]
    exact .inr more

/-- The text of the filter is read as this filter with its values trimmed, or not at all, and not
at all when a field or a value holds a quote or a comma. -/
structure NeverMisread (filter : Filter) : Prop where
  faithful : ∀ read, parse filter.text = .ok read → read = filter.trimmed
  rejected : (∃ term ∈ filter.terms, term.Delimited) →
    ∃ error, parse filter.text = .error error

theorem neverMisread_of_length {filter : Filter}
    (bounded : ∀ read, parse filter.text = .ok read →
      ¬ filter.terms.length < read.terms.length) : filter.NeverMisread := by
  refine ⟨?_, ?_⟩
  · intro read run
    rcases eq_trimmed_or_length_lt run with ⟨same, -⟩ | ⟨more, -⟩
    · exact same
    · exact absurd more (bounded read run)
  · rintro ⟨term, member, delimited⟩
    cases run : parse filter.text with
    | error error => exact ⟨error, rfl⟩
    | ok read =>
        rcases eq_trimmed_or_length_lt run with ⟨-, spellable⟩ | ⟨more, -⟩
        · exact absurd delimited (spellable term member).not_delimited
        · exact absurd more (bounded read run)

/-- A filter is misread exactly when its text is read with another number of terms, which is then
greater. Six quotes in one field or value are needed for it. -/
theorem neverMisread_iff (filter : Filter) :
    (filter.NeverMisread ↔
      ∀ read, parse filter.text = .ok read → read.terms.length = filter.terms.length) ∧
    (∀ read, parse filter.text = .ok read → read ≠ filter.trimmed →
      filter.terms.length < read.terms.length) ∧
    ((∀ term ∈ filter.terms,
      term.field.toList.count '\'' < 6 ∧ term.value.toList.count '\'' < 6) →
        filter.NeverMisread) := by
  refine ⟨⟨?_, ?_⟩, ?_, ?_⟩
  · intro never read run
    rw [never.faithful read run, length_terms_trimmed]
  · intro lengths
    exact neverMisread_of_length fun read run more =>
      absurd (lengths read run) (Nat.ne_of_gt more)
  · intro read run different
    rcases eq_trimmed_or_length_lt run with ⟨same, -⟩ | ⟨more, -⟩
    · exact absurd same different
    · exact more
  · intro few
    refine neverMisread_of_length fun read run more => ?_
    rcases eq_trimmed_or_length_lt run with ⟨same, -⟩ | ⟨-, term, member, six⟩
    · rw [same, length_terms_trimmed] at more
      exact Nat.lt_irrefl _ more
    · obtain ⟨field, value⟩ := few term member
      omega

/-- A value with six quotes that closes its own term and opens another one. -/
theorem not_neverMisread_closing_value :
    ¬ NeverMisread ⟨[.leaf ⟨"a", .equal, "b'),('c','=','d"⟩]⟩ := by
  intro never
  have run : parse (text ⟨[.leaf ⟨"a", .equal, "b'),('c','=','d"⟩]⟩) =
      .ok ⟨[.leaf ⟨"a", .equal, "b"⟩, .leaf ⟨"c", .equal, "d"⟩]⟩ := by
    decide +kernel
  exact absurd (never.faithful _ run) (by decide)

end RemoteRecords.Filter
