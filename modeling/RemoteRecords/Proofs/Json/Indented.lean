import RemoteRecords.Proofs.Json.Compact
import RemoteRecords.Proofs.Json.Nesting

/-!
# Indented texts

An indented text puts every item and member on a line of its own (`Indents`). The reader takes it
off again as the value it was written for, whatever layout is before it and as long as no digits
follow (`Takes`): for a number by its digits, for a list or an object by induction on what stands on
its lines (`separated_moreParts`), and for all values by induction on their parts
(`takes_indentedChars`).
-/

namespace RemoteRecords.Json

/-! ## Layout -/

/-- The characters are layout. -/
def IsLayout (gap : List Char) : Prop := ∀ c ∈ gap, Text.isLayout c = true

theorem isLayout_lineBreak (level : Nat) : IsLayout (lineBreak level) := by
  intro c member
  rcases List.mem_cons.1 member with rfl | space
  · rfl
  · rw [List.eq_of_mem_replicate space]
    rfl

theorem skipLayout_gap {gap : List Char} (layout : IsLayout gap) (text : List Char) :
    skipLayout (gap ++ text) = skipLayout text :=
  List.dropWhile_append_of_pos layout

theorem skipLayout_cons {c : Char} (plain : Text.isLayout c = false) (text : List Char) :
    skipLayout (c :: text) = c :: text :=
  List.dropWhile_cons_of_neg (by simp [plain])

/-- What may follow a number in a text. -/
inductive Ends : List Char → Prop
  | nothing : Ends []
  | comma (text : List Char) : Ends (',' :: text)
  | lineEnd (text : List Char) : Ends ('\n' :: text)

theorem ends_lineBreak (level : Nat) (text : List Char) : Ends (lineBreak level ++ text) :=
  .lineEnd _

/-- The reader takes the characters off a text as this value, whatever layout is before them. -/
def Takes {α : Type} (item : List Char → Option (α × List Char)) (chars : List Char) (value : α) :
    Prop :=
  ∀ gap rest, IsLayout gap → Ends rest → item (gap ++ (chars ++ rest)) = some (value, rest)

/-! ## Numbers -/

theorem spanDigits_append {digits rest : List Char} (allDigits : ∀ c ∈ digits, c.isDigit = true)
    (ends : Ends rest) : spanDigits (digits ++ rest) = (digits, rest) := by
  have stop : rest.takeWhile Char.isDigit = [] ∧ rest.dropWhile Char.isDigit = rest := by
    cases ends <;> exact ⟨rfl, rfl⟩
  rw [spanDigits_eq, List.takeWhile_append_of_pos allDigits,
    List.dropWhile_append_of_pos allDigits, stop.1, stop.2, List.append_nil]

theorem literal_digits (negative : Bool) (number : Nat) {rest : List Char} (ends : Ends rest) :
    literal negative (Text.digits number ++ rest) =
      some (⟨negative, Text.digits number, none, none⟩, rest) := by
  have nonempty : (Text.digits number).isEmpty = false := by
    simpa using Text.digits_ne_nil number
  have unpadded : ((Text.digits number).length != 1 &&
      (Text.digits number).head? == some '0') = false := by
    by_cases zero : number = 0
    · subst zero
      decide +kernel
    · simp [Text.head?_digits_ne_zero (Nat.pos_of_ne_zero zero)]
  have noFraction : fractionPart rest = some (none, rest) := by cases ends <;> rfl
  have noExponent : exponentPart rest = some (none, rest) := by cases ends <;> rfl
  simp [literal, spanDigits_append (fun _ => Text.isDigit_of_mem_digits) ends, nonempty, unpadded,
    noFraction, noExponent]

theorem value?_digits (number : Nat) (small : number ≤ Bounds.greatestNat64) :
    Literal.value? ⟨false, Text.digits number, none, none⟩ = some (.int number) := by
  simp [Literal.value?, Text.ofDigits?_digits, small]

theorem value?_minus_digits {number : Nat} (positive : 0 < number)
    (fits : Bounds.fits64 (-(number : Int)) = true) :
    Literal.value? ⟨true, Text.digits number, none, none⟩ = some (.int (-number)) := by
  simp [Literal.value?, Text.ofDigits?_digits, positive, fits]

theorem number_of_unsigned {text : List Char} (unsigned : ∀ rest, text ≠ '-' :: rest) :
    number text = (literal false text).bind fun (read, rest) =>
      read.value?.map fun value => (value, rest) := by
  rw [number.eq_def]
  split
  · exact absurd rfl (unsigned _)
  · simp [Option.bind_eq_bind, Option.map_eq_bind]

/-- Integers of 64 bits are read off their decimal texts. -/
theorem number_intChars {integer : Int} (low : -9223372036854775808 ≤ integer)
    (high : integer ≤ 18446744073709551615) {rest : List Char} (ends : Ends rest) :
    number (Text.intChars integer ++ rest) = some (.int integer, rest) := by
  rw [Text.intChars]
  split
  · next negative =>
      have value : -(integer.natAbs : Int) = integer := by omega
      have fits : Bounds.fits64 (-(integer.natAbs : Int)) = true := by
        rw [Bounds.fits64_iff]
        omega
      have read := value?_minus_digits (by omega) fits
      rw [value] at read
      simp [number, literal_digits true _ ends, read]
  · next notNegative =>
      have value : (integer.natAbs : Int) = integer := by omega
      have small : integer.natAbs ≤ Bounds.greatestNat64 := by
        rw [Bounds.greatestNat64]
        omega
      have read := value?_digits integer.natAbs small
      rw [value] at read
      have unsigned (after : List Char) :
          Text.digits integer.natAbs ++ rest ≠ '-' :: after := by
        obtain ⟨c, digits, begins, digit⟩ := Text.exists_digits_eq_cons integer.natAbs
        rw [begins]
        rintro same
        rw [(List.cons.inj same).1] at digit
        cases digit
      rw [number_of_unsigned unsigned]
      simp [literal_digits false _ ends, read]

/-! ## Values -/

theorem value_gap (depth : Nat) {gap : List Char} (layout : IsLayout gap) (text : List Char) :
    value depth (gap ++ text) = value depth text := by
  rw [value.eq_def, value.eq_def depth text, skipLayout_gap layout]

theorem takes_of_value {depth : Nat} {chars : List Char} {json : Json}
    (read : ∀ rest, Ends rest → value depth (chars ++ rest) = some (json, rest)) :
    Takes (value depth) chars json := by
  intro gap rest layout ends
  rw [value_gap depth layout]
  exact read rest ends

theorem value_null (depth : Nat) (rest : List Char) :
    value depth ("null".toList ++ rest) = some (.null, rest) := by
  rw [value.eq_def]
  rfl

theorem value_true (depth : Nat) (rest : List Char) :
    value depth ("true".toList ++ rest) = some (.bool true, rest) := by
  rw [value.eq_def]
  rfl

theorem value_false (depth : Nat) (rest : List Char) :
    value depth ("false".toList ++ rest) = some (.bool false, rest) := by
  rw [value.eq_def]
  rfl

theorem value_quotedChars (depth : Nat) (text : String) (rest : List Char) :
    value depth (quotedChars text ++ rest) = some (.string text, rest) := by
  rw [quotedChars_append, value.eq_def, skipLayout_cons (by decide)]
  simp [stringBody_escaped]

theorem value_openBracket (depth : Nat) (text : List Char) :
    value (depth + 1) ('[' :: text) =
      (enclosed (value depth) ']' text).map fun (items, after) => (.array items, after) := by
  rw [value.eq_def, skipLayout_cons (by decide)]
  rfl

theorem value_openBrace (depth : Nat) (text : List Char) :
    value (depth + 1) ('{' :: text) =
      (enclosed (member (value depth)) '}' text).map fun (members, after) =>
        (ofMembers members, after) := by
  rw [value.eq_def, skipLayout_cons (by decide)]
  rfl

theorem isLayout_of_isDigit {c : Char} (digit : c.isDigit = true) : Text.isLayout c = false := by
  rw [← Bool.not_eq_true, Text.isLayout]
  simp only [Bool.or_eq_true, beq_iff_eq]
  rintro (((rfl | rfl) | rfl) | rfl) <;> cases digit

theorem value_number (depth : Nat) {c : Char} (text : List Char)
    (begins : c = '-' ∨ c.isDigit = true) :
    value depth (c :: text) = number (c :: text) := by
  rcases begins with rfl | digit
  · rw [value.eq_def, skipLayout_cons (by decide)]
    rfl
  · rw [value.eq_def, skipLayout_cons (isLayout_of_isDigit digit)]
    split
    -- What begins with a digit begins neither with a word, nor with a quote or a bracket.
    iterate 6
      · next same =>
          rw [(List.cons.inj same).1] at digit
          exact absurd digit (by decide)
    · rfl

/-! ## Lists of items -/

section Enclosed

variable {α : Type} {item : List Char → Option (α × List Char)} {close : Char}
  {text : α → List Char} {inner outer : Nat}

/-- Each part behind a comma on a line of its own. -/
def moreParts (level : Nat) (text : α → List Char) (parts : List α) : List Char :=
  parts.flatMap fun part => ',' :: (lineBreak level ++ text part)

theorem moreParts_cons (level : Nat) (part : α) (parts : List α) (rest : List Char) :
    moreParts level text (part :: parts) ++ rest =
      ',' :: (lineBreak level ++ (text part ++ (moreParts level text parts ++ rest))) := by
  simp [moreParts]

theorem separated_moreParts (noComma : close ≠ ',') (noLayout : Text.isLayout close = false)
    {first : α} {parts : List α} (takes : ∀ part ∈ first :: parts, Takes item (text part) part)
    {gap : List Char} (layout : IsLayout gap) (rest : List Char) {fuel : Nat}
    (enough : parts.length < fuel) :
    separated item close fuel (gap ++ (text first ++ (moreParts inner text parts ++
        (lineBreak outer ++ close :: rest)))) = some (first :: parts, rest) := by
  induction parts generalizing first gap fuel with
  | nil =>
      obtain ⟨fuel, rfl⟩ := Nat.exists_eq_succ_of_ne_zero (Nat.ne_of_gt enough)
      have read := takes first List.mem_cons_self gap (lineBreak outer ++ close :: rest) layout
        (ends_lineBreak _ _)
      rw [separated, moreParts, List.flatMap_nil, List.nil_append, read]
      simp only [skipLayout_gap (isLayout_lineBreak outer), skipLayout_cons noLayout]
      simp only [if_neg noComma, if_true]
  | cons part parts inductionHypothesis =>
      obtain ⟨fuel, rfl⟩ := Nat.exists_eq_succ_of_ne_zero (Nat.ne_of_gt (Nat.zero_lt_of_lt enough))
      obtain ⟨firstTakes, laterTake⟩ := List.forall_mem_cons.1 takes
      have later := inductionHypothesis laterTake (isLayout_lineBreak inner)
        (Nat.lt_of_succ_lt_succ enough)
      have read := firstTakes gap _ layout (.comma (lineBreak inner ++ (text part ++
        (moreParts inner text parts ++ (lineBreak outer ++ close :: rest)))))
      have comma : Text.isLayout ',' = false := rfl
      rw [moreParts_cons, separated, read]
      simp only [skipLayout_cons comma, if_true, later, Option.map_some]

theorem length_le_moreParts (level : Nat) (text : α → List Char) (parts : List α) :
    parts.length ≤ (moreParts level text parts).length := by
  induction parts with
  | nil => exact Nat.zero_le _
  | cons part parts inductionHypothesis =>
      simp only [moreParts, List.flatMap_cons, List.length_append, List.length_cons] at *
      omega

/-- Parts that are read one by one are read between brackets, each on a line of its own. -/
theorem enclosed_moreParts (noComma : close ≠ ',') (noLayout : Text.isLayout close = false)
    {first : α} {parts : List α} (takes : ∀ part ∈ first :: parts, Takes item (text part) part)
    {c : Char} {chars : List Char} (begins : text first = c :: chars)
    (plain : Text.isLayout c = false) (unlike : c ≠ close) (rest : List Char) :
    enclosed item close (lineBreak inner ++ (text first ++ (moreParts inner text parts ++
        (lineBreak outer ++ close :: rest)))) = some (first :: parts, rest) := by
  have noGap : IsLayout [] := List.forall_mem_nil _
  have enough := length_le_moreParts inner text parts
  rw [enclosed, skipLayout_gap (isLayout_lineBreak inner), begins, List.cons_append,
    skipLayout_cons plain]
  simp only [if_neg unlike]
  rw [← List.cons_append, ← begins]
  refine separated_moreParts noComma noLayout takes noGap rest ?_
  simp only [List.length_append]
  omega

theorem enclosed_nothing (noLayout : Text.isLayout close = false) (rest : List Char) :
    enclosed item close (close :: rest) = some ([], rest) := by
  rw [enclosed, skipLayout_cons noLayout]
  simp only [if_true]

end Enclosed

/-! ## Indented texts -/

/-- A text of the value has each item and member on a line of its own, two spaces deeper than the
brackets around it; empty brackets stay together. -/
inductive Indents : Nat → Json → List Char → Prop
  | plain (level : Nat) {value : Json} : value.parts = [] →
      Indents level value (compactChars value)
  | array {level : Nat} {items : List Json} (text : Json → List Char) : items ≠ [] →
      (∀ item ∈ items, Indents (level + 1) item (text item)) →
      Indents level (.array items)
        ('[' :: ([','].intercalate (items.map fun item => lineBreak (level + 1) ++ text item) ++
          lineBreak level ++ [']']))
  | object {level : Nat} {members : List (String × Json)} (text : Json → List Char) :
      members ≠ [] → (∀ field ∈ members, Indents (level + 1) field.2 (text field.2)) →
      Indents level (.object members)
        ('{' :: ([','].intercalate (members.map fun field =>
            lineBreak (level + 1) ++ (quotedChars field.1 ++ ':' :: ' ' :: text field.2)) ++
          lineBreak level ++ ['}']))

/-- A member of an object on a line of its own. -/
def memberText (level : Nat) (field : String × Json) : List Char :=
  quotedChars field.1 ++ ':' :: ' ' :: indentedChars level field.2

theorem indentedItems_eq (level : Nat) (items : List Json) :
    indentedItems level items = moreParts level (indentedChars level) items := by
  induction items with
  | nil => rfl
  | cons item items inductionHypothesis =>
      rw [indentedItems, inductionHypothesis]
      simp [moreParts]

theorem indentedMembers_eq (level : Nat) (members : List (String × Json)) :
    indentedMembers level members = moreParts level (memberText level) members := by
  induction members with
  | nil => rfl
  | cons field members inductionHypothesis =>
      obtain ⟨name, held⟩ := field
      rw [indentedMembers, inductionHypothesis]
      simp [moreParts, memberText]

theorem indentedChars_array_append (level : Nat) (item : Json) (items : List Json)
    (rest : List Char) :
    indentedChars level (.array (item :: items)) ++ rest =
      '[' :: (lineBreak (level + 1) ++ (indentedChars (level + 1) item ++
        (moreParts (level + 1) (indentedChars (level + 1)) items ++
          (lineBreak level ++ ']' :: rest)))) := by
  simp [indentedChars, indentedItems_eq]

theorem indentedChars_object_append (level : Nat) (field : String × Json)
    (members : List (String × Json)) (rest : List Char) :
    indentedChars level (.object (field :: members)) ++ rest =
      '{' :: (lineBreak (level + 1) ++ (memberText (level + 1) field ++
        (moreParts (level + 1) (memberText (level + 1)) members ++
          (lineBreak level ++ '}' :: rest)))) := by
  obtain ⟨name, held⟩ := field
  simp [indentedChars, indentedMembers_eq, memberText]

theorem intercalate_eq_moreParts {α : Type} (level : Nat) (text : α → List Char) (first : α)
    (parts : List α) :
    [','].intercalate ((first :: parts).map fun part => lineBreak level ++ text part) =
      lineBreak level ++ (text first ++ moreParts level text parts) := by
  induction parts generalizing first with
  | nil => simp [moreParts]
  | cons part parts inductionHypothesis =>
      have later := inductionHypothesis part
      rw [List.map_cons] at later
      rw [List.map_cons, List.map_cons, List.intercalate_cons_cons, later]
      simp [moreParts]

theorem indentedChars_array (level : Nat) {items : List Json} (present : items ≠ []) :
    indentedChars level (.array items) =
      '[' :: ([','].intercalate (items.map fun item =>
          lineBreak (level + 1) ++ indentedChars (level + 1) item) ++
        lineBreak level ++ [']']) := by
  cases items with
  | nil => exact absurd rfl present
  | cons item items =>
      rw [intercalate_eq_moreParts]
      simp [indentedChars, indentedItems_eq]

theorem indentedChars_object (level : Nat) {members : List (String × Json)}
    (present : members ≠ []) :
    indentedChars level (.object members) =
      '{' :: ([','].intercalate (members.map fun field =>
          lineBreak (level + 1) ++ memberText (level + 1) field) ++
        lineBreak level ++ ['}']) := by
  cases members with
  | nil => exact absurd rfl present
  | cons field members =>
      rw [intercalate_eq_moreParts]
      simp [indentedChars, indentedMembers_eq, memberText]

/-- The printer indents its texts. -/
theorem indents_indentedChars (level : Nat) (value : Json) :
    Indents level value (indentedChars level value) := by
  induction value using induction_on_parts generalizing level with
  | step value inductionHypothesis =>
      cases value with
      | array items =>
          by_cases empty : items = []
          · subst empty
            exact .plain level rfl
          · rw [indentedChars_array level empty]
            exact .array _ empty fun item member => inductionHypothesis item member (level + 1)
      | object members =>
          by_cases empty : members = []
          · subst empty
            exact .plain level rfl
          · rw [indentedChars_object level empty]
            exact .object _ empty fun field member =>
              inductionHypothesis field.2 (List.mem_map_of_mem member) (level + 1)
      | _ => exact .plain level rfl

/-! ## Reading back -/

/-- A text of a value begins neither with layout nor with the end of a list. -/
theorem exists_indentedChars_eq_cons (level : Nat) {value : Json} (integer : IntegerOnly value) :
    ∃ c rest, indentedChars level value = c :: rest ∧ Text.isLayout c = false ∧ c ≠ ']' := by
  cases value with
  | null => exact ⟨'n', _, rfl, rfl, by decide⟩
  | bool flag => cases flag <;> exact ⟨_, _, rfl, rfl, by decide⟩
  | int number =>
      obtain ⟨c, rest, begins, start⟩ := Text.exists_intChars_eq_cons number
      refine ⟨c, rest, begins, ?_⟩
      rcases start with rfl | digit
      · exact ⟨rfl, by decide⟩
      · refine ⟨isLayout_of_isDigit digit, ?_⟩
        rintro rfl
        cases digit
  | float number => cases integer
  | string text => exact ⟨'"', _, rfl, rfl, by decide⟩
  | array items => cases items <;> exact ⟨'[', _, rfl, rfl, by decide⟩
  | object members => cases members <;> exact ⟨'{', _, rfl, rfl, by decide⟩

theorem takes_member {depth level : Nat} {field : String × Json}
    (takes : Takes (value depth) (indentedChars level field.2) field.2) :
    Takes (member (value depth)) (memberText level field) field := by
  intro gap rest layout ends
  have space : IsLayout [' '] := by
    intro c member
    rw [List.mem_singleton.1 member]
    rfl
  have quote : Text.isLayout '"' = false := rfl
  have colon : Text.isLayout ':' = false := rfl
  have held := takes [' '] rest space ends
  rw [member, skipLayout_gap layout, memberText, List.append_assoc, quotedChars_append,
    skipLayout_cons quote]
  simp only [stringBody_escaped, List.cons_append, Option.bind_eq_bind, Option.bind_some,
    skipLayout_cons colon, String.ofList_toList]
  rw [List.singleton_append] at held
  simp [held]

theorem takes_intChars {integer : Int} (low : -9223372036854775808 ≤ integer)
    (high : integer ≤ 18446744073709551615) (depth : Nat) :
    Takes (value depth) (Text.intChars integer) (.int integer) := by
  refine takes_of_value fun rest ends => ?_
  obtain ⟨c, chars, begins, start⟩ := Text.exists_intChars_eq_cons integer
  have read := number_intChars low high ends
  rw [begins] at read ⊢
  rw [List.cons_append, value_number depth _ start]
  exact read

theorem takes_array {depth level : Nat} {items : List Json}
    (integers : ∀ item ∈ items, IntegerOnly item)
    (takes : ∀ item ∈ items, Takes (value depth) (indentedChars (level + 1) item) item) :
    Takes (value (depth + 1)) (indentedChars level (.array items)) (.array items) := by
  refine takes_of_value fun rest _ => ?_
  cases items with
  | nil =>
      have empty : indentedChars level (.array []) ++ rest = '[' :: ']' :: rest := rfl
      rw [empty, value_openBracket, enclosed_nothing rfl]
      rfl
  | cons item items =>
      obtain ⟨c, chars, begins, plain, unlike⟩ :=
        exists_indentedChars_eq_cons (level + 1) (integers item List.mem_cons_self)
      rw [indentedChars_array_append, value_openBracket,
        enclosed_moreParts (by decide) rfl takes begins plain unlike]
      rfl

theorem takes_object {depth level : Nat} {members : List (String × Json)}
    (sorted : Fields.Sorted members)
    (takes : ∀ field ∈ members,
      Takes (member (value depth)) (memberText (level + 1) field) field) :
    Takes (value (depth + 1)) (indentedChars level (.object members)) (.object members) := by
  refine takes_of_value fun rest _ => ?_
  cases members with
  | nil =>
      have empty : indentedChars level (.object []) ++ rest = '{' :: '}' :: rest := rfl
      rw [empty, value_openBrace, enclosed_nothing rfl]
      rfl
  | cons field members =>
      have begins : memberText (level + 1) field = '"' :: _ := rfl
      have kept : ofMembers (field :: members) = .object (field :: members) :=
        congrArg Json.object (Fields.ofPairs_eq_self sorted)
      rw [indentedChars_object_append, value_openBrace,
        enclosed_moreParts (by decide) rfl takes begins rfl (by decide), Option.map_some]
      simp only [kept]

/-- The indented text of a value of integers is read back as this value. -/
theorem takes_indentedChars {value : Json} (integers : Everywhere IntegerOnly value)
    (sorted : Everywhere MembersSorted value) (level : Nat) {depth : Nat}
    (shallow : nesting value ≤ depth) :
    Takes (Json.value depth) (indentedChars level value) value := by
  induction integers generalizing level depth with
  | @intro value integer partsIntegers inductionHypothesis =>
      obtain ⟨ordered, partsSorted⟩ := sorted
      -- A list or an object takes one level of the depth, and its parts have the others.
      have partTakes {lower : Nat} (below : depth = lower + 1) {part : Json}
          (member : part ∈ value.parts) :
          Takes (Json.value lower) (indentedChars (level + 1) part) part := by
        refine inductionHypothesis part member (partsSorted part member) (level + 1) ?_
        have deeper := nesting_part_lt member
        omega
      cases value with
      | null => exact takes_of_value fun rest _ => value_null depth rest
      | bool flag =>
          cases flag with
          | true => exact takes_of_value fun rest _ => value_true depth rest
          | false => exact takes_of_value fun rest _ => value_false depth rest
      | int number => exact takes_intChars integer.1 integer.2 depth
      | float number => cases integer
      | string text => exact takes_of_value fun rest _ => value_quotedChars depth text rest
      | array items =>
          obtain ⟨lower, rfl⟩ := Nat.exists_eq_succ_of_ne_zero
            (Nat.ne_of_gt (Nat.zero_lt_of_lt shallow))
          exact takes_array (fun item member => (partsIntegers item member).here)
            fun item member => partTakes rfl member
      | object members =>
          obtain ⟨lower, rfl⟩ := Nat.exists_eq_succ_of_ne_zero
            (Nat.ne_of_gt (Nat.zero_lt_of_lt shallow))
          exact takes_object ordered fun field member =>
            takes_member (partTakes rfl (List.mem_map_of_mem member))

/-! ## Whole texts -/

theorem parse?_of_takes {depth : Nat} {value : Json} {chars : List Char}
    (takes : Takes (Json.value depth) chars value) :
    parse? depth (String.ofList chars) = some value ∧
      parse? depth (String.ofList chars ++ "\n") = some value := by
  have noGap : IsLayout [] := List.forall_mem_nil _
  have alone := takes [] [] noGap .nothing
  have line := takes [] ['\n'] noGap (.lineEnd [])
  rw [List.nil_append, List.append_nil] at alone
  rw [List.nil_append] at line
  have lineEnd : "\n".toList = ['\n'] := rfl
  constructor
  · rw [parse?, String.toList_ofList, alone]
    rfl
  · rw [parse?, String.toList_append, String.toList_ofList, lineEnd, line]
    rfl

end RemoteRecords.Json
