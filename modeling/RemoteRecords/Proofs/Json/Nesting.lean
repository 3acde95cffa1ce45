import RemoteRecords.Proofs.Fields
import RemoteRecords.Proofs.Json.Integers

/-!
# Values and their parts

A property of values is carried to all of their parts (`Everywhere`). A value that is read off a
text has the members of its objects in order, and its lists and objects are nested no deeper than
the reader goes (`kept_of_value`).
-/

namespace RemoteRecords.Json

/-! ## Parts -/

/-- The values that stand in a list or an object. -/
def parts : Json → List Json
  | .array items => items
  | .object members => members.map Prod.snd
  | _ => []

/-- The property holds of a value and of all values in it. -/
inductive Everywhere (holds : Json → Prop) : Json → Prop
  | intro {value : Json} : holds value → (∀ part ∈ value.parts, Everywhere holds part) →
      Everywhere holds value

theorem Everywhere.here {holds : Json → Prop} {value : Json}
    (everywhere : Everywhere holds value) : holds value := by
  obtain ⟨here, -⟩ := everywhere
  exact here

@[simp] theorem everywhere_array_iff {holds : Json → Prop} {items : List Json} :
    Everywhere holds (.array items) ↔
      holds (.array items) ∧ ∀ item ∈ items, Everywhere holds item := by
  constructor
  · rintro ⟨here, inside⟩
    exact ⟨here, inside⟩
  · rintro ⟨here, inside⟩
    exact .intro here inside

@[simp] theorem everywhere_object_iff {holds : Json → Prop} {members : List (String × Json)} :
    Everywhere holds (.object members) ↔
      holds (.object members) ∧ ∀ field ∈ members, Everywhere holds field.2 := by
  constructor
  · rintro ⟨here, inside⟩
    exact ⟨here, List.forall_mem_map.1 inside⟩
  · rintro ⟨here, inside⟩
    exact .intro here (List.forall_mem_map.2 inside)

theorem Everywhere.of_plain {holds : Json → Prop} {value : Json} (here : holds value)
    (plain : value.parts = []) : Everywhere holds value := by
  refine .intro here ?_
  rw [plain]
  exact List.forall_mem_nil _

/-- A number is an integer of 64 bits, with a sign or without. -/
def IntegerOnly : Json → Prop
  | .int number => -9223372036854775808 ≤ number ∧ number ≤ 18446744073709551615
  | .float _ => False
  | _ => True

/-- The members of an object stand in the order of their names, each once. -/
def MembersSorted : Json → Prop
  | .object members => Fields.Sorted members
  | _ => True

/-! ## Depth -/

mutual

/-- How deep lists and objects are nested in a value. -/
def nesting : Json → Nat
  | .array items => nestingItems items + 1
  | .object members => nestingMembers members + 1
  | _ => 0

def nestingItems : List Json → Nat
  | [] => 0
  | item :: items => max (nesting item) (nestingItems items)

def nestingMembers : List (String × Json) → Nat
  | [] => 0
  | (_, value) :: members => max (nesting value) (nestingMembers members)

end

theorem nestingItems_le_iff {items : List Json} {depth : Nat} :
    nestingItems items ≤ depth ↔ ∀ item ∈ items, nesting item ≤ depth := by
  induction items with
  | nil => simp [nestingItems]
  | cons item items inductionHypothesis =>
      rw [nestingItems, Nat.max_le, inductionHypothesis, List.forall_mem_cons]

theorem nestingMembers_eq (members : List (String × Json)) :
    nestingMembers members = nestingItems (members.map Prod.snd) := by
  induction members with
  | nil => rfl
  | cons field members inductionHypothesis =>
      rw [nestingMembers, inductionHypothesis, List.map_cons, nestingItems]

/-- A list or an object is nested one level deeper than its parts. -/
theorem nesting_part_lt {value part : Json} (member : part ∈ value.parts) :
    nesting part < nesting value := by
  cases value with
  | array items =>
      rw [nesting]
      exact Nat.lt_succ_of_le (nestingItems_le_iff.1 (Nat.le_refl _) part member)
  | object members =>
      rw [nesting, nestingMembers_eq]
      exact Nat.lt_succ_of_le (nestingItems_le_iff.1 (Nat.le_refl _) part member)
  | _ => cases member

/-- What holds of a value whenever it holds of the parts holds of every value. -/
theorem induction_on_parts {motive : Json → Prop}
    (step : ∀ value, (∀ part ∈ value.parts, motive part) → motive value) (value : Json) :
    motive value := by
  induction depth : nesting value using Nat.strongRecOn generalizing value with
  | ind depth inductionHypothesis =>
      subst depth
      exact step value fun part member =>
        inductionHypothesis (nesting part) (nesting_part_lt member) part rfl

/-! ## Values that are read -/

section Enclosed

variable {α : Type} {item : List Char → Option (α × List Char)} {close : Char}

theorem exists_read_of_separated {fuel : Nat} {text after : List Char} {found : List α}
    (read : separated item close fuel text = some (found, after)) :
    ∀ part ∈ found, ∃ before rest, item before = some (part, rest) := by
  induction fuel generalizing text found after with
  | zero => cases read
  | succ fuel inductionHypothesis =>
      rw [separated] at read
      split at read
      · cases read
      · next first rest firstRead =>
          have here : ∃ before rest, item before = some (first, rest) := ⟨text, rest, firstRead⟩
          split at read
          · cases read
          · split at read
            · obtain ⟨⟨later, behind⟩, laterRead, same⟩ := Option.map_eq_some_iff.1 read
              cases same
              exact List.forall_mem_cons.2 ⟨here, inductionHypothesis laterRead⟩
            · split at read
              · cases read
                exact List.forall_mem_singleton.2 here
              · cases read

theorem exists_read_of_enclosed {text after : List Char} {found : List α}
    (read : enclosed item close text = some (found, after)) :
    ∀ part ∈ found, ∃ before rest, item before = some (part, rest) := by
  rw [enclosed] at read
  split at read
  · cases read
  · split at read
    · cases read
      exact List.forall_mem_nil _
    · exact exists_read_of_separated read

end Enclosed

theorem exists_read_of_member {value : List Char → Option (Json × List Char)}
    {text rest : List Char} {field : String × Json}
    (read : member value text = some (field, rest)) :
    ∃ before after, value before = some (field.2, after) := by
  rw [member.eq_def] at read
  split at read
  · obtain ⟨⟨name, body⟩, -, read⟩ := Option.bind_eq_some_iff.1 read
    dsimp only at read
    split at read
    · obtain ⟨⟨held, after⟩, heldRead, same⟩ := Option.bind_eq_some_iff.1 read
      cases same
      exact ⟨_, _, heldRead⟩
    · cases read
  · cases read

/-- The members of the objects in a value are in order, and it is nested no deeper than this. -/
def Kept (depth : Nat) (value : Json) : Prop :=
  Everywhere MembersSorted value ∧ nesting value ≤ depth

theorem Kept.part {depth : Nat} {value part : Json} (kept : Kept depth value)
    (member : part ∈ value.parts) : Kept depth part := by
  obtain ⟨⟨-, partsSorted⟩, shallow⟩ := kept
  exact ⟨partsSorted part member, (nesting_part_lt member).le.trans shallow⟩

theorem Kept.of_plain {depth : Nat} {value : Json} (sorted : MembersSorted value)
    (plain : nesting value = 0) : Kept depth value := by
  refine ⟨.intro sorted fun part member => ?_, plain ▸ Nat.zero_le depth⟩
  have deeper := nesting_part_lt member
  rw [plain] at deeper
  exact absurd deeper (Nat.not_lt_zero _)

theorem Kept.array {depth : Nat} {items : List Json} (kept : ∀ item ∈ items, Kept depth item) :
    Kept (depth + 1) (.array items) := by
  refine ⟨.intro trivial fun item member => (kept item member).1, ?_⟩
  rw [nesting]
  exact Nat.succ_le_succ (nestingItems_le_iff.2 fun item member => (kept item member).2)

theorem Kept.ofMembers {depth : Nat} {members : List (String × Json)}
    (kept : ∀ field ∈ members, Kept depth field.2) : Kept (depth + 1) (ofMembers members) := by
  have partKept : ∀ part ∈ (Fields.ofPairs members).map Prod.snd, Kept depth part := by
    intro part held
    obtain ⟨field, member, rfl⟩ := List.mem_map.1 held
    exact kept field (Fields.mem_of_mem_ofPairs member)
  refine ⟨.intro (Fields.sorted_ofPairs members) fun part member => (partKept part member).1, ?_⟩
  rw [Json.ofMembers, nesting, nestingMembers_eq]
  exact Nat.succ_le_succ (nestingItems_le_iff.2 fun part member => (partKept part member).2)

theorem kept_of_value? {depth : Nat} {found : Literal} {json : Json}
    (read : found.value? = some json) : Kept depth json := by
  have integer (number : Int) : Kept depth (.int number) := .of_plain trivial rfl
  have float (read : found.toFloat?.map Json.float = some json) : Kept depth json := by
    obtain ⟨number, -, rfl⟩ := Option.map_eq_some_iff.1 read
    exact .of_plain trivial rfl
  rw [Literal.value?.eq_def] at read
  split at read
  · split at read
    · cases read
      exact integer _
    · split at read
      · cases read
        exact integer _
      · exact float read
  · exact float read

theorem kept_of_number {depth : Nat} {text rest : List Char} {json : Json}
    (read : number text = some (json, rest)) : Kept depth json := by
  by_cases minus : ∃ digits, text = '-' :: digits
  · obtain ⟨digits, rfl⟩ := minus
    obtain ⟨found, -, valueRead⟩ := number_minus read
    exact kept_of_value? valueRead
  · obtain ⟨found, -, valueRead⟩ := number_unsigned (not_exists.1 minus) read
    exact kept_of_value? valueRead

/-- What is read off a text has its members in order and is no deeper than the reader goes. -/
theorem kept_of_value {depth : Nat} {text rest : List Char} {json : Json}
    (read : value depth text = some (json, rest)) : Kept depth json := by
  induction depth using Nat.strongRecOn generalizing text rest json with
  | ind depth inductionHypothesis =>
      rw [value.eq_def] at read
      split at read
      · cases read
        exact .of_plain trivial rfl
      · cases read
        exact .of_plain trivial rfl
      · cases read
        exact .of_plain trivial rfl
      · obtain ⟨⟨chars, after⟩, -, same⟩ := Option.map_eq_some_iff.1 read
        cases same
        exact .of_plain trivial rfl
      · split at read
        · cases read
        · next depth =>
            obtain ⟨⟨items, after⟩, itemsRead, same⟩ := Option.map_eq_some_iff.1 read
            cases same
            refine .array fun item member => ?_
            obtain ⟨before, behind, itemRead⟩ := exists_read_of_enclosed itemsRead item member
            exact inductionHypothesis depth (Nat.lt_succ_self depth) itemRead
      · split at read
        · cases read
        · next depth =>
            obtain ⟨⟨members, after⟩, membersRead, same⟩ := Option.map_eq_some_iff.1 read
            cases same
            refine .ofMembers fun field member => ?_
            obtain ⟨before, behind, fieldRead⟩ := exists_read_of_enclosed membersRead field member
            obtain ⟨start, stop, heldRead⟩ := exists_read_of_member fieldRead
            exact inductionHypothesis depth (Nat.lt_succ_self depth) heldRead
      · exact kept_of_number read

theorem kept_of_parse? {depth : Nat} {text : String} {json : Json}
    (read : parse? depth text = some json) : Kept depth json := by
  rw [parse?] at read
  split at read
  · next found rest valueRead =>
      split at read
      · cases read
        exact kept_of_value valueRead
      · cases read
  · cases read

end RemoteRecords.Json
