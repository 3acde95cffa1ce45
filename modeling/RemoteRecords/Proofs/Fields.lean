import Mathlib.Data.List.Induction
import RemoteRecords.Fields

/-!
# Fields in order

Setting, leaving out and collecting fields keep the names in increasing order, each once
(`sorted_insert`, `sorted_erase`, `sorted_ofPairs`), and fields in order are determined by the
values of all names (`eq_of_find?_eq`). Of several pairs with one name the last is collected
(`find?_ofPairs_eq_some_iff`), and pairs that are in order are kept as they are (`ofPairs_eq_self`).
Where the value of a name depends on the name alone, what is collected depends neither on the order
of the names nor on their repetitions (`find?_ofPairs_map`).
-/

namespace RemoteRecords.Fields

variable {α β : Type}

theorem lt_of_not_lt_of_ne {left right : String} (notLess : ¬ left < right)
    (different : left ≠ right) : right < left := by
  apply Classical.byContradiction
  intro notGreater
  exact different (String.le_antisymm (String.not_lt.1 notGreater) (String.not_lt.1 notLess))

/-! ## Names -/

theorem insert_before {name other : String} {value held : α} {rest : Fields α}
    (before : name < other) :
    insert name value ((other, held) :: rest) = (name, value) :: (other, held) :: rest := by
  rw [insert, if_pos before]

theorem insert_behind {name other : String} {value held : α} {rest : Fields α}
    (behind : ¬ name < other) (different : name ≠ other) :
    insert name value ((other, held) :: rest) = (other, held) :: insert name value rest := by
  rw [insert, if_neg behind, if_neg different]

theorem mem_names_insert {name other : String} {value : α} {fields : Fields α} :
    other ∈ (insert name value fields).names ↔ other = name ∨ other ∈ fields.names := by
  induction fields with
  | nil => simp [insert, names]
  | cons field rest inductionHypothesis =>
      obtain ⟨held, heldValue⟩ := field
      simp only [names] at inductionHypothesis
      rw [insert]
      split
      · simp [names]
      · split
        · next same => simp [names, same]
        · simp [names, inductionHypothesis, or_left_comm]

theorem mem_of_mem_insert {name : String} {value : α} {fields : Fields α} {field : String × α}
    (member : field ∈ insert name value fields) : field = (name, value) ∨ field ∈ fields := by
  induction fields with
  | nil => exact .inl (List.mem_singleton.1 member)
  | cons other fields inductionHypothesis =>
      rw [insert] at member
      split at member
      · exact List.mem_cons.1 member
      · split at member
        · exact (List.mem_cons.1 member).imp_right (List.mem_cons_of_mem _)
        · rcases List.mem_cons.1 member with rfl | later
          · exact .inr List.mem_cons_self
          · exact (inductionHypothesis later).imp_right (List.mem_cons_of_mem _)

theorem mem_names_iff {name : String} {fields : Fields α} :
    name ∈ fields.names ↔ (find? name fields).isSome = true := by
  induction fields with
  | nil => simp [names, find?]
  | cons field rest inductionHypothesis =>
      simp only [names] at inductionHypothesis
      rw [names, List.map_cons, List.mem_cons, inductionHypothesis, find?]
      by_cases same : field.1 = name
      · simp [same]
      · simp [same, Ne.symm same]

theorem mem_of_find?_eq_some {name : String} {value : α} {fields : Fields α}
    (found : find? name fields = some value) : (name, value) ∈ fields := by
  induction fields with
  | nil => cases found
  | cons field rest inductionHypothesis =>
      obtain ⟨other, held⟩ := field
      rw [find?] at found
      split at found
      · next same =>
          cases found
          exact same ▸ List.mem_cons_self
      · exact List.mem_cons_of_mem _ (inductionHypothesis found)

theorem find?_map (f : α → β) (name : String) (fields : Fields α) :
    find? name (fields.map fun field => (field.1, f field.2)) =
      (find? name fields).map f := by
  induction fields with
  | nil => rfl
  | cons field rest inductionHypothesis =>
      rw [List.map_cons, find?, find?, inductionHypothesis]
      split <;> rfl

/-! ## Order -/

theorem sorted_insert {name : String} {value : α} {fields : Fields α} (sorted : fields.Sorted) :
    (insert name value fields).Sorted := by
  induction fields with
  | nil => exact List.pairwise_singleton _ _
  | cons field rest inductionHypothesis =>
      obtain ⟨held, heldValue⟩ := field
      obtain ⟨below, sortedRest⟩ := List.pairwise_cons.1 sorted
      rw [insert]
      split
      · next less =>
          refine List.pairwise_cons.2 ⟨?_, sorted⟩
          intro other member
          rcases List.mem_cons.1 member with rfl | later
          · exact less
          · exact String.lt_trans less (below other later)
      · next notLess =>
          split
          · next same =>
              subst same
              exact List.pairwise_cons.2 ⟨below, sortedRest⟩
          · next different =>
              refine List.pairwise_cons.2 ⟨?_, inductionHypothesis sortedRest⟩
              intro other member
              have named : other.1 ∈ (insert name value rest).names :=
                List.mem_map_of_mem member
              rcases mem_names_insert.1 named with same | held
              · rw [same]
                exact lt_of_not_lt_of_ne notLess different
              · obtain ⟨field, fieldMember, same⟩ := List.mem_map.1 held
                rw [← same]
                exact below field fieldMember

/-- A name above all others goes to the end. -/
theorem insert_above {name : String} {value : α} {fields : Fields α}
    (above : ∀ field ∈ fields, field.1 < name) :
    insert name value fields = fields ++ [(name, value)] := by
  induction fields with
  | nil => rfl
  | cons field fields inductionHypothesis =>
      obtain ⟨first, later⟩ := List.forall_mem_cons.1 above
      rw [insert_behind (fun below => String.lt_irrefl _ (String.lt_trans first below))
        (fun same => String.lt_irrefl _ (same ▸ first)), inductionHypothesis later]
      rfl

theorem erase_sublist (name : String) (fields : Fields α) :
    (erase name fields).Sublist fields := by
  induction fields with
  | nil => exact List.Sublist.refl _
  | cons field rest inductionHypothesis =>
      rw [erase]
      split
      · exact inductionHypothesis.cons _
      · exact inductionHypothesis.cons_cons _

theorem sorted_erase {name : String} {fields : Fields α} (sorted : fields.Sorted) :
    (erase name fields).Sorted :=
  List.Pairwise.sublist (erase_sublist name fields) sorted

theorem sorted_map (f : α → β) {fields : Fields α} (sorted : fields.Sorted) :
    Sorted (fields.map fun field => (field.1, f field.2)) :=
  List.pairwise_map.2 sorted

theorem sorted_iff_names {fields : Fields α} :
    fields.Sorted ↔ fields.names.Pairwise (· < ·) :=
  List.pairwise_map.symm

/-! ## Equal values -/

theorem find?_eq_none_of_lt {name : String} {fields : Fields α}
    (below : ∀ field ∈ fields, name < field.1) : find? name fields = none := by
  rw [← Option.not_isSome_iff_eq_none, ← mem_names_iff]
  intro member
  obtain ⟨field, held, same⟩ := List.mem_map.1 member
  exact String.lt_irrefl name (same ▸ below field held)

theorem find?_cons_self (name : String) (value : α) (rest : Fields α) :
    find? name ((name, value) :: rest) = some value := by
  rw [find?, if_pos rfl]

theorem find?_cons_of_ne {name other : String} (different : other ≠ name) (value : α)
    (rest : Fields α) : find? name ((other, value) :: rest) = find? name rest := by
  rw [find?, if_neg different]

/-- The first name of fields in order is no greater than that of fields with the same values. -/
theorem not_lt_of_find?_eq {first second : String} {value held : α} {rest others : Fields α}
    (sorted : Sorted ((second, held) :: others))
    (same : ∀ name, find? name ((first, value) :: rest) =
      find? name ((second, held) :: others)) : ¬ first < second := by
  intro less
  have absent : find? first ((second, held) :: others) = none := by
    refine find?_eq_none_of_lt fun field member => ?_
    rcases List.mem_cons.1 member with rfl | later
    · exact less
    · exact String.lt_trans less ((List.pairwise_cons.1 sorted).1 field later)
  rw [← same, find?_cons_self] at absent
  cases absent

/-- Fields in order are determined by the values of all names. -/
theorem eq_of_find?_eq {first second : Fields α} (sorted : first.Sorted)
    (alsoSorted : second.Sorted) (same : ∀ name, find? name first = find? name second) :
    first = second := by
  induction first generalizing second with
  | nil =>
      cases second with
      | nil => rfl
      | cons field rest => cases (same field.1).trans (find?_cons_self field.1 field.2 rest)
  | cons field rest inductionHypothesis =>
      obtain ⟨name, value⟩ := field
      cases second with
      | nil => cases (same name).symm.trans (find?_cons_self name value rest)
      | cons other others =>
          obtain ⟨otherName, held⟩ := other
          have names : name = otherName :=
            String.le_antisymm
              (String.not_lt.1 (not_lt_of_find?_eq sorted fun other => (same other).symm))
              (String.not_lt.1 (not_lt_of_find?_eq alsoSorted same))
          subst names
          have values := same name
          rw [find?_cons_self, find?_cons_self] at values
          have later : ∀ other, find? other rest = find? other others := by
            intro other
            by_cases here : name = other
            · subst here
              rw [find?_eq_none_of_lt (List.pairwise_cons.1 sorted).1,
                find?_eq_none_of_lt (List.pairwise_cons.1 alsoSorted).1]
            · have there := same other
              rwa [find?_cons_of_ne here, find?_cons_of_ne here] at there
          rw [Option.some.inj values, inductionHypothesis (List.pairwise_cons.1 sorted).2
            (List.pairwise_cons.1 alsoSorted).2 later]

/-! ## Collected pairs -/

theorem sorted_ofPairs (pairs : List (String × α)) : (ofPairs pairs).Sorted := by
  rw [ofPairs]
  have empty : Sorted ([] : Fields α) := List.Pairwise.nil
  generalize ([] : Fields α) = fields at empty ⊢
  induction pairs generalizing fields with
  | nil => exact empty
  | cons pair pairs inductionHypothesis =>
      exact inductionHypothesis _ (sorted_insert empty)

theorem find?_foldl_insert (value : String → α) (named : List String) (name : String)
    (fields : Fields α) :
    find? name (named.foldl (fun fields other => insert other (value other) fields) fields) =
      if name ∈ named then some (value name) else find? name fields := by
  induction named generalizing fields with
  | nil => rfl
  | cons other named inductionHypothesis =>
      rw [List.foldl_cons, inductionHypothesis, find?_insert]
      by_cases same : other = name
      · simp [same]
      · simp [same, Ne.symm same]

theorem find?_ofPairs_map (value : String → α) (named : List String) (name : String) :
    find? name (ofPairs (named.map fun other => (other, value other))) =
      if name ∈ named then some (value name) else none := by
  rw [ofPairs, List.foldl_map]
  exact find?_foldl_insert value named name []

/-! ## The last of several -/

theorem ofPairs_concat (pairs : List (String × α)) (pair : String × α) :
    ofPairs (pairs ++ [pair]) = insert pair.1 pair.2 (ofPairs pairs) := by
  rw [ofPairs, List.foldl_append]
  rfl

theorem mem_names_ofPairs {name : String} {pairs : List (String × α)} :
    name ∈ (ofPairs pairs).names ↔ name ∈ pairs.map Prod.fst := by
  induction pairs using List.reverseRecOn with
  | nil => simp [ofPairs, names]
  | append_singleton pairs pair inductionHypothesis =>
      rw [ofPairs_concat, mem_names_insert, inductionHypothesis]
      simp [or_comm]

theorem mem_of_mem_ofPairs {pairs : List (String × α)} {field : String × α}
    (member : field ∈ ofPairs pairs) : field ∈ pairs := by
  induction pairs using List.reverseRecOn with
  | nil => cases member
  | append_singleton pairs pair inductionHypothesis =>
      rw [ofPairs_concat] at member
      rcases mem_of_mem_insert member with rfl | earlier
      · exact List.mem_append_right _ List.mem_cons_self
      · exact List.mem_append_left _ (inductionHypothesis earlier)

/-- Pairs that are in order are collected as they are. -/
theorem ofPairs_eq_self {fields : Fields α} (sorted : fields.Sorted) : ofPairs fields = fields := by
  induction fields using List.reverseRecOn with
  | nil => rfl
  | append_singleton fields field inductionHypothesis =>
      obtain ⟨front, -, above⟩ := List.pairwise_append.1 sorted
      rw [ofPairs_concat, inductionHypothesis front, insert_above]
      exact fun other member => above other member field List.mem_cons_self

/-- The last element of a list is the one in the middle of a split or the last one behind it. -/
theorem concat_eq_append_cons {β : Type} {list before after : List β} {final item : β}
    (split : list ++ [final] = before ++ item :: after) :
    after = [] ∧ final = item ∨
      ∃ rest, after = rest ++ [final] ∧ list = before ++ item :: rest := by
  rcases List.eq_nil_or_concat after with rfl | ⟨rest, other, rfl⟩
  · exact .inl ⟨rfl, (List.cons.inj (List.append_inj' split rfl).2).1⟩
  · rw [List.concat_eq_append] at split ⊢
    rw [← List.cons_append, ← List.append_assoc] at split
    obtain ⟨front, back⟩ := List.append_inj' split rfl
    rw [(List.cons.inj back).1]
    exact .inr ⟨rest, rfl, front⟩

/-- Of several pairs with one name the last counts. -/
theorem find?_ofPairs_eq_some_iff {name : String} {value : α} {pairs : List (String × α)} :
    find? name (ofPairs pairs) = some value ↔
      ∃ before after, pairs = before ++ (name, value) :: after ∧ name ∉ after.map Prod.fst := by
  induction pairs using List.reverseRecOn with
  | nil => simp [ofPairs, find?]
  | append_singleton pairs pair inductionHypothesis =>
      obtain ⟨other, held⟩ := pair
      rw [ofPairs_concat, find?_insert]
      by_cases here : other = name
      · subst here
        rw [if_pos rfl, Option.some.injEq]
        constructor
        · rintro rfl
          exact ⟨pairs, [], rfl, List.not_mem_nil⟩
        · rintro ⟨before, after, split, absent⟩
          rcases concat_eq_append_cons split with ⟨-, same⟩ | ⟨rest, rfl, -⟩
          · exact (Prod.mk.inj same).2
          · rw [List.map_append] at absent
            exact absurd (List.mem_append_right _ List.mem_cons_self) absent
      · rw [if_neg here, inductionHypothesis]
        constructor
        · rintro ⟨before, after, rfl, absent⟩
          refine ⟨before, after ++ [(other, held)], List.append_assoc _ _ _, ?_⟩
          rw [List.map_append, List.mem_append, List.map_singleton, List.mem_singleton]
          exact not_or.2 ⟨absent, Ne.symm here⟩
        · rintro ⟨before, after, split, absent⟩
          rcases concat_eq_append_cons split with ⟨-, same⟩ | ⟨rest, rfl, front⟩
          · exact absurd (Prod.mk.inj same).1 here
          · rw [List.map_append, List.mem_append, not_or] at absent
            exact ⟨before, rest, front, absent.1⟩

end RemoteRecords.Fields
