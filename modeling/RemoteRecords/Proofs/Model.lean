import Mathlib.Data.List.Forall2
import RemoteRecords.Model
import RemoteRecords.Proofs.Path
import RemoteRecords.Proofs.Text.Trimming

/-!
# Names of models and fields

`Serves` and `Lists` say what a model is called on the server and which fields a text lists, without
the functions that compute them (`serves_serverName`, `lists_fieldNames`).
-/

namespace RemoteRecords

/-- Pieces with the separators between them are what was divided. -/
theorem Text.intercalate_splitOn (separator : Char) (chars : List Char) :
    [separator].intercalate (splitOn separator chars) = chars := by
  induction chars with
  | nil => rfl
  | cons c rest inductionHypothesis =>
      obtain ⟨piece, pieces, divided⟩ := List.exists_cons_of_ne_nil (splitOn_ne_nil separator rest)
      rw [divided] at inductionHypothesis
      rw [splitOn, divided]
      split
      · next same =>
          rw [List.intercalate_cons_cons, inductionHypothesis, same]
          rfl
      · dsimp only
        rw [← inductionHypothesis]
        cases pieces <;> simp [List.intercalate]

namespace Model

/-- What a model is called on the server: its name with dots in place of underscores. -/
def Serves (name served : String) : Prop :=
  served.toList = name.toList.map fun c => if c = '_' then '.' else c

/-- The fields that a text lists: what stands between its commas, without white space at its ends.
Blank names are left out, and without a text there are none. -/
structure Lists (text : Option String) (fields : List String) : Prop where
  absent : text = none → fields = []
  listed : ∀ list, text = some list → ∃ pieces names : List (List Char),
    [','].intercalate pieces = list.toList ∧ (∀ piece ∈ pieces, ',' ∉ piece) ∧
      List.Forall₂ (Text.Trims fun c => Text.isBlank c = true) pieces names ∧
      fields.map String.toList = names.filter fun name => !name.isEmpty

theorem serves_serverName (name : String) : Serves name (serverName name) := by
  rw [Serves, serverName, String.toList_ofList]

theorem lists_fieldNames (text : Option String) : Lists text (fieldNames text) := by
  constructor
  · rintro rfl
    rfl
  · rintro list rfl
    refine ⟨Text.splitOn ',' list.toList, (Text.splitOn ',' list.toList).map
      (Text.trimBoth Text.isBlank), Text.intercalate_splitOn _ _, ?_, ?_, ?_⟩
    · exact fun piece member => Text.not_mem_of_mem_splitOn member
    · rw [List.forall₂_map_right_iff, List.forall₂_same]
      exact fun piece _ => Text.trimBoth_eq_iff.1 rfl
    · rw [fieldNames, List.map_map]
      exact List.map_id'' (fun _ => String.toList_ofList) _

example : fieldNames (some " name, ,email") = ["name", "email"] := by decide

end Model

end RemoteRecords
