import Mathlib.Data.List.Basic
import Mathlib.Data.List.TakeDrop
import RemoteRecords.Table.Basic

/-!
# Chosen rows

The rows that a table with fewer than `2 ^ 64` rows gives for an offset and a limit always lie inside
it, and are those that remain when the first ones are dropped and the rest is cut
(`select?_eq_some`). The windows of one size divide the rows (`flatten_windows`).
-/

namespace RemoteRecords.Table

/-! ## Rows behind an offset -/

section Selection

variable (table : Table) (offset limit : Nat)

theorem select?_eq_some (held : table.rows.length ≤ Bounds.greatestNat64) :
    table.select? offset limit =
      some (if limit = 0 then table.rows.drop offset else (table.rows.drop offset).take limit) := by
  -- The sum with the limit saturates only beyond the end of the table.
  have unsaturated :
      min (Bounds.saturatingSum (min offset table.rows.length) limit) table.rows.length =
        min (min offset table.rows.length + limit) table.rows.length := by
    rw [Bounds.saturatingSum, Nat.min_assoc, Nat.min_eq_right held]
  rw [select?]
  rw [unsaturated, Bounds.slice?_eq_some_iff]
  refine ⟨by split <;> omega, by split <;> omega, ?_⟩
  rcases Nat.le_total offset table.rows.length with inside | behind
  · rw [Nat.min_eq_left inside]
    split
    · rw [← List.length_drop, List.take_length]
    · rw [List.take_eq_take_iff, List.length_drop]
      omega
  · rw [Nat.min_eq_right behind, List.drop_length, List.drop_of_length_le behind]
    simp

theorem select_eq (held : table.rows.length ≤ Bounds.greatestNat64) :
    table.select offset limit =
      if limit = 0 then table.rows.drop offset else (table.rows.drop offset).take limit := by
  rw [select, table.select?_eq_some offset limit held, Option.getD_some]

theorem getElem?_select {index : Nat}
    (inRange : index < (table.select offset limit).length) :
    (table.select offset limit)[index]? = table.rows[offset + index]? ∧
      offset + index < table.rows.length ∧ (limit ≠ 0 → index < limit) := by
  rw [select] at inRange ⊢
  cases chosen : table.select? offset limit with
  | none =>
      rw [chosen] at inRange
      exact absurd inRange (Nat.not_lt_zero _)
  | some rows =>
      obtain ⟨-, -, rfl⟩ := Bounds.slice?_eq_some_iff.1 chosen
      rw [chosen, Option.getD_some, List.length_take, List.length_drop] at inRange
      have start : min offset table.rows.length = offset := by omega
      rw [start] at inRange ⊢
      refine ⟨?_, by omega, ?_⟩
      · rw [Option.getD_some, List.getElem?_take_of_lt (by omega), List.getElem?_drop]
      · intro limited
        rw [if_neg limited, Bounds.saturatingSum] at inRange
        omega

end Selection

/-! ## Windows -/

/-- The number of windows of the given size that are needed for all rows. -/
def windowCount (table : Table) (size : Nat) : Nat := (table.rows.length + size - 1) / size

/-- The rows at every multiple of `size` as an offset, with `size` as the limit. -/
def windows (table : Table) (size : Nat) : List (List (List String)) :=
  (List.range (table.windowCount size)).map fun index => table.select (index * size) size

section Windows

variable {table : Table} {size : Nat} (positive : 0 < size)

include positive

/-- The windows are those whose offset is not too large. -/
theorem lt_windowCount_iff {index : Nat} :
    index < table.windowCount size ↔ index * size < table.rows.length := by
  rw [windowCount, Nat.lt_iff_add_one_le, Nat.le_div_iff_mul_le positive, Nat.succ_mul]
  omega

theorem flatten_first_windows (held : table.rows.length ≤ Bounds.greatestNat64) (count : Nat) :
    ((List.range count).map fun index => table.select (index * size) size).flatten =
      table.rows.take (count * size) := by
  induction count with
  | zero => simp
  | succ count inductionHypothesis =>
      rw [List.range_succ, List.map_append, List.flatten_append, inductionHypothesis,
        List.map_singleton, List.flatten_singleton, table.select_eq _ _ held,
        if_neg (Nat.ne_of_gt positive), Nat.succ_mul, List.take_add]

theorem flatten_windows (held : table.rows.length ≤ Bounds.greatestNat64) :
    (table.windows size).flatten = table.rows := by
  have enough : table.rows.length ≤ table.windowCount size * size := by
    by_contra short
    exact Nat.lt_irrefl _ ((lt_windowCount_iff positive).2 (Nat.lt_of_not_le short))
  rw [windows, flatten_first_windows positive held, List.take_of_length_le enough]

end Windows

end RemoteRecords.Table
