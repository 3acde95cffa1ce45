namespace RemoteRecords.Bounds

/-- The least and the greatest integer of 64 bits. -/
def least64 : Int := -9223372036854775808

def greatest64 : Int := 9223372036854775807

/-- The greatest natural number of 64 bits. -/
def greatestNat64 : Nat := 18446744073709551615

/-- The greatest natural number of 32 bits. -/
def greatestNat32 : Nat := 4294967295

/-- The sum of two natural numbers, or the greatest one of 64 bits when the sum has more. -/
def saturatingSum (left right : Nat) : Nat := min (left + right) greatestNat64

/-- The last 64 bits of the sum of two natural numbers. -/
def wrappingSum (left right : Nat) : Nat := (left + right) % (greatestNat64 + 1)

/-- The items from the place `start` up to the place `stop`, when these bound a part of the list. -/
def slice? {α : Type} (items : List α) (start stop : Nat) : Option (List α) :=
  if start ≤ stop ∧ stop ≤ items.length then some ((items.take stop).drop start) else none

/-- Whether an integer has 64 bits. -/
def fits64 (value : Int) : Bool := least64 ≤ value && value ≤ greatest64

theorem fits64_iff (value : Int) :
    fits64 value = true ↔ -9223372036854775808 ≤ value ∧ value ≤ 9223372036854775807 := by
  rw [fits64, Bool.and_eq_true, decide_eq_true_iff, decide_eq_true_iff]
  exact Iff.rfl

theorem wrappingSum_of_le {left right : Nat} (small : left + right ≤ greatestNat64) :
    wrappingSum left right = left + right :=
  Nat.mod_eq_of_lt (Nat.lt_succ_of_le small)

theorem slice?_eq_some_iff {α : Type} {items part : List α} {start stop : Nat} :
    slice? items start stop = some part ↔
      start ≤ stop ∧ stop ≤ items.length ∧ part = (items.drop start).take (stop - start) := by
  rw [slice?, List.drop_take]
  split
  · next bounds => simp [bounds.1, bounds.2, eq_comm]
  · next unbounded =>
      refine iff_of_false nofun ?_
      rintro ⟨ordered, inside, -⟩
      exact unbounded ⟨ordered, inside⟩

end RemoteRecords.Bounds
