import Mathlib.Data.List.Perm.Basic

/-!
# Lists up to order

What several workers do comes in some order, what one worker does in a known one. `Rearranged` says
both at once. A list whose images are those of another list in some order can itself be put into the
order of that list (`Rearranged.exists_map_eq`).
-/

namespace RemoteRecords

/-- Two lists have the same members, and if `alone` holds they have them in the same order. -/
structure Rearranged {α : Type} (alone : Prop) (first second : List α) : Prop where
  perm : first.Perm second
  same : alone → first = second

namespace Rearranged

variable {α β : Type} {alone : Prop} {first second third : List α}

theorem refl (alone : Prop) (items : List α) : Rearranged alone items items :=
  ⟨.refl items, fun _ => rfl⟩

theorem symm (rearranged : Rearranged alone first second) : Rearranged alone second first :=
  ⟨rearranged.perm.symm, fun one => (rearranged.same one).symm⟩

theorem trans (left : Rearranged alone first second) (right : Rearranged alone second third) :
    Rearranged alone first third :=
  ⟨left.perm.trans right.perm, fun one => (left.same one).trans (right.same one)⟩

theorem mono {lone : Prop} (rearranged : Rearranged alone first second) (alone_of : lone → alone) :
    Rearranged lone first second :=
  ⟨rearranged.perm, fun one => rearranged.same (alone_of one)⟩

theorem append {firstEnd secondEnd : List α} (front : Rearranged alone first second)
    (back : Rearranged alone firstEnd secondEnd) :
    Rearranged alone (first ++ firstEnd) (second ++ secondEnd) :=
  ⟨front.perm.append back.perm, fun one => by rw [front.same one, back.same one]⟩

theorem map (f : α → β) (rearranged : Rearranged alone first second) :
    Rearranged alone (first.map f) (second.map f) :=
  ⟨rearranged.perm.map f, fun one => by rw [rearranged.same one]⟩

theorem filterMap (f : α → Option β) (rearranged : Rearranged alone first second) :
    Rearranged alone (first.filterMap f) (second.filterMap f) :=
  ⟨rearranged.perm.filterMap f, fun one => by rw [rearranged.same one]⟩

theorem cons_inv {item : α} (rearranged : Rearranged alone (item :: first) (item :: second)) :
    Rearranged alone first second :=
  ⟨rearranged.perm.cons_inv, fun one => List.tail_eq_of_cons_eq (rearranged.same one)⟩

theorem exists_map_eq_of_perm (f : α → β) {items : List α} {images : List β}
    (same : (items.map f).Perm images) :
    ∃ sorted, sorted.map f = images ∧ items.Perm sorted := by
  induction images generalizing items with
  | nil =>
      have empty : items = [] := List.map_eq_nil_iff.1 same.eq_nil
      exact ⟨[], rfl, empty ▸ .refl _⟩
  | cons image images inductionHypothesis =>
      obtain ⟨item, member, rfl⟩ := List.mem_map.1 (same.symm.subset List.mem_cons_self)
      obtain ⟨before, behind, rfl⟩ := List.append_of_mem member
      have front : (before ++ item :: behind).Perm (item :: (before ++ behind)) :=
        List.perm_middle
      have rest : ((before ++ behind).map f).Perm images :=
        ((front.map f).symm.trans same).cons_inv
      obtain ⟨sorted, mapped, others⟩ := inductionHypothesis rest
      exact ⟨item :: sorted, congrArg (f item :: ·) mapped, front.trans (others.cons item)⟩

/-- A list whose images are those of a list in some order can be put into that order. -/
theorem exists_map_eq (f : α → β) {items : List α} {images : List β}
    (rearranged : Rearranged alone (items.map f) images) :
    ∃ sorted, sorted.map f = images ∧ Rearranged alone items sorted := by
  by_cases one : alone
  · exact ⟨items, rearranged.same one, .refl alone items⟩
  · obtain ⟨sorted, mapped, same⟩ := exists_map_eq_of_perm f rearranged.perm
    exact ⟨sorted, mapped, same, fun one' => absurd one' one⟩

end Rearranged

end RemoteRecords
