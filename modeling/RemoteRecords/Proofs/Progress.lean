import Mathlib.Algebra.GroupWithZero.Nat
import Mathlib.Algebra.Order.BigOperators.Group.List
import Mathlib.Algebra.Order.Group.Nat
import RemoteRecords.Progress

/-!
# Shown counts

A counter shows its count whenever a step passes a multiple of the interval, also when it passes
several at once, as long as the count has 64 bits (`ShowsMultiples`). With steps of one it shows
every multiple (`iterate_advance_one`).
-/

namespace RemoteRecords

namespace Progress

/-! ## Multiples between two counts -/

/-- A positive multiple of the interval lies above `low`, but not above `high`. -/
structure Passes (interval low high mark : Nat) : Prop where
  positive : 0 < mark
  multiple : interval ∣ mark
  above : low < mark
  reached : mark ≤ high

theorem div_lt_div_iff_passes {interval : Nat} (positive : 0 < interval) {low high : Nat} :
    low / interval < high / interval ↔ ∃ mark, Passes interval low high mark := by
  constructor
  · intro less
    have above : low < interval * (high / interval) := by
      rw [Nat.mul_comm]
      exact (Nat.div_lt_iff_lt_mul positive).1 less
    exact ⟨interval * (high / interval), Nat.zero_lt_of_lt above, Nat.dvd_mul_right _ _, above,
      Nat.mul_div_le high interval⟩
  · rintro ⟨_, -, ⟨factor, rfl⟩, above, reached⟩
    rw [Nat.mul_comm] at above reached
    exact Nat.lt_of_lt_of_le ((Nat.div_lt_iff_lt_mul positive).2 above)
      ((Nat.le_div_iff_mul_le positive).2 reached)

theorem exists_step {reached : Nat → Nat} {mark last : Nat} (above : reached 0 < mark)
    (below : mark ≤ reached last) :
    ∃ index < last, reached index < mark ∧ mark ≤ reached (index + 1) := by
  induction last with
  | zero => exact absurd below (Nat.not_le_of_lt above)
  | succ last inductionHypothesis =>
      by_cases earlier : mark ≤ reached last
      · obtain ⟨index, inRange, step⟩ := inductionHypothesis earlier
        exact ⟨index, Nat.lt_succ_of_lt inRange, step⟩
      · exact ⟨last, Nat.lt_succ_self last, Nat.lt_of_not_le earlier, below⟩

/-- Counts that never go down reach a mark in one step only. -/
theorem step_unique {reached : Nat → Nat} (rising : Monotone reached) {mark first second : Nat}
    (firstStep : reached first < mark ∧ mark ≤ reached (first + 1))
    (secondStep : reached second < mark ∧ mark ≤ reached (second + 1)) : first = second := by
  rcases Nat.lt_trichotomy first second with before | same | behind
  · have between : reached (first + 1) ≤ reached second := rising before
    omega
  · exact same
  · have between : reached (second + 1) ≤ reached first := rising behind
    omega

/-! ## One step -/

section Step

variable (progress : Progress) (delta : Nat)

theorem interval_advance : (progress.advance delta).interval = progress.interval := by
  rw [advance]
  split <;> rfl

variable {progress delta} (small : progress.count + delta ≤ Bounds.greatestNat64)

include small

theorem count_advance : (progress.advance delta).count = progress.count + delta := by
  rw [advance, Bounds.wrappingSum_of_le small]
  split <;> rfl

/-- The new count is shown when a multiple has been passed; otherwise nothing is. -/
theorem shown_advance (positive : 0 < progress.interval) :
    ((∃ mark, Passes progress.interval progress.count (progress.advance delta).count mark) ∧
        (progress.advance delta).shown = progress.shown ++ [(progress.advance delta).count]) ∨
      ((¬ ∃ mark, Passes progress.interval progress.count (progress.advance delta).count mark) ∧
        (progress.advance delta).shown = progress.shown) := by
  rw [← div_lt_div_iff_passes positive, count_advance small, advance,
    Bounds.wrappingSum_of_le small]
  split
  · next passed => exact .inl ⟨passed, rfl⟩
  · next short => exact .inr ⟨short, rfl⟩

end Step

/-- The shown counts begin with zero, grow, and do not exceed the count. -/
structure Rising (progress : Progress) : Prop where
  first : ∃ later, progress.shown = 0 :: later
  increasing : progress.shown.Pairwise (· < ·)
  below : ∀ count ∈ progress.shown, count ≤ progress.count

theorem rising_start (label : String) (interval : Nat) : (start label interval).Rising :=
  ⟨⟨[], rfl⟩, List.pairwise_singleton _ _, fun _ member => (List.mem_singleton.1 member).le⟩

theorem Rising.advance {progress : Progress} (rising : progress.Rising)
    (positive : 0 < progress.interval) {delta : Nat}
    (small : progress.count + delta ≤ Bounds.greatestNat64) : (progress.advance delta).Rising := by
  obtain ⟨⟨later, begins⟩, increasing, below⟩ := rising
  have count := count_advance small
  rcases shown_advance small positive with ⟨⟨mark, passes⟩, shown⟩ | ⟨-, shown⟩
  · have grown : progress.count < (progress.advance delta).count :=
      Nat.lt_of_lt_of_le passes.above passes.reached
    refine ⟨⟨later ++ [(progress.advance delta).count], by rw [shown, begins]; rfl⟩, ?_, ?_⟩
    · rw [shown, List.pairwise_append]
      refine ⟨increasing, List.pairwise_singleton _ _, ?_⟩
      intro before member last lastMember
      rw [List.mem_singleton.1 lastMember]
      exact Nat.lt_of_le_of_lt (below before member) grown
    · rw [shown]
      intro before member
      rcases List.mem_append.1 member with earlier | last
      · exact (below before earlier).trans grown.le
      · exact (List.mem_singleton.1 last).le
  · refine ⟨⟨later, shown.trans begins⟩, shown ▸ increasing, ?_⟩
    rw [shown, count]
    exact fun before member => (below before member).trans (Nat.le_add_right _ _)

/-! ## All steps -/

/-- A new counter behind the first `index` of its steps. -/
def behind (label : String) (interval : Nat) (deltas : List Nat) (index : Nat) : Progress :=
  (deltas.take index).foldl advance (start label interval)

/-- The step at an index shows the count that it reaches. -/
def ShownAt (label : String) (interval : Nat) (deltas : List Nat) (index : Nat) : Prop :=
  (behind label interval deltas (index + 1)).shown =
    (behind label interval deltas index).shown ++ [(behind label interval deltas (index + 1)).count]

section Steps

variable (label : String) (interval : Nat) {deltas : List Nat}

theorem behind_succ {index : Nat} (inRange : index < deltas.length) :
    behind label interval deltas (index + 1) =
      (behind label interval deltas index).advance deltas[index] := by
  rw [behind, List.take_succ_eq_append_getElem inRange, List.foldl_append]
  rfl

theorem interval_behind {index : Nat} (inRange : index ≤ deltas.length) :
    (behind label interval deltas index).interval = max interval 1 := by
  induction index with
  | zero => rfl
  | succ index inductionHypothesis =>
      rw [behind_succ label interval inRange, interval_advance]
      exact inductionHypothesis (Nat.le_of_succ_le inRange)

theorem interval_behind_pos {index : Nat} (inRange : index ≤ deltas.length) :
    0 < (behind label interval deltas index).interval := by
  rw [interval_behind label interval inRange]
  exact Nat.lt_of_lt_of_le Nat.one_pos (Nat.le_max_right _ _)

theorem sum_take_succ {index : Nat} (inRange : index < deltas.length) :
    (deltas.take (index + 1)).sum = (deltas.take index).sum + deltas[index] := by
  rw [List.take_succ_eq_append_getElem inRange, List.sum_append, List.sum_singleton]

theorem monotone_sum_take (deltas : List Nat) :
    Monotone fun index => (deltas.take index).sum := by
  refine monotone_nat_of_le_succ fun index => ?_
  rcases Nat.lt_or_ge index deltas.length with inRange | outside
  · rw [sum_take_succ inRange]
    exact Nat.le_add_right _ _
  · rw [List.take_of_length_le outside, List.take_of_length_le (Nat.le_succ_of_le outside)]

variable (small : deltas.sum ≤ Bounds.greatestNat64)

include small

theorem sum_step_le {index : Nat} (inRange : index < deltas.length) :
    (deltas.take index).sum + deltas[index] ≤ Bounds.greatestNat64 := by
  have upToAll := monotone_sum_take deltas (Nat.succ_le_of_lt inRange)
  dsimp only at upToAll
  rw [List.take_length] at upToAll
  rw [← sum_take_succ inRange]
  exact upToAll.trans small

theorem count_behind {index : Nat} (inRange : index ≤ deltas.length) :
    (behind label interval deltas index).count = (deltas.take index).sum := by
  induction index with
  | zero => rfl
  | succ index inductionHypothesis =>
      have count := inductionHypothesis (Nat.le_of_succ_le inRange)
      have step := sum_step_le small inRange
      rw [← count] at step
      rw [behind_succ label interval inRange, count_advance step, count, sum_take_succ inRange]

theorem count_step_le {index : Nat} (inRange : index < deltas.length) :
    (behind label interval deltas index).count + deltas[index] ≤ Bounds.greatestNat64 := by
  rw [count_behind label interval small inRange.le]
  exact sum_step_le small inRange

theorem rising_behind {index : Nat} (inRange : index ≤ deltas.length) :
    (behind label interval deltas index).Rising := by
  induction index with
  | zero => exact rising_start label interval
  | succ index inductionHypothesis =>
      have rising := inductionHypothesis (Nat.le_of_succ_le inRange)
      rw [behind_succ label interval inRange]
      exact rising.advance (interval_behind_pos label interval (Nat.le_of_succ_le inRange))
        (count_step_le label interval small inRange)

/-- Every step either passes a multiple and shows, or does neither. -/
theorem shown_or_silent {index : Nat} (inRange : index < deltas.length) :
    ((∃ mark, Passes (max interval 1) (behind label interval deltas index).count
        (behind label interval deltas (index + 1)).count mark) ∧
      ShownAt label interval deltas index) ∨
    ((¬ ∃ mark, Passes (max interval 1) (behind label interval deltas index).count
        (behind label interval deltas (index + 1)).count mark) ∧
      (behind label interval deltas (index + 1)).shown =
        (behind label interval deltas index).shown) := by
  rw [ShownAt, behind_succ label interval inRange, ← interval_behind label interval inRange.le]
  exact shown_advance (count_step_le label interval small inRange)
    (interval_behind_pos label interval inRange.le)

theorem shownAt_iff {index : Nat} (inRange : index < deltas.length) :
    ShownAt label interval deltas index ↔
      ∃ mark, Passes (max interval 1) (behind label interval deltas index).count
        (behind label interval deltas (index + 1)).count mark := by
  rcases shown_or_silent label interval small inRange with ⟨passed, shown⟩ | ⟨short, silent⟩
  · exact iff_of_true shown passed
  · refine iff_of_false ?_ short
    intro shown
    rw [ShownAt, silent] at shown
    exact List.cons_ne_nil _ _ (List.append_right_eq_self.1 shown.symm)

end Steps

/-- A counter with steps shows the multiples of its interval: its count is the sum of the steps, a
step shows the new count exactly when it passes a multiple, the shown counts grow, and each multiple
up to the last count is passed by exactly one step that shows. -/
structure ShowsMultiples (label : String) (interval : Nat) (deltas : List Nat) : Prop where
  count : ∀ index ≤ deltas.length,
    (behind label interval deltas index).count = (deltas.take index).sum
  shows : ∀ index < deltas.length, ShownAt label interval deltas index ↔
    ∃ mark, Passes (max interval 1) (behind label interval deltas index).count
      (behind label interval deltas (index + 1)).count mark
  silent : ∀ index < deltas.length, ¬ ShownAt label interval deltas index →
    (behind label interval deltas (index + 1)).shown = (behind label interval deltas index).shown
  increasing : ∃ later, (behind label interval deltas deltas.length).shown = 0 :: later ∧
    (0 :: later).Pairwise (· < ·)
  once : ∀ mark, 0 < mark → max interval 1 ∣ mark →
    mark ≤ (behind label interval deltas deltas.length).count →
    ∃! index, index < deltas.length ∧ ShownAt label interval deltas index ∧
      Passes (max interval 1) (behind label interval deltas index).count
        (behind label interval deltas (index + 1)).count mark

theorem showsMultiples (label : String) (interval : Nat) {deltas : List Nat}
    (small : deltas.sum ≤ Bounds.greatestNat64) : ShowsMultiples label interval deltas := by
  have count : ∀ {index}, index ≤ deltas.length →
      (behind label interval deltas index).count = (deltas.take index).sum :=
    count_behind label interval small
  refine ⟨fun _ => count, fun _ => shownAt_iff label interval small, ?_, ?_, ?_⟩
  · intro index inRange hidden
    rcases shown_or_silent label interval small inRange with ⟨-, shown⟩ | ⟨-, silent⟩
    · exact absurd shown hidden
    · exact silent
  · obtain ⟨⟨later, begins⟩, increasing, -⟩ := rising_behind label interval small le_rfl
    exact ⟨later, begins, begins ▸ increasing⟩
  · intro mark positive multiple below
    rw [count le_rfl] at below
    obtain ⟨index, inRange, above, reached⟩ :=
      @exists_step (fun index => (deltas.take index).sum) mark _ positive below
    have passes : Passes (max interval 1) (behind label interval deltas index).count
        (behind label interval deltas (index + 1)).count mark := by
      rw [count inRange.le, count (Nat.succ_le_of_lt inRange)]
      exact ⟨positive, multiple, above, reached⟩
    refine ⟨index, ⟨inRange, (shownAt_iff label interval small inRange).2 ⟨mark, passes⟩, passes⟩,
      ?_⟩
    rintro other ⟨otherInRange, -, otherPasses⟩
    rw [count otherInRange.le, count (Nat.succ_le_of_lt otherInRange)] at otherPasses
    exact step_unique (monotone_sum_take deltas) ⟨otherPasses.above, otherPasses.reached⟩
      ⟨above, reached⟩

/-! ## Steps of one -/

/-- The multiples of an interval up to a count, and zero. -/
def multiples (interval count : Nat) : List Nat :=
  (List.range (count / interval + 1)).map (interval * ·)

theorem multiples_succ (interval count : Nat) :
    multiples interval (count + 1) = multiples interval count ++
      if count / interval < (count + 1) / interval then [count + 1] else [] := by
  by_cases passed : interval ∣ count + 1
  · have next : interval * (count / interval + 1) = count + 1 := by
      rw [← Nat.succ_div_of_dvd passed, Nat.mul_div_cancel' passed]
    rw [multiples, Nat.succ_div_of_dvd passed, if_pos (Nat.lt_succ_self _),
      @List.range_succ (count / interval + 1), List.map_append, List.map_singleton, next]
    rfl
  · rw [multiples, Nat.succ_div_of_not_dvd passed, if_neg (Nat.lt_irrefl _), List.append_nil]
    rfl

/-- A counter that goes up by one shows every multiple of its interval. -/
theorem iterate_advance_one (label : String) (interval : Nat) {count : Nat}
    (small : count ≤ Bounds.greatestNat64) :
    (·.advance 1)^[count] (start label interval) =
      ⟨label, max interval 1, count, multiples (max interval 1) count, false⟩ := by
  induction count with
  | zero => simp [start, multiples]
  | succ count inductionHypothesis =>
      rw [Function.iterate_succ_apply', inductionHypothesis (Nat.le_of_succ_le small), advance,
        Bounds.wrappingSum_of_le small, multiples_succ]
      dsimp only
      split
      · rfl
      · rw [List.append_nil]

end Progress

end RemoteRecords
