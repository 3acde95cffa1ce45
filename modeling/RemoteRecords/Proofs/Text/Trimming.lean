import RemoteRecords.Text.Blank
import Mathlib.Data.List.TakeWhile

/-!
# Trimming by its result

`trimBoth_eq_iff` describes what is left of some characters by what it is: a middle part that begins
and ends with kept characters, between two runs of dropped ones.
-/

namespace RemoteRecords.Text

/-- `held` is the part of `written` between the longest runs of dropped characters at its ends. -/
def Trims (dropped : Char → Prop) (written held : List Char) : Prop :=
  ∃ before after, written = before ++ (held ++ after) ∧
    (∀ c ∈ before, dropped c) ∧ (∀ c ∈ after, dropped c) ∧
    (∀ c ∈ held.head?, ¬ dropped c) ∧ (∀ c ∈ held.getLast?, ¬ dropped c)

theorem dropWhile_append_of_head {drop : Char → Bool} {before rest : List Char}
    (dropped : ∀ c ∈ before, drop c = true) (kept : ∀ c ∈ rest.head?, drop c = false) :
    (before ++ rest).dropWhile drop = rest := by
  rw [List.dropWhile_append_of_pos dropped]
  cases rest with
  | nil => rfl
  | cons c rest => exact List.dropWhile_cons_of_neg (by simp [kept c rfl])

theorem head_dropWhile (drop : Char → Bool) (chars : List Char) :
    ∀ c ∈ (chars.dropWhile drop).head?, drop c = false := by
  intro c member
  have kept := List.head?_dropWhile_not drop chars
  rw [Option.mem_def] at member
  rw [member] at kept
  exact kept

/-- A list is a run of dropped elements before what `dropWhile` leaves. -/
theorem exists_dropped_append (drop : Char → Bool) (chars : List Char) :
    ∃ before, chars = before ++ chars.dropWhile drop ∧ ∀ c ∈ before, drop c = true :=
  ⟨chars.takeWhile drop, List.takeWhile_append_dropWhile.symm,
    fun _ member => List.mem_takeWhile_imp member⟩

theorem trims_of_trimBoth {drop : Char → Bool} {chars held : List Char}
    (trimmed : trimBoth drop chars = held) : Trims (fun c => drop c = true) chars held := by
  obtain ⟨before, split, droppedBefore⟩ := exists_dropped_append drop chars
  obtain ⟨after, splitEnd, droppedAfter⟩ :=
    exists_dropped_append drop (chars.dropWhile drop).reverse
  have middle : chars.dropWhile drop = held ++ after.reverse := by
    have reversed := congrArg List.reverse splitEnd
    rw [List.reverse_reverse, List.reverse_append] at reversed
    rw [← trimmed]
    exact reversed
  refine ⟨before, after.reverse, by rw [← middle]; exact split, droppedBefore, ?_, ?_, ?_⟩
  · intro c member
    exact droppedAfter c (List.mem_reverse.1 member)
  · intro c first
    have kept := head_dropWhile drop chars c
    rw [middle] at kept
    have plain := kept (by cases held with
      | nil => cases first
      | cons d rest => exact first)
    simp [plain]
  · intro c final
    have kept := head_dropWhile drop (chars.dropWhile drop).reverse c
    have plain := kept (by
      rw [← List.getLast?_reverse]
      rw [← trimmed] at final
      exact final)
    simp [plain]

theorem trimBoth_of_trims {drop : Char → Bool} {chars held : List Char}
    (trims : Trims (fun c => drop c = true) chars held) : trimBoth drop chars = held := by
  obtain ⟨before, after, rfl, droppedBefore, droppedAfter, first, final⟩ := trims
  rw [trimBoth]
  cases held with
  | nil =>
      have gone : (before ++ ([] ++ after)).dropWhile drop = [] := by
        rw [List.dropWhile_eq_nil_iff]
        intro c member
        rcases List.mem_append.1 member with early | late
        · exact droppedBefore c early
        · exact droppedAfter c late
      rw [gone]
      rfl
  | cons c rest =>
      have front : (before ++ (c :: rest ++ after)).dropWhile drop = c :: rest ++ after :=
        dropWhile_append_of_head droppedBefore (by
          intro d member
          simpa using first d member)
      rw [front, List.reverse_append, dropWhile_append_of_head, List.reverse_reverse]
      · intro d member
        exact droppedAfter d (List.mem_reverse.1 member)
      · intro d member
        rw [List.head?_reverse] at member
        simpa using final d member

theorem trimBoth_eq_iff {drop : Char → Bool} {chars held : List Char} :
    trimBoth drop chars = held ↔ Trims (fun c => drop c = true) chars held :=
  ⟨trims_of_trimBoth, trimBoth_of_trims⟩

theorem trimBoth_eq_self {drop : Char → Bool} {chars : List Char}
    (kept : ∀ c ∈ chars, drop c = false) : trimBoth drop chars = chars := by
  refine trimBoth_of_trims ⟨[], [], by simp, by simp, by simp, ?_, ?_⟩
  · intro c first
    simp [kept c (List.mem_of_mem_head? first)]
  · intro c final
    simp [kept c (List.mem_of_mem_getLast? final)]

end RemoteRecords.Text
