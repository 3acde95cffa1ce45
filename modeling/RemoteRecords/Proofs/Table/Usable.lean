import RemoteRecords.Proofs.Table.Calls

/-!
# Usable separators

A separator is usable when every table that is written with it is read back. Any ASCII character is
accepted as a separator (`exists_of_ofText_iff`), and exactly the quote and the two line ends are not usable
(`usable_iff_of_accepted`): the reader takes them for something else where a row or a cell begins.
-/

namespace RemoteRecords.Table

namespace Separator

/-- Every table that is written with the separator is read back. -/
def Usable (separator : Separator) : Prop :=
  ∀ (columns : List String) (rows : List (List String)), ReadableHeader columns →
    (∀ row ∈ rows, row.length = columns.length) →
    ReadsBack separator ((Writer.start separator columns).addRows rows).bytes ⟨columns, rows⟩

theorem usable_of_ordinary {separator : Separator} (ordinary : separator.Ordinary) :
    separator.Usable := by
  intro columns rows readable fit
  exact readsBack_iff.2 (ofBytes_bytes_addRows ordinary readable fit)

/-- A table that is read as another one. -/
theorem not_usable_of_ofBytes {separator : Separator} {columns : List String}
    {rows : List (List String)} {other : Table} (readable : ReadableHeader columns)
    (fit : ∀ row ∈ rows, row.length = columns.length)
    (read : ofBytes separator ((Writer.start separator columns).addRows rows).bytes = .ok other)
    (different : other ≠ ⟨columns, rows⟩) : ¬ separator.Usable := by
  intro usable
  have readBack := readsBack_iff.1 (usable columns rows readable fit)
  rw [read] at readBack
  exact different (Except.ok.inj readBack)

theorem readableHeader_id (names : List String) : ReadableHeader ("id" :: names) :=
  ⟨"id", names, rfl, by decide⟩

/-- A line feed behind the last cell begins another cell. -/
theorem not_usable_lineFeed : ¬ Usable ⟨'\n', by decide⟩ := by
  have fit : ∀ row ∈ ([] : List (List String)), row.length = ["id"].length := by simp
  have read : ofBytes ⟨'\n', by decide⟩ ((Writer.start ⟨'\n', by decide⟩ ["id"]).addRows []).bytes =
      .ok ⟨["id", ""], []⟩ := by
    decide +kernel
  exact not_usable_of_ofBytes (readableHeader_id []) fit read (by decide)

/-- A carriage return behind an empty first cell is passed over before the row. -/
theorem not_usable_carriageReturn : ¬ Usable ⟨'\r', by decide⟩ := by
  have fit : ∀ row ∈ [["", "Deco"]], row.length = ["id", "name"].length := by decide
  have read : ofBytes ⟨'\r', by decide⟩
      ((Writer.start ⟨'\r', by decide⟩ ["id", "name"]).addRows [["", "Deco"]]).bytes =
      .ok ⟨["id", "name"], [["Deco"]]⟩ := by
    decide +kernel
  exact not_usable_of_ofBytes (readableHeader_id ["name"]) fit read (by decide)

/-- A quote behind an empty first cell opens a quoted cell. -/
theorem not_usable_quote : ¬ Usable ⟨'"', by decide⟩ := by
  have fit : ∀ row ∈ [["", "Deco"]], row.length = ["id", "name"].length := by decide
  have read : ofBytes ⟨'"', by decide⟩
      ((Writer.start ⟨'"', by decide⟩ ["id", "name"]).addRows [["", "Deco"]]).bytes =
      .ok ⟨["id", "name"], [["Deco\n"]]⟩ := by
    decide +kernel
  exact not_usable_of_ofBytes (readableHeader_id ["name"]) fit read (by decide)

theorem ordinary_of_usable {separator : Separator} (usable : separator.Usable) :
    separator.Ordinary := by
  obtain ⟨char, ascii⟩ := separator
  refine ⟨?_, ?_, ?_⟩ <;> rintro rfl
  · exact not_usable_quote usable
  · exact not_usable_carriageReturn usable
  · exact not_usable_lineFeed usable

/-- A text is accepted when it begins with an ASCII character, whatever this is, or is empty. -/
theorem exists_of_ofText_iff {text : String} :
    (∃ separator, ofText text = .ok separator) ↔
      ∀ first, text.toList.head? = some first → first.toNat < 128 := by
  rw [ofText]
  cases text.toList with
  | nil => exact iff_of_true ⟨comma, rfl⟩ nofun
  | cons first rest =>
      by_cases ascii : first.toNat < 128
      · refine iff_of_true ⟨⟨first, ascii⟩, dif_pos ascii⟩ ?_
        rintro _ ⟨⟩
        exact ascii
      · refine iff_of_false ?_ fun every => ascii (every first rfl)
        rintro ⟨separator, accepted⟩
        simp only [dif_neg ascii] at accepted
        cases accepted

/-- The separator of a text is its first character, or the comma. -/
theorem char_of_ofText {text : String} {separator : Separator}
    (accepted : ofText text = .ok separator) :
    separator.char = text.toList.head?.getD ',' := by
  rw [ofText] at accepted
  cases chars : text.toList with
  | nil =>
      rw [chars] at accepted
      cases accepted
      rfl
  | cons first rest =>
      simp only [chars] at accepted
      split at accepted
      · cases accepted
        rfl
      · cases accepted

/-- A text that is accepted as a separator can be used unless it begins with a quote or a line
end. -/
theorem usable_iff_of_accepted {text : String} {separator : Separator}
    (accepted : ofText text = .ok separator) :
    separator.Usable ↔
      ∀ first, text.toList.head? = some first → first ≠ '"' ∧ first ≠ '\r' ∧ first ≠ '\n' := by
  have char := char_of_ofText accepted
  constructor
  · intro usable first head
    rw [head] at char
    have ordinary := ordinary_of_usable usable
    rw [Ordinary, char] at ordinary
    exact ordinary
  · intro begins
    apply usable_of_ordinary
    rw [Ordinary, char]
    cases head : text.toList.head? with
    | none => exact ⟨by decide, by decide, by decide⟩
    | some first => exact begins first head

theorem usable_iff_of_accepted_tab :
    ofText "\t\n" = .ok ⟨'\t', by decide⟩ ∧ Usable ⟨'\t', by decide⟩ := by
  have accepted : ofText "\t\n" = .ok ⟨'\t', by decide⟩ := rfl
  have begins : ∀ first, "\t\n".toList.head? = some first →
      first ≠ '"' ∧ first ≠ '\r' ∧ first ≠ '\n' := by
    intro first head
    cases head
    decide
  exact ⟨accepted, (usable_iff_of_accepted accepted).2 begins⟩

/-- A line feed is accepted and cannot be used. -/
theorem not_usable_of_accepted_lineFeed :
    ofText "\n" = .ok ⟨'\n', by decide⟩ ∧ ¬ Usable ⟨'\n', by decide⟩ :=
  ⟨rfl, not_usable_lineFeed⟩

/-- So are a quote and a carriage return. -/
theorem not_usable_of_accepted_quote_or_carriageReturn :
    (ofText "\"" = .ok ⟨'"', by decide⟩ ∧ ¬ Usable ⟨'"', by decide⟩) ∧
      ofText "\r" = .ok ⟨'\r', by decide⟩ ∧ ¬ Usable ⟨'\r', by decide⟩ :=
  ⟨⟨rfl, not_usable_quote⟩, rfl, not_usable_carriageReturn⟩

end Separator

end RemoteRecords.Table
