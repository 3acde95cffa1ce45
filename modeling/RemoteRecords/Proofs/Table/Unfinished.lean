import RemoteRecords.Proofs.Table.RoundTrip

/-!
# Unfinished rows

A row that has not been ended stands in the text with a separator behind each cell but the last,
which may still wait for its closing quote (`text_foldl_concat`). The reader takes the end of the
file for the end of such a row, and sees nothing of it when it is one empty cell
(`cells_rawRows_unfinished`).
-/

namespace RemoteRecords.Table

/-! ## The text of an unfinished row -/

/-- A cell that waits for its closing quote. -/
def openCell (separator : Char) (cell : List Char) : List Char :=
  if needsQuotes separator cell then '"' :: doubleQuotes cell else cell

/-- Cells behind each of which there is another one. -/
def dividedForm (separator : Char) (cells : List (List Char)) : List Char :=
  cells.flatMap fun cell => cellForm separator cell ++ [separator]

theorem cellsForm_append_separator {separator : Char} {cells : List (List Char)}
    (nonempty : cells ≠ []) :
    cellsForm separator cells ++ [separator] = dividedForm separator cells := by
  obtain ⟨cell, cells, rfl⟩ := List.exists_cons_of_ne_nil nonempty
  -- The separators move from before the cells to behind them.
  have moved : (cells.flatMap fun cell => separator :: cellForm separator cell) ++ [separator] =
      separator :: cells.flatMap fun cell => cellForm separator cell ++ [separator] := by
    clear nonempty
    induction cells with
    | nil => rfl
    | cons other cells inductionHypothesis =>
        rw [List.flatMap_cons, List.append_assoc, inductionHypothesis, List.flatMap_cons]
        simp
  rw [cellsForm, List.append_assoc, moved, dividedForm, List.flatMap_cons, List.append_assoc]
  rfl

namespace Writer

theorem foldl_addCell_separator (writer : Writer) (row : List String) :
    (row.foldl addCell writer).separator = writer.separator := by
  induction row generalizing writer with
  | nil => rfl
  | cons cell row inductionHypothesis =>
      rw [List.foldl_cons, inductionHypothesis, addCell_separator]

theorem foldl_addCell_width (writer : Writer) (row : List String) :
    (row.foldl addCell writer).width = writer.width := by
  induction row generalizing writer with
  | nil => rfl
  | cons cell row inductionHypothesis =>
      rw [List.foldl_cons, inductionHypothesis, addCell_width]

theorem addCell_text (writer : Writer) (cell : String) :
    (writer.addCell cell).text =
      writer.separate.text ++ String.ofList (openCell writer.separator.char cell.toList) := by
  rw [addCell, openCell]
  split <;> rfl

theorem text_foldl_concat (separator : Separator) (width : Nat) (text : String)
    (cells : List String) (last : String) :
    ((cells ++ [last]).foldl addCell (atRowStart separator width text)).text =
      text ++ String.ofList (dividedForm separator.char (rowChars cells) ++
        openCell separator.char last.toList) := by
  have separated : (cells.foldl addCell (atRowStart separator width text)).separate.text =
      text ++ String.ofList (dividedForm separator.char (rowChars cells)) := by
    by_cases empty : cells = []
    · rw [empty]
      simp [separate, atRowStart, dividedForm, rowChars]
    · have begun : (cells.foldl addCell (atRowStart separator width text)).cells ≠ 0 := by
        rw [foldl_addCell_atRowStart_cells]
        exact fun none => empty (List.length_eq_zero_iff.1 none)
      have nonempty : rowChars cells ≠ [] := fun none => empty (List.map_eq_nil_iff.1 none)
      rw [separate, if_neg begun, ← cellsForm_append_separator nonempty, String.ofList_append,
        ← String.append_assoc, closeQuote_foldl_atRowStart, foldl_addCell_separator]
      rfl
  rw [List.foldl_append, List.foldl_cons, List.foldl_nil, addCell_text, separated,
    foldl_addCell_separator, String.append_assoc, ← String.ofList_append]
  rfl

end Writer

/-! ## Reading an unfinished row -/

/-- A place within a row: the end of the file ends the row. -/
def Place.Within (place : Place) : Prop := place ≠ .rowStart ∧ place ≠ .afterReturn

theorem rawRows_nil_of_within {separator : UInt8} {place : Place} (within : place.Within)
    (now : Mark) (part : Partial) : rawRows separator place now part [] = [part.row] := by
  cases place with
  | rowStart => exact absurd rfl within.1
  | afterReturn => exact absurd rfl within.2
  | _ => rfl

theorem Place.Ends.within {place : Place} (ends : place.Ends) : place.Within := by
  rcases ends with rfl | rfl | rfl <;> exact ⟨nofun, nofun⟩

theorem reaches_openCell (separator : Separator) {place : Place} (opens : place.Opens)
    (cell : List Char) (cells : List Bytes) :
    ∃ next, Reaches separator.byte (Bytes.encoding (openCell separator.char cell))
        ⟨place, cells, []⟩ ⟨next, cells, (Bytes.encoding cell).reverse⟩ ∧
      (next.Within ∨ next = place ∧ cell = []) := by
  by_cases quotes : needsQuotes separator.char cell = true
  · have opening : Reaches separator.byte [34] ⟨place, cells, []⟩ ⟨.quoted, cells, []⟩ := by
      apply Reaches.skip
      rw [effect_of_opens opens (by decide) (by decide)]
      rfl
    have inside := reaches_doubleQuotes separator.byte cell cells []
    have whole := opening.trans inside
    have written : Bytes.encoding (openCell separator.char cell) =
        [34] ++ Bytes.encoding (doubleQuotes cell) := by
      rw [openCell, if_pos quotes, ← encoding_quote, ← Bytes.encoding_append]
      rfl
    refine ⟨.quoted, ?_, Or.inl ⟨nofun, nofun⟩⟩
    rw [written]
    simpa using whole
  · have bare : openCell separator.char cell = cellForm separator.char cell := by
      rw [openCell, cellForm, if_neg quotes, if_neg quotes]
    have plain : cellForm separator.char cell = cell := if_neg quotes
    obtain ⟨next, run, end_⟩ := reaches_cellForm separator opens cell cells
    rw [plain] at end_
    rw [bare]
    exact ⟨next, run, end_.imp_left Place.Ends.within⟩

theorem reaches_dividedForm {separator : Separator} (ordinary : separator.Ordinary)
    (cells : List (List Char)) {place : Place} (opens : place.Opens) (before : List Bytes) :
    ∃ next, Reaches separator.byte (Bytes.encoding (dividedForm separator.char cells))
        ⟨place, before, []⟩ ⟨next, (cells.map Bytes.encoding).reverse ++ before, []⟩ ∧
      (next = .cellStart ∨ next = place ∧ cells = []) := by
  induction cells generalizing place before with
  | nil => exact ⟨place, Reaches.refl _, Or.inr ⟨rfl, rfl⟩⟩
  | cons cell cells inductionHypothesis =>
      obtain ⟨ended, cellRun, end_⟩ := reaches_cellForm separator opens cell before
      have ready : ended.Ends ∨ ended = .rowStart := by
        rcases end_ with ends | ⟨rfl, -⟩
        · exact Or.inl ends
        · exact opens.symm.imp_left Or.inl
      have divided : Reaches separator.byte [separator.byte]
          ⟨ended, before, (Bytes.encoding cell).reverse⟩
          ⟨.cellStart, (Bytes.encoding cell).reverse.reverse :: before, []⟩ :=
        Reaches.endCell (effect_separator ordinary ready)
      rw [List.reverse_reverse] at divided
      have startOpens : Place.cellStart.Opens := Or.inr rfl
      obtain ⟨next, laterRun, nextStart⟩ :=
        inductionHypothesis startOpens (Bytes.encoding cell :: before)
      have written : Bytes.encoding (dividedForm separator.char (cell :: cells)) =
          Bytes.encoding (cellForm separator.char cell) ++
            ([separator.byte] ++ Bytes.encoding (dividedForm separator.char cells)) := by
        rw [dividedForm, List.flatMap_cons, ← dividedForm, Bytes.encoding_append,
          Bytes.encoding_append, separator.encoding_char, List.append_assoc]
      have whole := cellRun.trans (divided.trans laterRun)
      refine ⟨next, ?_, Or.inl (nextStart.elim id And.left)⟩
      rw [written]
      simpa using whole

/-- The cells of an unfinished row are read as a row. One empty cell alone leaves nothing to
read. -/
theorem cells_rawRows_unfinished {separator : Separator} (ordinary : separator.Ordinary)
    (cells : List (List Char)) (last : List Char) (now start : Mark) :
    (rawRows separator.byte .rowStart now ⟨start, [], []⟩
        (Bytes.encoding (dividedForm separator.char cells ++ openCell separator.char last))).map
        RawRow.cells =
      if cells ++ [last] = [[]] then [] else [(cells ++ [last]).map Bytes.encoding] := by
  by_cases alone : cells ++ [last] = [[]]
  · obtain ⟨rfl, oneLast⟩ := List.append_eq_singleton_iff.1 alone |>.resolve_right (by simp)
    rw [if_pos alone, List.singleton_inj.1 oneLast]
    rfl
  · have startOpens : Place.rowStart.Opens := Or.inl rfl
    obtain ⟨between, cellsRun, betweenStart⟩ := reaches_dividedForm ordinary cells startOpens []
    have betweenOpens : between.Opens := by
      rcases betweenStart with same | ⟨same, -⟩
      · exact Or.inr same
      · exact Or.inl same
    obtain ⟨next, lastRun, end_⟩ := reaches_openCell separator betweenOpens last
      ((cells.map Bytes.encoding).reverse ++ [])
    have within : next.Within := by
      rcases end_ with within | ⟨rfl, rfl⟩
      · exact within
      · rcases betweenStart with rfl | ⟨-, rfl⟩
        · exact ⟨nofun, nofun⟩
        · exact absurd rfl alone
    obtain ⟨later, read⟩ := cellsRun.trans lastRun now start []
    rw [← Bytes.encoding_append, List.append_nil] at read
    rw [read, rawRows_nil_of_within within, if_neg alone]
    simp [Partial.row]

end RemoteRecords.Table
