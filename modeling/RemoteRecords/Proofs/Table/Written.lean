import RemoteRecords.Table.Writer

/-!
# What a table writer writes

`rowForm` is the text of one row. A writer at the start of a row that takes a row of its width adds
exactly this text and stands at the start of the next row (`addRow_atRowStart`); a row of any other
width is refused (`addRow_of_width_ne`). So the text of a table is the rows one behind the other
(`addRows_atRowStart`).
-/

namespace RemoteRecords.Table

/-! ## The text of a row -/

/-- A cell as it stands in a row. -/
def cellForm (separator : Char) (cell : List Char) : List Char :=
  if needsQuotes separator cell then '"' :: (doubleQuotes cell ++ ['"']) else cell

/-- The cells of a row with the separator between two of them. -/
def cellsForm (separator : Char) : List (List Char) → List Char
  | [] => []
  | cell :: cells =>
      cellForm separator cell ++ cells.flatMap fun cell => separator :: cellForm separator cell

/-- A row and its line end. Where the cells leave no trace, a pair of quotes does. -/
def rowForm (separator : Char) (cells : List (List Char)) : List Char :=
  (if cellsForm separator cells = [] then ['"', '"'] else cellsForm separator cells) ++ ['\n']

/-- The characters of the cells of a row. -/
def rowChars (row : List String) : List (List Char) := row.map String.toList

namespace Writer

/-- A writer that has written `text` and stands at the start of a row. -/
def atRowStart (separator : Separator) (width : Nat) (text : String) : Writer :=
  ⟨separator, width, text, 0, false, true⟩

/-- The writer behind a row, whether or not it has taken it. -/
def addRows (writer : Writer) (rows : List (List String)) : Writer :=
  rows.foldl (fun writer row => (writer.addRow row).2) writer

/-! ## Cells -/

theorem addCell_cells (writer : Writer) (cell : String) :
    (writer.addCell cell).cells = writer.cells + 1 := by
  rw [addCell]
  split <;> rfl

theorem foldl_addCell_cells (writer : Writer) (row : List String) :
    (row.foldl addCell writer).cells = writer.cells + row.length := by
  induction row generalizing writer with
  | nil => rfl
  | cons cell row inductionHypothesis =>
      rw [List.foldl_cons, inductionHypothesis, addCell_cells, List.length_cons]
      omega

/-- A closing quote changes the text and nothing that a row depends on. -/
theorem closeQuote_eq (writer : Writer) :
    writer.closeQuote =
      ⟨writer.separator, writer.width, writer.closeQuote.text, writer.cells, false,
        writer.closeQuote.bare⟩ := by
  by_cases quoted : writer.quoted = true
  · simp [closeQuote, quoted, put]
  · obtain ⟨_, _, _, _, quotedField, _⟩ := writer
    cases quotedField with
    | false => rfl
    | true => exact absurd rfl quoted

theorem addCell_separator (writer : Writer) (cell : String) :
    (writer.addCell cell).separator = writer.separator := by
  have separated : writer.separate.separator = writer.separator := by
    rw [separate]
    split
    · rfl
    · rw [closeQuote_eq]
      rfl
  rw [addCell]
  split <;> exact separated

theorem addCell_width (writer : Writer) (cell : String) :
    (writer.addCell cell).width = writer.width := by
  have separated : writer.separate.width = writer.width := by
    rw [separate]
    split
    · rfl
    · rw [closeQuote_eq]
      rfl
  rw [addCell]
  split <;> exact separated

theorem closeQuote_addCell_atRowStart (separator : Separator) (width : Nat)
    (text cell : String) :
    ((atRowStart separator width text).addCell cell).closeQuote =
      ⟨separator, width, text ++ String.ofList (cellForm separator.char cell.toList), 1, false,
        (cellForm separator.char cell.toList).isEmpty⟩ := by
  by_cases quotes : needsQuotes separator.char cell.toList = true
  · simp [addCell, separate, closeQuote, put, atRowStart, cellForm, quotes, ← String.toList_inj]
  · simp [addCell, separate, closeQuote, put, atRowStart, cellForm, quotes]

theorem closeQuote_addCell_of_cells {writer : Writer} (begun : writer.cells ≠ 0)
    (cell : String) :
    (writer.addCell cell).closeQuote =
      ⟨writer.separator, writer.width,
        writer.closeQuote.text ++
          String.ofList (writer.separator.char :: cellForm writer.separator.char cell.toList),
        writer.cells + 1, false, false⟩ := by
  by_cases quotes : needsQuotes writer.separator.char cell.toList = true <;>
    by_cases quoted : writer.quoted = true <;>
    simp [addCell, separate, closeQuote, put, begun, cellForm, quotes, quoted,
      ← String.toList_inj]

theorem closeQuote_foldl_addCell {writer : Writer} (begun : writer.cells ≠ 0)
    (row : List String) :
    (row.foldl addCell writer).closeQuote =
      ⟨writer.separator, writer.width,
        writer.closeQuote.text ++ String.ofList
          ((rowChars row).flatMap fun cell =>
            writer.separator.char :: cellForm writer.separator.char cell),
        writer.cells + row.length, false, writer.closeQuote.bare && row.isEmpty⟩ := by
  induction row generalizing writer with
  | nil =>
      rw [List.foldl_nil, closeQuote_eq writer]
      simp [rowChars]
  | cons cell row inductionHypothesis =>
      have begunNext : (writer.addCell cell).cells ≠ 0 := by
        rw [addCell_cells]
        omega
      have count : writer.cells + 1 + row.length = writer.cells + (row.length + 1) := by
        omega
      rw [List.foldl_cons, inductionHypothesis begunNext, closeQuote_addCell_of_cells begun,
        addCell_separator, addCell_width, addCell_cells]
      simp [rowChars, count, ← String.toList_inj]

theorem closeQuote_foldl_atRowStart (separator : Separator) (width : Nat) (text : String)
    (row : List String) :
    (row.foldl addCell (atRowStart separator width text)).closeQuote =
      ⟨separator, width, text ++ String.ofList (cellsForm separator.char (rowChars row)),
        row.length, false, (cellsForm separator.char (rowChars row)).isEmpty⟩ := by
  cases row with
  | nil => simp [rowChars, cellsForm, closeQuote, atRowStart]
  | cons cell row =>
      have begun : ((atRowStart separator width text).addCell cell).cells ≠ 0 := by
        rw [addCell_cells]
        omega
      have bare : (cellsForm separator.char (rowChars (cell :: row))).isEmpty =
          ((cellForm separator.char cell.toList).isEmpty && row.isEmpty) := by
        cases row <;> simp [rowChars, cellsForm]
      rw [List.foldl_cons, closeQuote_foldl_addCell begun, closeQuote_addCell_atRowStart, bare,
        addCell_separator, addCell_width, addCell_cells]
      simp [atRowStart, rowChars, cellsForm, ← String.toList_inj, Nat.add_comm]

/-! ## Rows -/

theorem endRow_eq_of_closeQuote {writer : Writer} {separator : Separator} {width count : Nat}
    {text : String} {bare : Bool}
    (closed : writer.closeQuote = ⟨separator, width, text, count, false, bare⟩) :
    writer.endRow =
      atRowStart separator width
        (text ++ String.ofList ((if bare then ['"', '"'] else []) ++ ['\n'])) := by
  cases bare <;> simp [endRow, closed, put, atRowStart, ← String.toList_inj]

theorem endRow_foldl_addCell (separator : Separator) (width : Nat) (text : String)
    (row : List String) :
    (row.foldl addCell (atRowStart separator width text)).endRow =
      atRowStart separator width
        (text ++ String.ofList (rowForm separator.char (rowChars row))) := by
  rw [endRow_eq_of_closeQuote (closeQuote_foldl_atRowStart separator width text row)]
  by_cases bare : cellsForm separator.char (rowChars row) = []
  · simp [rowForm, bare]
  · simp [rowForm, bare, String.append_assoc]

theorem foldl_addCell_atRowStart_cells (separator : Separator) (width : Nat) (text : String)
    (row : List String) :
    (row.foldl addCell (atRowStart separator width text)).cells = row.length := by
  rw [foldl_addCell_cells]
  exact Nat.zero_add _

theorem addRow_atRowStart (separator : Separator) {width : Nat} (text : String)
    {row : List String} (fits : row.length = width) :
    (atRowStart separator width text).addRow row =
      (.ok (), atRowStart separator width
        (text ++ String.ofList (rowForm separator.char (rowChars row)))) := by
  have count : (row.foldl addCell (atRowStart separator width text)).cells =
      (atRowStart separator width text).width :=
    (foldl_addCell_atRowStart_cells separator width text row).trans fits
  rw [addRow, if_pos count, endRow_foldl_addCell]

theorem addRow_of_width_ne (separator : Separator) {width : Nat} (text : String)
    {row : List String} (misfit : row.length ≠ width) :
    ((atRowStart separator width text).addRow row).1 = .error ⟨row.length, width⟩ := by
  have count := foldl_addCell_atRowStart_cells separator width text row
  have refused : (row.foldl addCell (atRowStart separator width text)).cells ≠
      (atRowStart separator width text).width := fun same => misfit (count.symm.trans same)
  rw [addRow, if_neg refused, count]
  rfl

/-! ## Tables -/

theorem start_eq (separator : Separator) (columns : List String) :
    start separator columns =
      atRowStart separator columns.length
        (String.ofList (rowForm separator.char (rowChars columns))) := by
  have written := endRow_foldl_addCell separator columns.length "" columns
  rw [String.empty_append] at written
  exact written

theorem addRows_atRowStart (separator : Separator) {width : Nat} (text : String)
    {rows : List (List String)} (fit : ∀ row ∈ rows, row.length = width) :
    (atRowStart separator width text).addRows rows =
      atRowStart separator width
        (text ++ String.ofList (rows.flatMap fun row =>
          rowForm separator.char (rowChars row))) := by
  induction rows generalizing text with
  | nil => simp [addRows]
  | cons row rows inductionHypothesis =>
      have rowFits : row.length = width := fit row List.mem_cons_self
      have rowsFit : ∀ other ∈ rows, other.length = width :=
        fun other member => fit other (List.mem_cons_of_mem _ member)
      have step : (atRowStart separator width text).addRows (row :: rows) =
          ((atRowStart separator width text).addRow row).2.addRows rows := rfl
      rw [step, addRow_atRowStart separator text rowFits, inductionHypothesis _ rowsFit]
      simp [String.append_assoc]

theorem text_addRows_start (separator : Separator) {columns : List String}
    {rows : List (List String)} (fit : ∀ row ∈ rows, row.length = columns.length) :
    ((start separator columns).addRows rows).text =
      String.ofList ((columns :: rows).flatMap fun row =>
        rowForm separator.char (rowChars row)) := by
  rw [start_eq, addRows_atRowStart separator _ fit]
  simp [atRowStart]

end Writer

end RemoteRecords.Table
