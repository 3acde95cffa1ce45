import RemoteRecords.Proofs.Table.Unfinished

/-!
# Rows of any width

A writer that refuses a row keeps its cells, and the cells of the next row follow them. `fill` says
which rows are finished that way and which cells still wait. What is read are the rows that have
been taken exactly when the others are harmless (`visible_eq_takenRows_iff`). The writer goes along
with `fill` (`addRow_holding_of_full`, `addRow_holding_of_short`), and its bytes are read as what
has been filled (`ofBytes_holding`).
-/

namespace RemoteRecords.Table

/-! ## Filling rows -/

/-- The rows that have been finished, and the cells that wait for the rest of theirs. -/
structure Filling where
  rows : List (List String)
  waiting : List String

/-- What rows of any width come to: the cells of a row follow those that wait, and they are a row
as soon as there are `width` of them after one. -/
def fill (width : Nat) (waiting : List String) : List (List String) → Filling
  | [] => ⟨[], waiting⟩
  | row :: rows =>
      if (waiting ++ row).length = width then
        let rest := fill width [] rows
        ⟨(waiting ++ row) :: rest.rows, rest.waiting⟩
      else fill width (waiting ++ row) rows

/-- The rows that a reader finds. Waiting cells are one more row, unless they have left no trace. -/
def Filling.visible (filling : Filling) : List (List String) :=
  filling.rows ++ if filling.waiting = [] ∨ filling.waiting = [""] then [] else [filling.waiting]

/-- The rows that are taken, one by one, after the cells that wait. -/
def takenRows (width : Nat) (waiting : List String) : List (List String) → List (List String)
  | [] => []
  | row :: rows =>
      if (waiting ++ row).length = width then row :: takenRows width [] rows
      else takenRows width (waiting ++ row) rows

/-- Rows of which those of another width leave no trace: they have no cell, or they are one empty
cell behind which there are only rows without a cell. -/
def Harmless (width : Nat) (rows : List (List String)) : Prop :=
  ∀ before bad after, rows = before ++ bad :: after → bad.length ≠ width →
    bad = [] ∨ bad = [""] ∧ ∀ row ∈ after, row = []

theorem harmless_nil (width : Nat) : Harmless width [] := by
  intro before bad after split
  exact absurd split.symm (List.append_ne_nil_of_right_ne_nil _ (List.cons_ne_nil _ _))

theorem harmless_cons_iff {width : Nat} {row : List String} {rows : List (List String)} :
    Harmless width (row :: rows) ↔
      (row.length ≠ width → row = [] ∨ row = [""] ∧ ∀ other ∈ rows, other = []) ∧
        Harmless width rows := by
  constructor
  · intro harmless
    refine ⟨harmless [] row rows rfl, ?_⟩
    intro before bad after split
    exact harmless (row :: before) bad after (congrArg (row :: ·) split)
  · rintro ⟨first, later⟩ before bad after split
    cases before with
    | nil =>
        injection split with sameRow sameRows
        subst sameRow sameRows
        exact first
    | cons other before =>
        injection split with _ sameRows
        exact later before bad after sameRows

section

variable {width : Nat} {waiting row : List String} {rows : List (List String)}

theorem fill_cons_of_full (full : (waiting ++ row).length = width) :
    fill width waiting (row :: rows) =
      ⟨(waiting ++ row) :: (fill width [] rows).rows, (fill width [] rows).waiting⟩ := if_pos full

theorem fill_cons_of_short (short : (waiting ++ row).length ≠ width) :
    fill width waiting (row :: rows) = fill width (waiting ++ row) rows := if_neg short

theorem takenRows_cons_of_full (full : (waiting ++ row).length = width) :
    takenRows width waiting (row :: rows) = row :: takenRows width [] rows := if_pos full

theorem takenRows_cons_of_short (short : (waiting ++ row).length ≠ width) :
    takenRows width waiting (row :: rows) = takenRows width (waiting ++ row) rows := if_neg short

theorem visible_fill_cons_of_full (full : (waiting ++ row).length = width) :
    (fill width waiting (row :: rows)).visible = (waiting ++ row) :: (fill width [] rows).visible := by
  rw [fill_cons_of_full full]
  rfl

theorem fill_of_fit (fit : ∀ row ∈ rows, row.length = width) :
    fill width [] rows = ⟨rows, []⟩ := by
  induction rows with
  | nil => rfl
  | cons row rows inductionHypothesis =>
      have rowFits : ([] ++ row).length = width := fit row List.mem_cons_self
      have rest := inductionHypothesis fun other member => fit other (List.mem_cons_of_mem _ member)
      rw [fill_cons_of_full rowFits, rest]
      rfl

/-- Once a cell waits, what is read differs from what has been taken, unless this cell is empty and
nothing follows it. -/
theorem eq_of_visible_eq_takenRows (begun : waiting ≠ [])
    (same : (fill width waiting rows).visible = takenRows width waiting rows) :
    waiting = [""] ∧ ∀ row ∈ rows, row = [] := by
  induction rows generalizing waiting with
  | nil =>
      refine ⟨?_, by simp⟩
      by_contra trace
      have shown : (fill width waiting []).visible = [waiting] :=
        if_neg (not_or.2 ⟨begun, trace⟩)
      rw [shown] at same
      cases same
  | cons row rows inductionHypothesis =>
      by_cases full : (waiting ++ row).length = width
      · rw [visible_fill_cons_of_full full, takenRows_cons_of_full full] at same
        injection same with sameRow _
        exact absurd (List.append_left_eq_self.1 sameRow) begun
      · rw [fill_cons_of_short full, takenRows_cons_of_short full] at same
        have begunNext : waiting ++ row ≠ [] := List.append_ne_nil_of_left_ne_nil begun _
        obtain ⟨oneCell, rest⟩ := inductionHypothesis begunNext same
        have rowEmpty : row = [] := by
          obtain ⟨cell, cells, rfl⟩ := List.exists_cons_of_ne_nil begun
          injection oneCell with _ noMore
          exact (List.append_eq_nil_iff.1 noMore).2
        rw [rowEmpty, List.append_nil] at oneCell
        exact ⟨oneCell, List.forall_mem_cons.2 ⟨rowEmpty, rest⟩⟩

theorem fill_of_no_cells (short : waiting.length ≠ width) (noCells : ∀ row ∈ rows, row = []) :
    fill width waiting rows = ⟨[], waiting⟩ ∧ takenRows width waiting rows = [] := by
  induction rows with
  | nil => exact ⟨rfl, rfl⟩
  | cons row rows inductionHypothesis =>
      obtain ⟨rfl, rest⟩ := List.forall_mem_cons.1 noCells
      have stillShort : (waiting ++ []).length ≠ width := by rwa [List.append_nil]
      rw [fill_cons_of_short stillShort, takenRows_cons_of_short stillShort, List.append_nil]
      exact inductionHypothesis rest

theorem takenRows_eq_visible (harmless : Harmless width rows) :
    takenRows width [] rows = (fill width [] rows).visible := by
  induction rows with
  | nil => rfl
  | cons row rows inductionHypothesis =>
      obtain ⟨first, later⟩ := harmless_cons_iff.1 harmless
      have rest := inductionHypothesis later
      by_cases full : ([] ++ row).length = width
      · rw [visible_fill_cons_of_full full, takenRows_cons_of_full full, rest]
        rfl
      · rw [fill_cons_of_short full, takenRows_cons_of_short full]
        rcases first full with rfl | ⟨rfl, noCells⟩
        · exact rest
        · obtain ⟨filled, taken⟩ := fill_of_no_cells full noCells
          rw [filled, taken]
          rfl

/-- What is read are the rows that have been taken exactly when the others leave no trace. -/
theorem visible_eq_takenRows_iff :
    (fill width [] rows).visible = takenRows width [] rows ↔ Harmless width rows := by
  constructor
  · intro same
    induction rows with
    | nil => exact harmless_nil width
    | cons row rows inductionHypothesis =>
        rw [harmless_cons_iff]
        by_cases full : ([] ++ row).length = width
        · rw [visible_fill_cons_of_full full, takenRows_cons_of_full full] at same
          injection same with _ sameRows
          exact ⟨fun misfit => absurd full misfit, inductionHypothesis sameRows⟩
        · rw [fill_cons_of_short full, takenRows_cons_of_short full] at same
          by_cases noCell : row = []
          · rw [noCell] at same
            exact ⟨fun _ => Or.inl noCell, inductionHypothesis same⟩
          · have trace := eq_of_visible_eq_takenRows noCell same
            refine ⟨fun _ => Or.inr trace, ?_⟩
            intro before bad after split misfit
            exact Or.inl (trace.2 bad (by simp [split]))
  · intro harmless
    exact (takenRows_eq_visible harmless).symm

theorem length_of_mem_fill {finished : List String}
    (member : finished ∈ (fill width waiting rows).rows) : finished.length = width := by
  induction rows generalizing waiting with
  | nil => cases member
  | cons row rows inductionHypothesis =>
      by_cases full : (waiting ++ row).length = width
      · rw [fill_cons_of_full full] at member
        rcases List.mem_cons.1 member with rfl | later
        · exact full
        · exact inductionHypothesis later
      · rw [fill_cons_of_short full] at member
        exact inductionHypothesis member

end

/-! ## The writer along the rows -/

namespace Writer

/-- A writer that has finished rows under a header and holds the cells that wait. -/
def holding (separator : Separator) (columns : List String) (filling : Filling) : Writer :=
  filling.waiting.foldl addCell (atRowStart separator columns.length
    (String.ofList ((columns :: filling.rows).flatMap fun row =>
      rowForm separator.char (rowChars row))))

variable (separator : Separator) (columns : List String) (rows : List (List String))
  {waiting row : List String}

theorem start_eq_holding : start separator columns = holding separator columns ⟨[], []⟩ := by
  rw [start_eq]
  simp [holding]

theorem addRow_holding_of_full (full : (waiting ++ row).length = columns.length) :
    (holding separator columns ⟨rows, waiting⟩).addRow row =
      (.ok (), holding separator columns ⟨rows ++ [waiting ++ row], []⟩) := by
  rw [addRow, holding, ← List.foldl_append, foldl_addCell_atRowStart_cells, foldl_addCell_width,
    if_pos (by exact full), endRow_foldl_addCell]
  simp [holding, String.append_assoc]

theorem addRow_holding_of_short (short : (waiting ++ row).length ≠ columns.length) :
    (holding separator columns ⟨rows, waiting⟩).addRow row =
      (.error ⟨(waiting ++ row).length, columns.length⟩,
        holding separator columns ⟨rows, waiting ++ row⟩) := by
  rw [addRow, holding, ← List.foldl_append, foldl_addCell_atRowStart_cells, foldl_addCell_width,
    if_neg (by exact short)]
  rfl

end Writer

/-- What has been written is read as the finished rows and, if it shows, the unfinished one. -/
theorem ofBytes_holding {separator : Separator} (ordinary : separator.Ordinary)
    {columns : List String} (readable : ReadableHeader columns) {filling : Filling}
    (fit : ∀ row ∈ filling.rows, row.length = columns.length) :
    ofBytes separator (Writer.holding separator columns filling).bytes =
      .ok ⟨columns, filling.visible⟩ := by
  obtain ⟨rows, waiting⟩ := filling
  have nonempty : ∀ row ∈ rows, row ≠ [] := ne_nil_of_readable readable fit
  rcases List.eq_nil_or_concat' waiting with rfl | ⟨cells, last, rfl⟩
  · have finished : Writer.holding separator columns ⟨rows, []⟩ =
        (Writer.start separator columns).addRows rows := by
      rw [Writer.start_eq, Writer.addRows_atRowStart separator _ fit]
      simp [Writer.holding]
    rw [finished, ofBytes_bytes_addRows ordinary readable fit, Filling.visible]
    simp
  · have unfinished (now start : Mark) :
        (rawRows separator.byte .rowStart now ⟨start, [], []⟩ (Bytes.encoding
          (dividedForm separator.char (rowChars cells) ++
            openCell separator.char last.toList))).map RawRow.cells =
          (if cells ++ [last] = [""] then [] else [cells ++ [last]]).map
            (List.map Bytes.ofText) := by
      have alone : rowChars cells ++ [last.toList] = [[]] ↔ cells ++ [last] = [""] := by
        have oneEmpty : ([[]] : List (List Char)) = [""].map String.toList := rfl
        rw [rowChars, ← List.map_singleton, ← List.map_append, oneEmpty]
        exact List.map_inj_right fun _ _ same => String.toList_inj.1 same
      rw [cells_rawRows_unfinished ordinary]
      by_cases empty : cells ++ [last] = [""]
      · rw [if_pos (alone.2 empty), if_pos empty]
        rfl
      · rw [if_neg (alone.not.2 empty), if_neg empty]
        simp [rowChars, Bytes.ofText_eq_encoding]
    have read := ofBytes_encoding_append ordinary readable nonempty unfinished
    rw [Writer.bytes, Writer.holding, Writer.text_foldl_concat, ← String.ofList_append,
      Bytes.ofText_ofList, read, Filling.visible]
    simp

end RemoteRecords.Table
