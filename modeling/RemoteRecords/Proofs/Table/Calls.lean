import RemoteRecords.Proofs.Table.Filling
import RemoteRecords.Table.File

/-!
# What the calls of a table writer leave behind

The bytes behind any calls are read as the rows that the cells of these calls fill
(`readsBack_performAll`). So rows of the width of the header are all taken and read back
(`performAll_rows_read_back`), and a refused row leaves no trace exactly when it has no cell or is a
last, empty cell (`leavesNoTrace_iff`).
-/

namespace RemoteRecords.Table

/-! ## Calls -/

/-- The row that a call adds. -/
def Call.row? (columns : List String) : Call → Option (List String)
  | .record fields => some (rowOf columns fields)
  | .row cells => some cells
  | .finish => none

/-- The rows of the calls that have succeeded. -/
def doneRows (columns : List String) (calls : List Call)
    (results : List (Except WidthMismatch Unit)) : List (List String) :=
  (calls.zip results).filterMap fun settled =>
    match settled.2 with
    | .ok _ => settled.1.row? columns
    | .error _ => none

/-- Wherever the bytes are a file, this file is read as the table. -/
def ReadsBack (separator : Separator) (bytes : Bytes) (table : Table) : Prop :=
  ∀ (files : FileTree) (path : Path), files.openFile path = .ok (some bytes) →
    read files path separator = .ok table

theorem readsBack_iff {separator : Separator} {bytes : Bytes} {table : Table} :
    ReadsBack separator bytes table ↔ ofBytes separator bytes = .ok table := by
  constructor
  · intro readsBack
    have opened : FileTree.openFile ⟨[], [(["table"], bytes)], []⟩ (.ofText "table") =
        .ok (some bytes) := rfl
    have result := readsBack _ _ opened
    simp only [read, opened] at result
    cases decoded : ofBytes separator bytes with
    | ok other =>
        rw [decoded] at result
        cases result
        rfl
    | error bad =>
        rw [decoded] at result
        cases result
  · intro same files path opened
    simp only [read, opened, same]

section

variable {columns : List String} {call : Call}

theorem perform_of_row (writer : Writer) {row : List String}
    (adds : call.row? columns = some row) :
    writer.perform columns call = writer.addRow row := by
  cases call with
  | record fields =>
      cases adds
      rfl
  | row cells =>
      cases adds
      rfl
  | finish => cases adds

theorem perform_of_no_row (writer : Writer) (adds : call.row? columns = none) :
    writer.perform columns call = (.ok (), writer) := by
  cases call with
  | record fields => cases adds
  | row cells => cases adds
  | finish => rfl

theorem performAll_cons {writer next : Writer} {result : Except WidthMismatch Unit}
    (performed : writer.perform columns call = (result, next)) (calls : List Call) :
    writer.performAll columns (call :: calls) =
      (result :: (next.performAll columns calls).1, (next.performAll columns calls).2) := by
  rw [Writer.performAll, performed]

theorem doneRows_cons_ok (calls : List Call) (results : List (Except WidthMismatch Unit)) :
    doneRows columns (call :: calls) (.ok () :: results) =
      (call.row? columns).toList ++ doneRows columns calls results := by
  rw [doneRows, List.zip_cons_cons, List.filterMap_cons]
  cases call.row? columns <;> simp [doneRows]

theorem doneRows_cons_error (calls : List Call) (results : List (Except WidthMismatch Unit))
    (mismatch : WidthMismatch) :
    doneRows columns (call :: calls) (.error mismatch :: results) =
      doneRows columns calls results := rfl

end

/-! ## Calls to a writer that holds cells -/

section

variable (separator : Separator) {columns row waiting : List String} {call : Call}
  (rows : List (List String))

theorem performAll_of_full (adds : call.row? columns = some row)
    (full : (waiting ++ row).length = columns.length) (calls : List Call) :
    let next := Writer.holding separator columns ⟨rows ++ [waiting ++ row], []⟩
    (Writer.holding separator columns ⟨rows, waiting⟩).performAll columns (call :: calls) =
      (.ok () :: (next.performAll columns calls).1, (next.performAll columns calls).2) := by
  have performed := perform_of_row (.holding separator columns ⟨rows, waiting⟩) adds
  rw [Writer.addRow_holding_of_full separator columns rows full] at performed
  exact performAll_cons performed calls

theorem performAll_of_short (adds : call.row? columns = some row)
    (short : (waiting ++ row).length ≠ columns.length) (calls : List Call) :
    let next := Writer.holding separator columns ⟨rows, waiting ++ row⟩
    (Writer.holding separator columns ⟨rows, waiting⟩).performAll columns (call :: calls) =
      (.error ⟨(waiting ++ row).length, columns.length⟩ :: (next.performAll columns calls).1,
        (next.performAll columns calls).2) := by
  have performed := perform_of_row (.holding separator columns ⟨rows, waiting⟩) adds
  rw [Writer.addRow_holding_of_short separator columns rows short] at performed
  exact performAll_cons performed calls

end

/-- The rows that calls add, whether or not they are taken. -/
def addedRows (columns : List String) (calls : List Call) : List (List String) :=
  calls.filterMap (Call.row? columns)

/-- The writer goes along with the rows of the calls. -/
theorem performAll_holding (separator : Separator) (columns : List String) (calls : List Call)
    (rows : List (List String)) (waiting : List String) :
    let played := (Writer.holding separator columns ⟨rows, waiting⟩).performAll columns calls
    let filled := fill columns.length waiting (addedRows columns calls)
    played.2 = Writer.holding separator columns ⟨rows ++ filled.rows, filled.waiting⟩ ∧
      doneRows columns calls played.1 =
        takenRows columns.length waiting (addedRows columns calls) := by
  induction calls generalizing rows waiting with
  | nil => simp [Writer.performAll, addedRows, fill, doneRows, takenRows]
  | cons call calls inductionHypothesis =>
      cases added : call.row? columns with
      | none =>
          have same : addedRows columns (call :: calls) = addedRows columns calls :=
            List.filterMap_cons_none added
          obtain ⟨last, done⟩ := inductionHypothesis rows waiting
          rw [performAll_cons (perform_of_no_row _ added), same]
          dsimp only
          rw [doneRows_cons_ok, added]
          exact ⟨last, done⟩
      | some row =>
          have more : addedRows columns (call :: calls) = row :: addedRows columns calls :=
            List.filterMap_cons_some added
          rw [more]
          by_cases full : (waiting ++ row).length = columns.length
          · obtain ⟨last, done⟩ := inductionHypothesis (rows ++ [waiting ++ row]) []
            rw [performAll_of_full separator rows added full, fill_cons_of_full full,
              takenRows_cons_of_full full]
            dsimp only
            rw [doneRows_cons_ok, added, last, List.append_assoc]
            exact ⟨rfl, congrArg (row :: ·) done⟩
          · obtain ⟨last, done⟩ := inductionHypothesis rows (waiting ++ row)
            rw [performAll_of_short separator rows added full, fill_cons_of_short full,
              takenRows_cons_of_short full]
            dsimp only
            rw [doneRows_cons_error]
            exact ⟨last, done⟩

/-- What the calls have written is read as the rows that their cells fill. -/
theorem readsBack_performAll {separator : Separator} (ordinary : separator.Ordinary)
    {columns : List String} (readable : ReadableHeader columns) (calls : List Call) :
    ReadsBack separator ((Writer.start separator columns).performAll columns calls).2.bytes
      ⟨columns, (fill columns.length [] (addedRows columns calls)).visible⟩ := by
  obtain ⟨last, -⟩ := performAll_holding separator columns calls [] []
  have fit : ∀ row ∈ (fill columns.length [] (addedRows columns calls)).rows,
      row.length = columns.length := fun _ member => length_of_mem_fill member
  rw [Writer.start_eq_holding, last, readsBack_iff, List.nil_append]
  exact ofBytes_holding ordinary readable fit

theorem doneRows_performAll (separator : Separator) (columns : List String) (calls : List Call) :
    doneRows columns calls ((Writer.start separator columns).performAll columns calls).1 =
      takenRows columns.length [] (addedRows columns calls) := by
  rw [Writer.start_eq_holding]
  exact (performAll_holding separator columns calls [] []).2

/-! ## Rows that fit -/

theorem results_of_fit (separator : Separator) {columns : List String}
    {rows : List (List String)} (fit : ∀ row ∈ rows, row.length = columns.length)
    (before : List (List String)) :
    ((Writer.holding separator columns ⟨before, []⟩).performAll columns
      (rows.map Call.row ++ [.finish])).1 = List.replicate (rows.length + 1) (.ok ()) := by
  induction rows generalizing before with
  | nil => rfl
  | cons row rows inductionHypothesis =>
      have rowFits : ([] ++ row).length = columns.length := fit row List.mem_cons_self
      have rest := inductionHypothesis
        (fun other member => fit other (List.mem_cons_of_mem _ member)) (before ++ [[] ++ row])
      have adds : (Call.row row).row? columns = some row := rfl
      rw [List.map_cons, List.cons_append, performAll_of_full separator before adds rowFits, rest]
      rfl

theorem addedRows_rows (columns : List String) (rows : List (List String)) :
    addedRows columns (rows.map Call.row ++ [.finish]) = rows := by
  simp [addedRows, Call.row?, List.filterMap_map, Function.comp_def]

/-- Rows of the width of the header are all taken, whatever their cells hold, and what has been
written is read as the header and these rows. -/
theorem performAll_rows_read_back {separator : Separator} (ordinary : separator.Ordinary)
    {columns : List String} (readable : ReadableHeader columns) {rows : List (List String)}
    (fit : ∀ row ∈ rows, row.length = columns.length) :
    let played := (Writer.start separator columns).performAll columns
      (rows.map Call.row ++ [.finish])
    played.1 = List.replicate (rows.length + 1) (.ok ()) ∧
      ReadsBack separator played.2.bytes ⟨columns, rows⟩ := by
  intro played
  have results : played.1 = List.replicate (rows.length + 1) (.ok ()) := by
    simp only [played]
    rw [Writer.start_eq_holding]
    exact results_of_fit separator fit []
  have readBack := readsBack_performAll ordinary readable (rows.map Call.row ++ [.finish])
  have visible : (fill columns.length [] rows).visible = rows := by
    rw [fill_of_fit fit, Filling.visible]
    simp
  rw [addedRows_rows, visible] at readBack
  exact ⟨results, readBack⟩

theorem performAll_rows_read_back_line_ends :
    let columns := ["id", "a|b"]
    let rows := [["", "say \"hi\"|\"bye\""], ["\r", "two\r\nlines\n"], ["", ""]]
    let separator : Separator := ⟨'|', by decide⟩
    let played := (Writer.start separator columns).performAll columns
      (rows.map Call.row ++ [.finish])
    separator.Ordinary ∧ ReadableHeader columns ∧
      (∀ row ∈ rows, row.length = columns.length) ∧
      played.1 = List.replicate 4 (.ok ()) ∧
      ReadsBack separator played.2.bytes ⟨columns, rows⟩ := by
  intro columns rows separator played
  have ordinary : separator.Ordinary := by
    refine ⟨?_, ?_, ?_⟩ <;> decide
  have readable : ReadableHeader columns := ⟨"id", ["a|b"], rfl, by decide⟩
  have fit : ∀ row ∈ rows, row.length = columns.length := by decide
  obtain ⟨results, readBack⟩ := performAll_rows_read_back ordinary readable fit
  exact ⟨ordinary, readable, fit, results, readBack⟩

/-! ## Refused rows -/

/-- The calls leave no trace of refused rows: a row of the width of the header is taken whatever
calls came before it, and what has been written is read as the rows of the calls that have
succeeded. -/
def LeavesNoTrace (separator : Separator) (columns : List String) (calls : List Call) : Prop :=
  let played := (Writer.start separator columns).performAll columns calls
  (∀ cells result, (Call.row cells, result) ∈ calls.zip played.1 →
      cells.length = columns.length → result = .ok ()) ∧
    ReadsBack separator played.2.bytes ⟨columns, doneRows columns calls played.1⟩

theorem mem_addedRows_of_row {columns cells : List String} {calls : List Call}
    (member : Call.row cells ∈ calls) : cells ∈ addedRows columns calls :=
  List.mem_filterMap.2 ⟨_, member, rfl⟩

theorem fitting_taken_of_harmless (separator : Separator) {columns : List String}
    (columnsNonempty : columns ≠ []) {calls : List Call}
    (harmless : Harmless columns.length (addedRows columns calls))
    (before : List (List String)) {cells : List String} {result : Except WidthMismatch Unit}
    (member : (Call.row cells, result) ∈
      calls.zip ((Writer.holding separator columns ⟨before, []⟩).performAll columns calls).1)
    (fits : cells.length = columns.length) : result = .ok () := by
  induction calls generalizing before with
  | nil => cases member
  | cons call calls inductionHypothesis =>
      cases added : call.row? columns with
      | none =>
          have same : addedRows columns (call :: calls) = addedRows columns calls :=
            List.filterMap_cons_none added
          rw [same] at harmless
          rw [performAll_cons (perform_of_no_row _ added), List.zip_cons_cons] at member
          rcases List.mem_cons.1 member with here | later
          · exact congrArg Prod.snd here
          · exact inductionHypothesis harmless before later
      | some row =>
          have more : addedRows columns (call :: calls) = row :: addedRows columns calls :=
            List.filterMap_cons_some added
          rw [more] at harmless
          obtain ⟨first, rest⟩ := harmless_cons_iff.1 harmless
          by_cases full : ([] ++ row).length = columns.length
          · rw [performAll_of_full separator before added full, List.zip_cons_cons] at member
            rcases List.mem_cons.1 member with here | later
            · exact congrArg Prod.snd here
            · exact inductionHypothesis rest (before ++ [[] ++ row]) later
          · rw [performAll_of_short separator before added full, List.zip_cons_cons] at member
            rcases List.mem_cons.1 member with here | later
            · injection here with sameCall _
              rw [← sameCall] at added
              injection added with sameRow
              exact absurd (sameRow ▸ fits) full
            · rcases first full with rfl | ⟨-, noCells⟩
              · exact inductionHypothesis rest before later
              · have cellsEmpty : cells = [] :=
                  noCells cells (mem_addedRows_of_row (List.of_mem_zip later).1)
                rw [cellsEmpty] at fits
                exact absurd (List.length_eq_zero_iff.1 fits.symm) columnsNonempty

/-- Refused rows leave no trace exactly when all of them are empty or the last one is a single empty
cell: any other cell stays in the unfinished row. -/
theorem leavesNoTrace_iff {separator : Separator} (ordinary : separator.Ordinary)
    {columns : List String} (readable : ReadableHeader columns) (calls : List Call) :
    (LeavesNoTrace separator columns calls ↔
        Harmless columns.length (addedRows columns calls)) ∧
      ReadsBack separator ((Writer.start separator columns).performAll columns calls).2.bytes
        ⟨columns, (fill columns.length [] (addedRows columns calls)).visible⟩ := by
  have readBack := readsBack_performAll ordinary readable calls
  refine ⟨?_, readBack⟩
  have readsTaken : ReadsBack separator
      ((Writer.start separator columns).performAll columns calls).2.bytes
        ⟨columns, doneRows columns calls
          ((Writer.start separator columns).performAll columns calls).1⟩ ↔
      Harmless columns.length (addedRows columns calls) := by
    rw [← visible_eq_takenRows_iff, doneRows_performAll, readsBack_iff, readsBack_iff.1 readBack]
    simp
  constructor
  · rintro ⟨-, readsDone⟩
    exact readsTaken.1 readsDone
  · intro harmless
    refine ⟨?_, readsTaken.2 harmless⟩
    intro cells result member fits
    have columnsNonempty : columns ≠ [] := by
      obtain ⟨name, names, rfl, -⟩ := readable
      exact List.cons_ne_nil name names
    rw [Writer.start_eq_holding] at member
    exact fitting_taken_of_harmless separator columnsNonempty harmless [] member fits

/-- Rows without a cell and a last, empty cell are refused without a trace. -/
theorem leavesNoTrace_iff_empty_rows :
    let separator : Separator := ⟨';', by decide⟩
    let columns := ["id", "name"]
    let calls := [Call.row [], .row ["7", "Deco"], .finish, .record [("id", .int 8)], .row [""],
      .row []]
    separator.Ordinary ∧ ReadableHeader columns ∧
      Harmless columns.length (addedRows columns calls) ∧
      LeavesNoTrace separator columns calls ∧
      doneRows columns calls ((Writer.start separator columns).performAll columns calls).1 =
        [["7", "Deco"], ["8", ""]] := by
  intro separator columns calls
  have ordinary : separator.Ordinary := by
    refine ⟨?_, ?_, ?_⟩ <;> decide
  have readable : ReadableHeader columns := ⟨"id", ["name"], rfl, by decide⟩
  have added : addedRows columns calls = [[], ["7", "Deco"], ["8", ""], [""], []] := by
    decide +kernel
  have harmless : Harmless columns.length (addedRows columns calls) := by
    rw [added]
    simp [harmless_cons_iff, harmless_nil, columns]
  refine ⟨ordinary, readable, harmless, (leavesNoTrace_iff ordinary readable calls).1.2 harmless,
    ?_⟩
  rw [doneRows_performAll, added]
  decide

/-- A cell of a refused row makes the next row too long. -/
theorem not_leavesNoTrace_short_row :
    ¬ LeavesNoTrace ⟨';', by decide⟩ ["id", "name"] [.row ["5"], .row ["7", "Deco"], .finish] := by
  rintro ⟨fitting, -⟩
  have refused := fitting ["7", "Deco"] (.error ⟨3, 2⟩)
    (List.mem_cons_of_mem _ List.mem_cons_self) rfl
  cases refused

end RemoteRecords.Table
