import Mathlib.Data.List.Basic
import RemoteRecords.Table.Basic
import RemoteRecords.Proofs.Table.Written
import RemoteRecords.Proofs.Text.Encoding

/-!
# Tables read back

The reader is followed through the text of a row: `Reaches` says that some bytes lead from one place
within a row to another, and `rawRows_rowForm` that a row which has been written is read as its
cells. `ofBytes_bytes_addRows` puts the rows together: a table that has been written is read back.
-/

namespace RemoteRecords.Table

/-! ## Places within a row -/

/-- Where the reader stands: its place, the finished cells and the current one, both last first. -/
structure Standing where
  place : Place
  cells : List Bytes
  cell : Bytes

/-- The bytes lead from one place within a row to another, wherever the row has started. -/
def Reaches (separator : UInt8) (bytes : Bytes) (before after : Standing) : Prop :=
  ∀ now start rest, ∃ later,
    rawRows separator before.place now ⟨start, before.cells, before.cell⟩ (bytes ++ rest) =
      rawRows separator after.place later ⟨start, after.cells, after.cell⟩ rest

variable {separator : UInt8}

theorem Reaches.refl (standing : Standing) : Reaches separator [] standing standing :=
  fun now _ _ => ⟨now, rfl⟩

theorem Reaches.trans {first second : Bytes} {before middle after : Standing}
    (left : Reaches separator first before middle)
    (right : Reaches separator second middle after) :
    Reaches separator (first ++ second) before after := by
  intro now start rest
  obtain ⟨between, leftRun⟩ := left now start (second ++ rest)
  obtain ⟨later, rightRun⟩ := right between start rest
  exact ⟨later, by rw [List.append_assoc, leftRun, rightRun]⟩

theorem Reaches.skip {place next : Place} {byte : UInt8} {cells : List Bytes} {cell : Bytes}
    (skips : effect separator place byte = .skip next) :
    Reaches separator [byte] ⟨place, cells, cell⟩ ⟨next, cells, cell⟩ := by
  intro now start rest
  exact ⟨now.after byte, by simp [rawRows, skips]⟩

theorem Reaches.copy {place next : Place} {byte : UInt8} {cells : List Bytes} {cell : Bytes}
    (copies : effect separator place byte = .copy next) :
    Reaches separator [byte] ⟨place, cells, cell⟩ ⟨next, cells, byte :: cell⟩ := by
  intro now start rest
  exact ⟨now.after byte, by simp [rawRows, copies]⟩

theorem Reaches.endCell {place : Place} {byte : UInt8} {cells : List Bytes} {cell : Bytes}
    (ends : effect separator place byte = .endCell) :
    Reaches separator [byte] ⟨place, cells, cell⟩ ⟨.cellStart, cell.reverse :: cells, []⟩ := by
  intro now start rest
  exact ⟨now.after byte, by simp [rawRows, ends]⟩

/-! ## Bytes of a cell -/

/-- A byte that belongs to a cell outside quotes. -/
def IsPlain (separator byte : UInt8) : Prop :=
  byte ≠ separator ∧ byte ≠ 34 ∧ byte ≠ 13 ∧ byte ≠ 10

theorem outside_of_isPlain {byte : UInt8} (plain : IsPlain separator byte) :
    outside separator byte = .copy .plain := by
  obtain ⟨noSeparator, _, noReturn, noFeed⟩ := plain
  simp [outside, noSeparator, noReturn, noFeed]

/-- A place where a cell may begin. -/
def Place.Opens (place : Place) : Prop := place = .rowStart ∨ place = .cellStart

theorem effect_of_opens {place : Place} (opens : place.Opens) {byte : UInt8}
    (noReturn : byte ≠ 13) (noFeed : byte ≠ 10) :
    effect separator place byte = opening separator byte := by
  rcases opens with rfl | rfl
  · simp [effect, beginning, isLineEnd, noReturn, noFeed]
  · rfl

theorem reaches_plain {bytes : Bytes} (plain : ∀ byte ∈ bytes, IsPlain separator byte)
    (cells : List Bytes) (cell : Bytes) :
    Reaches separator bytes ⟨.plain, cells, cell⟩ ⟨.plain, cells, bytes.reverse ++ cell⟩ := by
  induction bytes generalizing cell with
  | nil => exact Reaches.refl _
  | cons byte bytes inductionHypothesis =>
      have first : Reaches separator [byte] ⟨.plain, cells, cell⟩
          ⟨.plain, cells, byte :: cell⟩ :=
        Reaches.copy (outside_of_isPlain (plain byte List.mem_cons_self))
      have later := inductionHypothesis
        (fun other member => plain other (List.mem_cons_of_mem _ member)) (byte :: cell)
      simpa using first.trans later

theorem reaches_plain_of_opens {place : Place} (opens : place.Opens) {byte : UInt8}
    {bytes : Bytes} (plain : ∀ other ∈ byte :: bytes, IsPlain separator other)
    (cells : List Bytes) :
    Reaches separator (byte :: bytes) ⟨place, cells, []⟩
      ⟨.plain, cells, (byte :: bytes).reverse⟩ := by
  obtain ⟨noSeparator, noQuote, noReturn, noFeed⟩ := plain byte List.mem_cons_self
  have copies : effect separator place byte = .copy .plain := by
    rw [effect_of_opens opens noReturn noFeed, opening, if_neg noQuote]
    exact outside_of_isPlain (plain byte List.mem_cons_self)
  have first : Reaches separator [byte] ⟨place, cells, []⟩ ⟨.plain, cells, [byte]⟩ :=
    Reaches.copy copies
  have restPlain : ∀ other ∈ bytes, IsPlain separator other :=
    fun other member => plain other (List.mem_cons_of_mem _ member)
  have later := reaches_plain restPlain cells [byte]
  simpa using first.trans later

/-! ## Quoted cells -/

theorem reaches_inside (separator : UInt8) {bytes : Bytes} (noQuote : (34 : UInt8) ∉ bytes)
    (cells : List Bytes) (cell : Bytes) :
    Reaches separator bytes ⟨.quoted, cells, cell⟩ ⟨.quoted, cells, bytes.reverse ++ cell⟩ := by
  induction bytes generalizing cell with
  | nil => exact Reaches.refl _
  | cons byte bytes inductionHypothesis =>
      have copies : effect separator .quoted byte = .copy .quoted :=
        if_neg fun same => noQuote (by simp [same])
      have first : Reaches separator [byte] ⟨.quoted, cells, cell⟩
          ⟨.quoted, cells, byte :: cell⟩ := Reaches.copy copies
      have later := inductionHypothesis
        (fun member => noQuote (List.mem_cons_of_mem _ member)) (byte :: cell)
      simpa using first.trans later

theorem encoding_quote : Bytes.encoding ['"'] = [34] := by decide

theorem reaches_doubleQuotes (separator : UInt8) (chars : List Char) (cells : List Bytes)
    (cell : Bytes) :
    Reaches separator (Bytes.encoding (doubleQuotes chars)) ⟨.quoted, cells, cell⟩
      ⟨.quoted, cells, (Bytes.encoding chars).reverse ++ cell⟩ := by
  induction chars generalizing cell with
  | nil => exact Reaches.refl _
  | cons c chars inductionHypothesis =>
      -- A quote arrives as two bytes; no byte of another character is taken for a quote.
      by_cases quote : c = '"'
      · have closing : Reaches separator [34] ⟨.quoted, cells, cell⟩
            ⟨.afterQuote, cells, cell⟩ := Reaches.skip rfl
        have doubled : Reaches separator [34] ⟨.afterQuote, cells, cell⟩
            ⟨.quoted, cells, 34 :: cell⟩ := Reaches.copy rfl
        have later := inductionHypothesis (34 :: cell)
        have whole := closing.trans (doubled.trans later)
        have written : Bytes.encoding (doubleQuotes (c :: chars)) =
            [34] ++ ([34] ++ Bytes.encoding (doubleQuotes chars)) := by
          rw [doubleQuotes, if_pos quote, ← encoding_quote, ← Bytes.encoding_append,
            ← Bytes.encoding_append]
          rfl
        have held : (Bytes.encoding (c :: chars)).reverse ++ cell =
            (Bytes.encoding chars).reverse ++ 34 :: cell := by
          rw [quote, ← List.singleton_append, Bytes.encoding_append, encoding_quote]
          simp
        rwa [written, held]
      · have noQuote : (34 : UInt8) ∉ String.utf8EncodeChar c :=
          Bytes.byte_not_mem_utf8EncodeChar '"' (by decide) quote
        have first := reaches_inside separator noQuote cells cell
        have later := inductionHypothesis ((String.utf8EncodeChar c).reverse ++ cell)
        rw [doubleQuotes, if_neg quote, Bytes.encoding_cons, Bytes.encoding_cons]
        simpa using first.trans later

/-! ## Cells and rows -/

/-- A character that divides cells without meaning anything else in a table. -/
def Separator.Ordinary (separator : Separator) : Prop :=
  separator.char ≠ '"' ∧ separator.char ≠ '\r' ∧ separator.char ≠ '\n'

theorem Separator.byte_ne {separator : Separator} (c : Char) (small : c.toNat < 128)
    (different : separator.char ≠ c) : separator.byte ≠ c.toNat.toUInt8 := by
  intro same
  apply Bytes.byte_not_mem_utf8EncodeChar c small different
  rw [Bytes.utf8EncodeChar_of_ascii separator.ascii, List.mem_singleton]
  exact same.symm

theorem Separator.encoding_char (separator : Separator) :
    Bytes.encoding [separator.char] = [separator.byte] := by
  simp only [Bytes.encoding, List.flatMap_singleton,
    Bytes.utf8EncodeChar_of_ascii separator.ascii, Separator.byte]

theorem isPlain_of_not_needsQuotes {separator : Separator} {cell : List Char}
    (bare : needsQuotes separator.char cell = false) :
    ∀ byte ∈ Bytes.encoding cell, IsPlain separator.byte byte := by
  have absent : separator.char ∉ cell ∧ '"' ∉ cell ∧ '\r' ∉ cell ∧ '\n' ∉ cell := by
    simp only [needsQuotes, List.any_eq_false, Bool.or_eq_true, beq_iff_eq, not_or] at bare
    exact ⟨fun member => (bare _ member).1.1.1 rfl, fun member => (bare _ member).1.1.2 rfl,
      fun member => (bare _ member).1.2 rfl, fun member => (bare _ member).2 rfl⟩
  obtain ⟨noSeparator, noQuote, noReturn, noFeed⟩ := absent
  intro byte member
  refine ⟨?_, ?_, ?_, ?_⟩
  · rintro rfl
    exact Bytes.byte_not_mem_encoding separator.char separator.ascii noSeparator member
  · rintro rfl
    exact Bytes.byte_not_mem_encoding '"' (by decide) noQuote member
  · rintro rfl
    exact Bytes.byte_not_mem_encoding '\r' (by decide) noReturn member
  · rintro rfl
    exact Bytes.byte_not_mem_encoding '\n' (by decide) noFeed member

/-- A place behind a cell, or before an empty one: a separator or a line feed ends the cell. -/
def Place.Ends (place : Place) : Prop :=
  place = .cellStart ∨ place = .plain ∨ place = .afterQuote

/-- The cells of the row as far as it has been read. -/
def Standing.row (standing : Standing) : List Bytes :=
  (standing.cell.reverse :: standing.cells).reverse

/-- A cell from where it begins on. Only the text of an empty cell is empty. -/
theorem reaches_cellForm (separator : Separator) {place : Place} (opens : place.Opens)
    (cell : List Char) (cells : List Bytes) :
    ∃ next, Reaches separator.byte (Bytes.encoding (cellForm separator.char cell))
        ⟨place, cells, []⟩ ⟨next, cells, (Bytes.encoding cell).reverse⟩ ∧
      (next.Ends ∨ next = place ∧ cellForm separator.char cell = []) := by
  by_cases quotes : needsQuotes separator.char cell = true
  · have opening : Reaches separator.byte [34] ⟨place, cells, []⟩ ⟨.quoted, cells, []⟩ := by
      apply Reaches.skip
      rw [effect_of_opens opens (by decide) (by decide)]
      rfl
    have inside := reaches_doubleQuotes separator.byte cell cells []
    have closing : Reaches separator.byte [34]
        ⟨.quoted, cells, (Bytes.encoding cell).reverse ++ []⟩
        ⟨.afterQuote, cells, (Bytes.encoding cell).reverse ++ []⟩ := Reaches.skip rfl
    have whole := opening.trans (inside.trans closing)
    refine ⟨.afterQuote, ?_, Or.inl (Or.inr (Or.inr rfl))⟩
    have written : Bytes.encoding (cellForm separator.char cell) =
        [34] ++ (Bytes.encoding (doubleQuotes cell) ++ [34]) := by
      rw [cellForm, if_pos quotes, ← encoding_quote, ← Bytes.encoding_append,
        ← Bytes.encoding_append]
      rfl
    rw [written]
    simpa using whole
  · have bare : cellForm separator.char cell = cell := if_neg quotes
    have plain := isPlain_of_not_needsQuotes (eq_false_of_ne_true quotes)
    rw [bare]
    cases bytes : Bytes.encoding cell with
    | nil =>
        have empty : cell = [] := by
          cases cell with
          | nil => rfl
          | cons c cell =>
              rw [Bytes.encoding_cons, List.append_eq_nil_iff] at bytes
              exact absurd bytes.1 String.utf8EncodeChar_ne_nil
        exact ⟨place, Reaches.refl _, Or.inr ⟨rfl, empty⟩⟩
    | cons byte rest =>
        rw [bytes] at plain
        exact ⟨.plain, reaches_plain_of_opens opens plain cells, Or.inl (Or.inr (Or.inl rfl))⟩

theorem effect_separator {separator : Separator} (ordinary : separator.Ordinary) {place : Place}
    (ready : place.Ends ∨ place = .rowStart) :
    effect separator.byte place separator.byte = .endCell := by
  have noQuote : separator.byte ≠ 34 :=
    Separator.byte_ne '"' (by decide) ordinary.1
  have noReturn : separator.byte ≠ 13 :=
    Separator.byte_ne '\r' (by decide) ordinary.2.1
  have noFeed : separator.byte ≠ 10 :=
    Separator.byte_ne '\n' (by decide) ordinary.2.2
  rcases ready with (rfl | rfl | rfl) | rfl <;>
    simp [effect, beginning, isLineEnd, opening, outside, noQuote, noReturn, noFeed]

theorem effect_lineFeed {separator : Separator} (ordinary : separator.Ordinary) {place : Place}
    (ends : place.Ends) : effect separator.byte place 10 = .endRow .rowStart := by
  have noFeed : (10 : UInt8) ≠ separator.byte :=
    (Separator.byte_ne '\n' (by decide) ordinary.2.2).symm
  rcases ends with rfl | rfl | rfl <;> simp [effect, opening, outside, noFeed]

theorem reaches_moreCells {separator : Separator} (ordinary : separator.Ordinary)
    (cells : List (List Char)) (before : Standing)
    (ready : before.place.Ends ∨ before.place = .rowStart) :
    ∃ after, Reaches separator.byte
        (Bytes.encoding (cells.flatMap fun cell =>
          separator.char :: cellForm separator.char cell)) before after ∧
      after.row = before.row ++ cells.map Bytes.encoding ∧
      (after.place.Ends ∨ after.place = before.place ∧ cells = []) := by
  induction cells generalizing before with
  | nil => exact ⟨before, Reaches.refl _, by simp, Or.inr ⟨rfl, rfl⟩⟩
  | cons cell cells inductionHypothesis =>
      have divided : Reaches separator.byte [separator.byte] before
          ⟨.cellStart, before.cell.reverse :: before.cells, []⟩ :=
        Reaches.endCell (effect_separator ordinary ready)
      have opens : Place.cellStart.Opens := Or.inr rfl
      obtain ⟨next, cellRun, end_⟩ := reaches_cellForm separator opens cell
        (before.cell.reverse :: before.cells)
      have nextEnds : next.Ends := by
        rcases end_ with ends | ⟨same, -⟩
        · exact ends
        · exact Or.inl same
      obtain ⟨after, laterRun, row, afterEnd⟩ := inductionHypothesis
        ⟨next, before.cell.reverse :: before.cells, (Bytes.encoding cell).reverse⟩
        (Or.inl nextEnds)
      refine ⟨after, ?_, ?_, ?_⟩
      · have whole := divided.trans (cellRun.trans laterRun)
        rw [List.flatMap_cons, List.cons_append, ← List.singleton_append,
          Bytes.encoding_append, Bytes.encoding_append, separator.encoding_char]
        exact whole
      · rw [row]
        simp [Standing.row]
      · rcases afterEnd with ends | ⟨same, -⟩
        · exact Or.inl ends
        · exact Or.inl (same ▸ nextEnds)

/-- The text of a row without its line feed. Only a row whose cells leave no trace is left where it
started. -/
theorem reaches_cellsForm {separator : Separator} (ordinary : separator.Ordinary)
    {cells : List (List Char)} (nonempty : cells ≠ []) :
    ∃ after, Reaches separator.byte (Bytes.encoding (cellsForm separator.char cells))
        ⟨.rowStart, [], []⟩ after ∧
      after.row = cells.map Bytes.encoding ∧
      (after.place.Ends ∨ cellsForm separator.char cells = []) := by
  cases cells with
  | nil => exact absurd rfl nonempty
  | cons cell cells =>
      have opens : Place.rowStart.Opens := Or.inl rfl
      obtain ⟨next, cellRun, end_⟩ := reaches_cellForm separator opens cell []
      have ready : next.Ends ∨ next = .rowStart := end_.imp_right And.left
      obtain ⟨after, laterRun, row, afterEnd⟩ := reaches_moreCells ordinary cells
        ⟨next, [], (Bytes.encoding cell).reverse⟩ ready
      refine ⟨after, ?_, ?_, ?_⟩
      · rw [cellsForm, Bytes.encoding_append]
        exact cellRun.trans laterRun
      · rw [row]
        simp [Standing.row]
      · rcases afterEnd with ends | ⟨same, rfl⟩
        · exact Or.inl ends
        · rcases end_ with ends | ⟨-, empty⟩
          · exact Or.inl (same ▸ ends)
          · exact Or.inr (by simp [cellsForm, empty])

theorem cells_of_cellsForm_eq_nil {separator : Char} {cells : List (List Char)}
    (nonempty : cells ≠ []) (empty : cellsForm separator cells = []) : cells = [[]] := by
  cases cells with
  | nil => exact absurd rfl nonempty
  | cons cell cells =>
      rw [cellsForm, List.append_eq_nil_iff] at empty
      obtain ⟨firstEmpty, laterEmpty⟩ := empty
      have noCell : cell = [] := by
        rw [cellForm] at firstEmpty
        split at firstEmpty
        · cases firstEmpty
        · exact firstEmpty
      cases cells with
      | nil => rw [noCell]
      | cons other cells => cases laterEmpty

theorem rawRows_rowForm {separator : Separator} (ordinary : separator.Ordinary)
    {cells : List (List Char)} (nonempty : cells ≠ []) (now start : Mark) (rest : Bytes) :
    ∃ later,
      rawRows separator.byte .rowStart now ⟨start, [], []⟩
          (Bytes.encoding (rowForm separator.char cells) ++ rest) =
        ⟨start, cells.map Bytes.encoding⟩ ::
          rawRows separator.byte .rowStart later ⟨later, [], []⟩ rest := by
  -- Cells that leave no trace are one empty cell, for which the two quotes stand.
  have cellsRead : ∃ after, Reaches separator.byte
      (Bytes.encoding (if cellsForm separator.char cells = [] then ['"', '"']
        else cellsForm separator.char cells)) ⟨.rowStart, [], []⟩ after ∧
      after.row = cells.map Bytes.encoding ∧ after.place.Ends := by
    by_cases empty : cellsForm separator.char cells = []
    · have opening : Reaches separator.byte [34] ⟨.rowStart, [], []⟩ ⟨.quoted, [], []⟩ :=
        Reaches.skip rfl
      have closing : Reaches separator.byte [34] ⟨.quoted, [], []⟩ ⟨.afterQuote, [], []⟩ :=
        Reaches.skip rfl
      refine ⟨⟨.afterQuote, [], []⟩, ?_, ?_, Or.inr (Or.inr rfl)⟩
      · rw [if_pos empty]
        exact opening.trans closing
      · rw [cells_of_cellsForm_eq_nil nonempty empty]
        rfl
    · obtain ⟨after, run, row, ends⟩ := reaches_cellsForm ordinary nonempty
      rw [if_neg empty]
      exact ⟨after, run, row, ends.resolve_right empty⟩
  obtain ⟨after, run, row, ends⟩ := cellsRead
  obtain ⟨between, read⟩ := run now start ([10] ++ rest)
  refine ⟨between.after 10, ?_⟩
  have lineFeed : Bytes.encoding ['\n'] = [10] := by decide
  rw [rowForm, Bytes.encoding_append, lineFeed, List.append_assoc, read, List.singleton_append,
    rawRows]
  simp only [effect_lineFeed ordinary ends, Partial.row]
  rw [← row]
  rfl

theorem map_cells_rawRows {separator : Separator} (ordinary : separator.Ordinary)
    {rows : List (List (List Char))} (nonempty : ∀ row ∈ rows, row ≠ []) (now start : Mark)
    (rest : Bytes) :
    ∃ later begun,
      (rawRows separator.byte .rowStart now ⟨start, [], []⟩
          (Bytes.encoding (rows.flatMap (rowForm separator.char)) ++ rest)).map RawRow.cells =
        rows.map (List.map Bytes.encoding) ++
          (rawRows separator.byte .rowStart later ⟨begun, [], []⟩ rest).map RawRow.cells := by
  -- The marks depend on the rows before, so they are general in the induction.
  induction rows generalizing now start with
  | nil => exact ⟨now, start, rfl⟩
  | cons row rows inductionHypothesis =>
      have rowNonempty : row ≠ [] := nonempty row List.mem_cons_self
      have rowsNonempty : ∀ other ∈ rows, other ≠ [] :=
        fun other member => nonempty other (List.mem_cons_of_mem _ member)
      obtain ⟨between, read⟩ := rawRows_rowForm ordinary rowNonempty now start
        (Bytes.encoding (rows.flatMap (rowForm separator.char)) ++ rest)
      obtain ⟨later, begun, laterRead⟩ := inductionHypothesis rowsNonempty between between
      refine ⟨later, begun, ?_⟩
      rw [List.flatMap_cons, Bytes.encoding_append, List.append_assoc, read, List.map_cons,
        laterRead, List.map_cons, List.cons_append]

/-! ## Decoded rows -/

theorem decodeCells_ofText (row : Nat) (start : Mark) (number : Nat) (texts : List String) :
    decodeCells row start number (texts.map Bytes.ofText) = .ok texts := by
  induction texts generalizing number with
  | nil => rfl
  | cons text texts inductionHypothesis =>
      simp only [List.map_cons, decodeCells, Bytes.text?_ofText, inductionHypothesis]
      rfl

theorem decodeRows_ofText (number : Nat) {raw : List RawRow} {rows : List (List String)}
    (cells : raw.map RawRow.cells = rows.map (List.map Bytes.ofText)) :
    decodeRows number raw = .ok rows := by
  induction rows generalizing number raw with
  | nil =>
      rw [List.map_nil, List.map_eq_nil_iff] at cells
      rw [cells]
      rfl
  | cons row rows inductionHypothesis =>
      obtain ⟨first, later, rfl, firstCells, laterCells⟩ := List.map_eq_cons_iff.1 cells
      simp only [decodeRows, firstCells, decodeCells_ofText, inductionHypothesis _ laterCells]
      rfl

/-! ## Whole tables -/

/-- The text of a row begins with its first cell, a quote, the separator or a line feed. -/
theorem head?_rowForm {separator : Char} (ordinary : separator ≠ '\uFEFF')
    {cells : List (List Char)} (unmarked : cells.head?.bind List.head? ≠ some '\uFEFF') :
    (rowForm separator cells).head? ≠ some '\uFEFF' := by
  have cellsHead : (cellsForm separator cells).head? ≠ some '\uFEFF' := by
    cases cells with
    | nil => simp [cellsForm]
    | cons cell cells =>
        rw [cellsForm, cellForm]
        by_cases quotes : needsQuotes separator cell = true
        · simp [quotes]
        · cases cell with
          | nil => cases cells <;> simp [quotes, ordinary]
          | cons c cell => simpa [quotes] using unmarked
  rw [rowForm]
  by_cases empty : cellsForm separator cells = []
  · simp [empty]
  · rw [if_neg empty, List.head?_append_of_ne_nil _ empty]
    exact cellsHead

/-- A header with a first name that does not begin with the byte order mark. -/
def ReadableHeader (header : List String) : Prop :=
  ∃ name names, header = name :: names ∧ name.toList.head? ≠ some '\uFEFF'

/-- A table with its header and some more bytes, from which more rows are read. -/
theorem ofBytes_encoding_append {separator : Separator} (ordinary : separator.Ordinary)
    {header : List String} (readable : ReadableHeader header) {rows more : List (List String)}
    (nonempty : ∀ row ∈ rows, row ≠ []) {tail : List Char}
    (tailRead : ∀ now start,
      (rawRows separator.byte .rowStart now ⟨start, [], []⟩ (Bytes.encoding tail)).map
          RawRow.cells = more.map (List.map Bytes.ofText)) :
    ofBytes separator (Bytes.encoding (((header :: rows).flatMap fun row =>
      rowForm separator.char (rowChars row)) ++ tail)) = .ok ⟨header, rows ++ more⟩ := by
  obtain ⟨name, names, rfl, unmarked⟩ := readable
  have noMark : ((((name :: names) :: rows).flatMap fun row =>
      rowForm separator.char (rowChars row)) ++ tail).head? ≠ some '\uFEFF' := by
    have separatorUnmarked : separator.char ≠ '\uFEFF' := by
      intro same
      have ascii := separator.ascii
      rw [same] at ascii
      exact absurd ascii (by decide)
    have headerUnmarked :
        (rowForm separator.char (rowChars (name :: names))).head? ≠ some '\uFEFF' :=
      head?_rowForm separatorUnmarked unmarked
    have headerNonempty : rowForm separator.char (rowChars (name :: names)) ≠ [] :=
      List.append_ne_nil_of_right_ne_nil _ (List.cons_ne_nil _ _)
    rw [List.flatMap_cons, List.append_assoc, List.head?_append_of_ne_nil _ headerNonempty]
    exact headerUnmarked
  have allNonempty : ∀ cells ∈ ((name :: names) :: rows).map rowChars, cells ≠ [] := by
    intro cells member empty
    obtain ⟨row, rowMember, rfl⟩ := List.mem_map.1 member
    rcases List.mem_cons.1 rowMember with rfl | later
    · cases empty
    · exact nonempty row later (List.map_eq_nil_iff.1 empty)
  obtain ⟨later, begun, cells⟩ := map_cells_rawRows ordinary allNonempty ⟨0, 0⟩ ⟨0, 0⟩
    (Bytes.encoding tail)
  have texts : ((name :: names) :: rows).map (List.map Bytes.encoding ∘ rowChars) =
      ((name :: names) :: rows).map (List.map Bytes.ofText) := by
    simp [rowChars, Bytes.ofText_eq_encoding]
  rw [List.flatMap_map, List.map_map, texts, tailRead, ← List.map_append] at cells
  have decoded := decodeRows_ofText 0 cells
  rw [ofBytes, rowsOf, Bytes.withoutMark_encoding noMark, Nat.sub_self, Bytes.encoding_append,
    decoded]
  rfl

theorem ne_nil_of_readable {header : List String} (readable : ReadableHeader header)
    {rows : List (List String)} (fit : ∀ row ∈ rows, row.length = header.length) :
    ∀ row ∈ rows, row ≠ [] := by
  rintro row member rfl
  obtain ⟨name, names, rfl, -⟩ := readable
  cases fit [] member

theorem ofBytes_bytes_addRows {separator : Separator} (ordinary : separator.Ordinary)
    {header : List String} (readable : ReadableHeader header) {rows : List (List String)}
    (fit : ∀ row ∈ rows, row.length = header.length) :
    ofBytes separator ((Writer.start separator header).addRows rows).bytes =
      .ok ⟨header, rows⟩ := by
  have nothing (now start : Mark) :
      (rawRows separator.byte .rowStart now ⟨start, [], []⟩ (Bytes.encoding [])).map
          RawRow.cells = ([] : List (List String)).map (List.map Bytes.ofText) := rfl
  have read := ofBytes_encoding_append ordinary readable (ne_nil_of_readable readable fit) nothing
  rw [List.append_nil, List.append_nil] at read
  rw [Writer.bytes, Writer.text_addRows_start separator fit, Bytes.ofText_ofList]
  exact read

end RemoteRecords.Table
