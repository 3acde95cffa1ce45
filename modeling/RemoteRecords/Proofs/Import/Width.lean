import RemoteRecords.Proofs.Import.Account

/-!
# Rows of another width

A row that has another width than the header is rejected before anything is posted, but the error
file cannot take it. So an import goes through exactly when no row has another width
(`importRows_rejectsMisfits_iff`); otherwise it fails as a whole, with the width of the first such
row.
-/

namespace RemoteRecords.Import

open Session (Reply)

/-- How the first row that has another width than the header misses it. -/
def firstMisfit (header : List String) (rows : List (List String)) :
    Option Table.WidthMismatch :=
  (rows.find? fun row => row.length != header.length).map fun row =>
    ⟨row.length, header.length⟩

theorem firstMisfit_eq_none_iff {header : List String} {rows : List (List String)} :
    firstMisfit header rows = none ↔ ∀ row ∈ rows, row.length = header.length := by
  simp [firstMisfit]

theorem firstMisfit_eq_some_iff {header : List String} {rows : List (List String)}
    {mismatch : Table.WidthMismatch} :
    firstMisfit header rows = some mismatch ↔
      ∃ before bad after, rows = before ++ bad :: after ∧
        (∀ row ∈ before, row.length = header.length) ∧ bad.length ≠ header.length ∧
        mismatch = ⟨bad.length, header.length⟩ := by
  simp only [firstMisfit, Option.map_eq_some_iff, List.find?_eq_some_iff_append]
  constructor
  · rintro ⟨bad, ⟨misfit, before, after, rfl, fit⟩, rfl⟩
    exact ⟨before, bad, after, rfl, by simpa using fit, by simpa using misfit, rfl⟩
  · rintro ⟨before, bad, after, rfl, fit, misfit, rfl⟩
    exact ⟨bad, ⟨by simpa using misfit, before, after, rfl, by simpa using fit⟩, rfl⟩

/-! ## The broken error file -/

section

variable (separator : Table.Separator) (session : Session) (model : String)
  {header : List String} (exhausted : Reply) (replies : List Reply)

/-- A row of another width breaks the error file. -/
theorem State.Open.settle_of_misfit {state : State}
    (ready : state.Open separator header.length) {row : List String}
    (misfit : row.length ≠ header.length) (number : Nat) (reply : Reply) :
    (state.settle number row (verdict session header row reply)).broken =
      some ⟨row.length, header.length⟩ := by
  obtain ⟨-, text, errors⟩ := ready
  have refused : (state.errors.addRow row).1 = .error ⟨row.length, header.length⟩ := by
    rw [errors]
    exact Table.Writer.addRow_of_width_ne separator text misfit
  rw [verdict, plan_of_width_ne misfit, State.settle, State.reject]
  split
  · next taken =>
      rw [taken] at refused
      cases refused
  · next taken =>
      rw [taken] at refused
      cases refused
      rfl

theorem replay_sendRows_of_misfit {state : State}
    (ready : state.Open separator header.length) {row : List String}
    (misfit : row.length ≠ header.length) (number : Nat) (rows : List (List String)) :
    ((sendRows session model header number (row :: rows) state).replay exhausted
      replies).value.broken = some ⟨row.length, header.length⟩ := by
  rw [replay_sendRows_cons session model header exhausted ready.1]
  have broken := ready.settle_of_misfit separator session misfit number
    (replies.headD exhausted)
  exact (replay_sendRows_of_broken session model header exhausted broken _ _ _).1

/-- The rows before the first one of another width are sent as ever; this row makes the import
fail. -/
theorem replayImport_of_misfit {before : List (List String)} {bad : List String}
    (fit : ∀ row ∈ before, row.length = header.length) (misfit : bad.length ≠ header.length)
    (after : List (List String)) :
    let run := replayImport separator session model header (before ++ bad :: after) exhausted
      replies
    run.value.outcome = .error ⟨bad.length, header.length⟩ ∧
      before.filterMap (requestOf session model header) <+: run.sent := by
  intro run
  obtain ⟨state, ready, -, whole⟩ := replay_sendRows session model header exhausted
    (start_open separator header) fit 1 (bad :: after) replies
  have report : run =
      let ended := (sendRows session model header (1 + before.length) (bad :: after) state).replay
        exhausted (replies.drop (before.filterMap (requestOf session model header)).length)
      ⟨ended.value.report, before.filterMap (requestOf session model header) ++ ended.sent,
        ended.unused⟩ := by
    simp only [run, replayImport, importRows, Session.Dialogue.replay_map, whole]
  rw [report]
  constructor
  · dsimp only
    rw [State.report,
      replay_sendRows_of_misfit separator session model exhausted _ ready misfit]
  · exact List.prefix_append _ _

/-- An import fails exactly when a row has another width than the header, and then with the first
such row. -/
theorem outcome_eq_error_iff {rows : List (List String)} {mismatch : Table.WidthMismatch} :
    (replayImport separator session model header rows exhausted replies).value.outcome =
        .error mismatch ↔
      firstMisfit header rows = some mismatch := by
  have failing : ∀ other, firstMisfit header rows = some other →
      (replayImport separator session model header rows exhausted replies).value.outcome =
        .error other := by
    intro other first
    obtain ⟨before, bad, after, rfl, fit, misfit, rfl⟩ := firstMisfit_eq_some_iff.1 first
    exact (replayImport_of_misfit separator session model exhausted replies fit misfit after).1
  constructor
  · intro outcome
    cases first : firstMisfit header rows with
    | none =>
        have fit := firstMisfit_eq_none_iff.1 first
        have account := accounts_fates separator session model exhausted replies fit
        rw [account.outcome] at outcome
        cases outcome
    | some other =>
        rw [failing other first] at outcome
        cases outcome
        rfl
  · exact failing mismatch

end

/-! ## Misfits as rejected rows -/

/-- Rows of another width than the header are rejected rows like any other: the import accounts for
all rows, its error file holds the rejected ones, and the other rows are handled as if those of
another width were not there. -/
def RejectsMisfits (separator : Table.Separator) (session : Session) (model : String)
    (header : List String) (rows : List (List String)) (exhausted : Reply)
    (replies : List Reply) : Prop :=
  let run := replayImport separator session model header rows exhausted replies
  let fitting := rows.filter fun row => row.length == header.length
  let others := replayImport separator session model header fitting exhausted replies
  ∃ fates, Accounts separator session model header rows exhausted replies run fates ∧
    run.value.errors.text = String.ofList ((header :: undone rows fates).flatMap fun row =>
      Table.rowForm separator.char (Table.rowChars row)) ∧
    run.sent = others.sent ∧
    Accounts separator session model header fitting exhausted replies others
      (((rows.zip fates).filter fun settled => settled.1.length == header.length).map Prod.snd)

section

variable (separator : Table.Separator) (session : Session) (model : String)
  {header : List String} {rows : List (List String)} (exhausted : Reply) (replies : List Reply)

theorem rejectsMisfits_of_fit (fit : ∀ row ∈ rows, row.length = header.length) :
    RejectsMisfits separator session model header rows exhausted replies := by
  have account := accounts_fates separator session model exhausted replies fit
  have fitting : (rows.filter fun row => row.length == header.length) = rows := by
    rw [List.filter_eq_self]
    exact fun row member => beq_iff_eq.2 (fit row member)
  have settled : ((rows.zip (fates session model header exhausted rows replies)).filter
      fun settled => settled.1.length == header.length).map Prod.snd =
      fates session model header exhausted rows replies := by
    rw [List.filter_eq_self.2 fun settled member =>
      beq_iff_eq.2 (fit settled.1 (List.of_mem_zip member).1)]
    exact List.map_snd_zip (Nat.le_of_eq account.length)
  refine ⟨_, account, ?_, ?_, ?_⟩
  · rw [account.errors]
    exact Table.Writer.text_addRows_start separator (undone_fit fit _)
  · rw [fitting]
  · rw [fitting, settled]
    exact account

theorem fit_of_rejectsMisfits
    (rejects : RejectsMisfits separator session model header rows exhausted replies) :
    ∀ row ∈ rows, row.length = header.length := by
  obtain ⟨fates, account, -⟩ := rejects
  rw [← firstMisfit_eq_none_iff]
  cases first : firstMisfit header rows with
  | none => rfl
  | some mismatch =>
      have outcome := account.outcome
      rw [(outcome_eq_error_iff separator session model exhausted replies).2 first] at outcome
      cases outcome

end

/-- An import treats rows of another width as rejected rows only where there are none: otherwise it
fails as a whole, with the first such row. -/
theorem importRows_rejectsMisfits_iff (separator : Table.Separator) (session : Session)
    (model : String) (header : List String) (rows : List (List String)) (exhausted : Reply)
    (replies : List Reply) :
    (RejectsMisfits separator session model header rows exhausted replies ↔
        ∀ row ∈ rows, row.length = header.length) ∧
      ∀ mismatch,
        (replayImport separator session model header rows exhausted replies).value.outcome =
            .error mismatch ↔
          firstMisfit header rows = some mismatch := by
  constructor
  · constructor
    · exact fit_of_rejectsMisfits separator session model exhausted replies
    · exact rejectsMisfits_of_fit separator session model exhausted replies
  · intro mismatch
    exact outcome_eq_error_iff separator session model exhausted replies

/-- A row with one cell under two columns makes the whole import fail. -/
theorem not_rejectsMisfits_short_row :
    ¬ RejectsMisfits ⟨';', by decide⟩ plainSession "res.partner" ["id", "name"] [["5"]]
      (.error .post) [] := by
  rintro ⟨fates, account, -⟩
  have failed : (replayImport ⟨';', by decide⟩ plainSession "res.partner" ["id", "name"] [["5"]]
      (.error .post) []).value.outcome = .error ⟨1, 2⟩ := rfl
  have outcome := account.outcome
  rw [failed] at outcome
  cases outcome

end RemoteRecords.Import
