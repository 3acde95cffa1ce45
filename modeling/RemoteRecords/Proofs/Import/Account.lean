import Mathlib.Logic.Function.Iterate
import RemoteRecords.Import.Run
import RemoteRecords.Proofs.Except
import RemoteRecords.Proofs.Session.Script
import RemoteRecords.Proofs.Table.Written

/-!
# The account of an import

An accepted row posts one request and takes one reply, a rejected one goes to the error file.
`replay_sendRow` says what a single row does, `Settled` what it leaves behind, and `replay_sendRows`
follows any number of rows that have the width of the header. An import is then accounted for row by
row (`importRows_accounts`).
-/

namespace RemoteRecords.Import

open Session (Reply Request answer)

/-! ## One row -/

/-- The request of an action on behalf of the user `uid`. -/
def Action.request (session : Session) (uid : Int) (model : String) : Action → Request
  | .create record => session.executeRequest uid model "create" [.object record]
  | .update id record => session.executeRequest uid model "write" [.int id, .object record]

/-- What a reply makes of an action. -/
def Action.verdict (reply : Reply) : Action → Except Rejection Done
  | .create _ => createdOr ((answer reply).bind Session.numberOf)
  | .update id _ => updatedOr id ((answer reply).bind Session.flagOf)

/-- The request of a row. Only an accepted row has one, and only with a user. -/
def requestOf (session : Session) (model : String) (header row : List String) : Option Request :=
  session.uid.bind fun uid =>
    (plan header row).toOption.map fun action => action.request session uid model

/-- What becomes of a row when `reply` is the next one. -/
def verdict (session : Session) (header row : List String) (reply : Reply) :
    Except Rejection Done :=
  match plan header row with
  | .error error => .error (.plan error)
  | .ok action =>
      if session.uid.isSome then action.verdict reply else .error (.session .notLoggedIn)

section OneRow

variable (session : Session) (model : String) (header row : List String)

theorem replay_sendRow (exhausted : Reply) (replies : List Reply) :
    (sendRow session model header row).replay exhausted replies =
      let sent := (requestOf session model header row).toList
      ⟨verdict session header row (replies.headD exhausted), sent, replies.drop sent.length⟩ := by
  cases planned : plan header row with
  | error error =>
      have silent : requestOf session model header row = none := by
        cases user : session.uid <;> simp [requestOf, planned, user, Except.toOption]
      simp [sendRow, verdict, planned, silent, Session.Dialogue.replay]
  | ok action =>
      cases user : session.uid with
      | none =>
          have silent : requestOf session model header row = none := by
            simp [requestOf, user]
          cases action <;>
            simp [sendRow, verdict, planned, silent, user, Session.create, Session.update,
              Session.Dialogue.replay_map, Session.replay_execute_of_logged_out, createdOr,
              updatedOr]
      | some uid =>
          have posted : requestOf session model header row =
              some (action.request session uid model) := by
            simp [requestOf, planned, user, Except.toOption]
          cases action <;>
            simp [sendRow, verdict, planned, posted, user, Session.create, Session.update,
              Session.Dialogue.replay_map, Session.replay_execute_of_uid _ _ _ _ _ _ _ user,
              Action.verdict, Action.request]

variable {session header row}

theorem plan_of_width_ne (misfit : row.length ≠ header.length) :
    plan header row = .error (.width header.length row.length) :=
  if_pos misfit.symm

theorem createdOr_eq_ok_iff {reply : Reply} {done : Done} :
    createdOr ((answer reply).bind Session.numberOf) = .ok done ↔
      done = .created ∧ ∃ id, answer reply = .ok (.int id) ∧ Bounds.fits64 id = true ∧
        id ≠ newRecordId := by
  cases answered : answer reply with
  | error error => simp [createdOr, Except.bind]
  | ok result =>
      have number : (Except.ok result).bind Session.numberOf =
          .ok (result.asInt64?.getD newRecordId) := rfl
      rw [number, createdOr]
      cases read : result.asInt64? with
      | none =>
          constructor
          · intro succeeds
            cases succeeds
          · rintro ⟨-, id, same, fits, -⟩
            rw [Except.ok.inj same, Json.asInt64?, if_pos fits] at read
            cases read
      | some id =>
          obtain ⟨rfl, fits⟩ := Json.asInt64?_eq_some_iff.1 read
          by_cases fresh : id = newRecordId
          · simp [fresh]
          · simp [fresh, fits, eq_comm (a := done)]

theorem updatedOr_eq_ok_iff {id : Int} {reply : Reply} {done : Done} :
    updatedOr id ((answer reply).bind Session.flagOf) = .ok done ↔
      done = .updated ∧ answer reply = .ok (.bool true) := by
  cases answered : answer reply with
  | error error => simp [updatedOr, Except.bind]
  | ok result =>
      have flag : (Except.ok result).bind Session.flagOf =
          .ok (result.asBool?.getD false) := rfl
      rw [flag, updatedOr]
      cases result with
      | bool value => cases value <;> simp [Json.asBool?, eq_comm (a := done)]
      | _ => simp [Json.asBool?]

theorem verdict_eq_created_iff {reply : Reply} :
    verdict session header row reply = .ok .created ↔
      session.uid.isSome = true ∧ (∃ record, plan header row = .ok (.create record)) ∧
        ∃ id, answer reply = .ok (.int id) ∧ Bounds.fits64 id = true ∧ id ≠ newRecordId := by
  cases planned : plan header row with
  | error error => simp [verdict, planned]
  | ok action =>
      cases user : session.uid with
      | none => simp [verdict, planned, user]
      | some uid =>
          cases action <;>
            simp [verdict, planned, user, Action.verdict, createdOr_eq_ok_iff,
              updatedOr_eq_ok_iff]

theorem verdict_eq_updated_iff {reply : Reply} :
    verdict session header row reply = .ok .updated ↔
      session.uid.isSome = true ∧ (∃ id record, plan header row = .ok (.update id record)) ∧
        answer reply = .ok (.bool true) := by
  cases planned : plan header row with
  | error error => simp [verdict, planned]
  | ok action =>
      cases user : session.uid with
      | none => simp [verdict, planned, user]
      | some uid =>
          cases action <;>
            simp [verdict, planned, user, Action.verdict, createdOr_eq_ok_iff,
              updatedOr_eq_ok_iff]

theorem filterMap_requestOf_cons (rows : List (List String)) :
    (row :: rows).filterMap (requestOf session model header) =
      (requestOf session model header row).toList ++
        rows.filterMap (requestOf session model header) := by
  cases posted : requestOf session model header row <;> simp [posted]

end OneRow

/-! ## The ends of rows -/

/-- What has been done with rows, in order; a row that posts takes one reply. -/
def fates (session : Session) (model : String) (header : List String) (exhausted : Reply) :
    List (List String) → List Reply → List (Option Done)
  | [], _ => []
  | row :: rows, replies =>
      (verdict session header row (replies.headD exhausted)).toOption ::
        fates session model header exhausted rows
          (replies.drop (requestOf session model header row).toList.length)

/-- The rows with which nothing has been done, in order. -/
def undone (rows : List (List String)) (fates : List (Option Done)) : List (List String) :=
  ((rows.zip fates).filter fun settled => settled.2.isNone).map Prod.fst

theorem undone_cons (row : List String) (rows : List (List String)) (fate : Option Done)
    (fates : List (Option Done)) :
    undone (row :: rows) (fate :: fates) =
      if fate.isNone then row :: undone rows fates else undone rows fates := by
  cases fate <;> rfl

theorem undone_sublist (rows : List (List String)) (fates : List (Option Done)) :
    (undone rows fates).Sublist rows := by
  induction rows generalizing fates with
  | nil => exact List.Sublist.refl _
  | cons row rows inductionHypothesis =>
      cases fates with
      | nil => exact List.nil_sublist _
      | cons fate fates =>
          cases fate with
          | none => exact (inductionHypothesis fates).cons_cons row
          | some done => exact (inductionHypothesis fates).cons row

theorem undone_fit {rows : List (List String)} {width : Nat}
    (fit : ∀ row ∈ rows, row.length = width) (fates : List (Option Done)) :
    ∀ row ∈ undone rows fates, row.length = width := by
  intro row member
  exact fit row ((undone_sublist rows fates).mem member)

section Fates

variable (session : Session) (model : String) (header : List String) (exhausted : Reply)

/-- The reply that a row gets when it posts: every row before it that posts takes one. -/
def replyTo (rows : List (List String)) (replies : List Reply) (index : Nat) : Reply :=
  replies.getD ((rows.take index).filterMap (requestOf session model header)).length exhausted

theorem length_fates (rows : List (List String)) (replies : List Reply) :
    (fates session model header exhausted rows replies).length = rows.length := by
  induction rows generalizing replies with
  | nil => rfl
  | cons row rows inductionHypothesis =>
      rw [fates, List.length_cons, inductionHypothesis, List.length_cons]

theorem getElem?_fates {rows : List (List String)} {index : Nat}
    (inRange : index < rows.length) (replies : List Reply) :
    (fates session model header exhausted rows replies)[index]? =
      some (verdict session header rows[index]
        (replyTo session model header exhausted rows replies index)).toOption := by
  induction rows generalizing index replies with
  | nil => exact absurd inRange (Nat.not_lt_zero _)
  | cons row rows inductionHypothesis =>
      cases index with
      | zero =>
          rw [fates, List.getElem?_cons_zero, replyTo, List.headD_eq_getD]
          rfl
      | succ index =>
          have behind : index < rows.length := Nat.lt_of_succ_lt_succ inRange
          have reply : replyTo session model header exhausted rows
              (replies.drop (requestOf session model header row).toList.length) index =
              replyTo session model header exhausted (row :: rows) replies (index + 1) := by
            rw [replyTo, replyTo, List.getD_eq_getElem?_getD, List.getD_eq_getElem?_getD,
              List.getElem?_drop, List.take_succ_cons, filterMap_requestOf_cons,
              List.length_append]
          rw [fates, List.getElem?_cons_succ, inductionHypothesis behind, reply]
          rfl

end Fates

/-! ## All rows -/

/-- The state behind a row. -/
def State.settle (state : State) (number : Nat) (row : List String) :
    Except Rejection Done → State
  | .ok done => state.accept done
  | .error reason => state.reject ⟨number, reason⟩ row

/-- The error file stands at the start of a row of the given width. -/
def State.Open (separator : Table.Separator) (width : Nat) (state : State) : Prop :=
  state.broken = none ∧ ∃ text, state.errors = .atRowStart separator width text

/-- What rows have changed when they have come to their ends. -/
structure Settled (before after : State) (rows : List (List String))
    (fates : List (Option Done)) : Prop where
  created : after.created = before.created + fates.count (some .created)
  updated : after.updated = before.updated + fates.count (some .updated)
  failed : after.failed = before.failed + fates.count none
  errors : after.errors = before.errors.addRows (undone rows fates)
  progress : after.progress = (·.advance 1)^[rows.length] before.progress

theorem Settled.refl (state : State) : Settled state state [] [] :=
  ⟨rfl, rfl, rfl, rfl, rfl⟩

theorem Settled.cons {before middle after : State} {row : List String}
    {rows : List (List String)} {fate : Option Done} {fates : List (Option Done)}
    (first : Settled before middle [row] [fate]) (later : Settled middle after rows fates) :
    Settled before after (row :: rows) (fate :: fates) := by
  refine ⟨?_, ?_, ?_, ?_, ?_⟩
  · rw [later.created, first.created, List.count_cons, List.count_cons, List.count_nil]
    omega
  · rw [later.updated, first.updated, List.count_cons, List.count_cons, List.count_nil]
    omega
  · rw [later.failed, first.failed, List.count_cons, List.count_cons, List.count_nil]
    omega
  · rw [later.errors, first.errors]
    cases fate <;> rfl
  · rw [later.progress, first.progress]
    rfl

theorem State.Open.settle {separator : Table.Separator} {width : Nat} {state : State}
    (ready : state.Open separator width)
    {row : List String} (fits : row.length = width) (number : Nat)
    (verdict : Except Rejection Done) :
    (state.settle number row verdict).Open separator width ∧
      Settled state (state.settle number row verdict) [row] [verdict.toOption] := by
  obtain ⟨unbroken, text, errors⟩ := ready
  cases verdict with
  | ok done =>
      cases done with
      | created => exact ⟨⟨unbroken, text, errors⟩, ⟨rfl, rfl, rfl, rfl, rfl⟩⟩
      | updated => exact ⟨⟨unbroken, text, errors⟩, ⟨rfl, rfl, rfl, rfl, rfl⟩⟩
  | error reason =>
      have taken : state.errors.addRow row = (.ok (), .atRowStart separator width
          (text ++ String.ofList (Table.rowForm separator.char (Table.rowChars row)))) := by
        rw [errors, Table.Writer.addRow_atRowStart separator text fits]
      have rejected : state.reject ⟨number, reason⟩ row =
          { state with
            failed := state.failed + 1
            errors := (state.errors.addRow row).2
            progress := state.progress.advance 1
            warnings := state.warnings ++ [⟨number, reason⟩] } := by
        rw [State.reject, taken]
      rw [State.settle, rejected]
      exact ⟨⟨unbroken, _, congrArg Prod.snd taken⟩, ⟨rfl, rfl, rfl, rfl, rfl⟩⟩

section Run

variable {separator : Table.Separator} (session : Session) (model : String)
  (header : List String) (exhausted : Reply)

theorem replay_sendRows_cons {state : State} (unbroken : state.broken = none) (number : Nat)
    (row : List String) (rows : List (List String)) (replies : List Reply) :
    (sendRows session model header number (row :: rows) state).replay exhausted replies =
      let sent := (requestOf session model header row).toList
      let settled := state.settle number row (verdict session header row (replies.headD exhausted))
      let ended := (sendRows session model header (number + 1) rows settled).replay exhausted
        (replies.drop sent.length)
      ⟨ended.value, sent ++ ended.sent, ended.unused⟩ := by
  rw [sendRows, Session.Dialogue.replay_bind, replay_sendRow]
  cases verdict session header row (replies.headD exhausted) with
  | ok done => rfl
  | error reason => simp only [unbroken, Option.isSome_none, State.settle]; rfl

/-- Rows of the width of the header come to their ends, and the import goes on behind them. -/
theorem replay_sendRows {state : State} (ready : state.Open separator header.length)
    {rows : List (List String)} (fit : ∀ row ∈ rows, row.length = header.length)
    (number : Nat) (rest : List (List String)) (replies : List Reply) :
    ∃ after, after.Open separator header.length ∧
      Settled state after rows (fates session model header exhausted rows replies) ∧
      (sendRows session model header number (rows ++ rest) state).replay exhausted replies =
        let sent := rows.filterMap (requestOf session model header)
        let ended := (sendRows session model header (number + rows.length) rest after).replay
          exhausted (replies.drop sent.length)
        ⟨ended.value, sent ++ ended.sent, ended.unused⟩ := by
  -- What carries the induction is that the error file stands at the start of a row.
  induction rows generalizing state number replies with
  | nil => exact ⟨state, ready, Settled.refl state, rfl⟩
  | cons row rows inductionHypothesis =>
      have rowFits : row.length = header.length := fit row List.mem_cons_self
      have rowsFit : ∀ other ∈ rows, other.length = header.length :=
        fun other member => fit other (List.mem_cons_of_mem _ member)
      obtain ⟨readyNext, settled⟩ := ready.settle rowFits number
        (verdict session header row (replies.headD exhausted))
      obtain ⟨after, readyAfter, settledLater, run⟩ := inductionHypothesis readyNext rowsFit
        (number + 1) (replies.drop (requestOf session model header row).toList.length)
      refine ⟨after, readyAfter, settled.cons settledLater, ?_⟩
      have last : number + (row :: rows).length = number + 1 + rows.length := by
        rw [List.length_cons]
        omega
      rw [List.cons_append, replay_sendRows_cons session model header exhausted ready.1]
      dsimp only
      rw [run, filterMap_requestOf_cons, last]
      simp [List.drop_drop]

theorem replay_sendRows_of_broken {state : State} {mismatch : Table.WidthMismatch}
    (broken : state.broken = some mismatch) (number : Nat) (rows : List (List String))
    (replies : List Reply) :
    let ended := (sendRows session model header number rows state).replay exhausted replies
    ended.value.broken = some mismatch ∧ ended.value.errors = state.errors := by
  induction rows generalizing state number replies with
  | nil => exact ⟨broken, rfl⟩
  | cons row rows inductionHypothesis =>
      rw [sendRows, Session.Dialogue.replay_bind, replay_sendRow]
      cases verdict session header row (replies.headD exhausted) with
      | ok done =>
          cases done with
          | created =>
              have stays : (state.accept .created).broken = some mismatch := broken
              exact inductionHypothesis stays _ _
          | updated =>
              have stays : (state.accept .updated).broken = some mismatch := broken
              exact inductionHypothesis stays _ _
      | error reason =>
          simp only [broken, Option.isSome_some]
          exact ⟨rfl, rfl⟩

end Run

/-! ## Whole imports -/

/-- An import whose error file holds the header alone, against a script of replies. -/
def replayImport (separator : Table.Separator) (session : Session) (model : String)
    (header : List String) (rows : List (List String)) (exhausted : Reply)
    (replies : List Reply) : Session.Dialogue.Replay Report :=
  (importRows session model header rows (.start separator header)).replay exhausted replies

/-- The import `run` has brought every row to its end. -/
structure Accounts (separator : Table.Separator) (session : Session) (model : String)
    (header : List String) (rows : List (List String)) (exhausted : Reply)
    (replies : List Reply) (run : Session.Dialogue.Replay Report)
    (fates : List (Option Done)) : Prop where
  length : fates.length = rows.length
  outcome : run.value.outcome =
    .ok ⟨fates.count (some .created), fates.count (some .updated), fates.count none⟩
  total : fates.count (some .created) + fates.count (some .updated) + fates.count none =
    rows.length
  sent : run.sent = rows.filterMap (requestOf session model header)
  unused : run.unused = replies.drop run.sent.length
  created : ∀ index (inRange : index < rows.length),
    fates[index]? = some (some .created) ↔
      session.uid.isSome = true ∧ (∃ record, plan header rows[index] = .ok (.create record)) ∧
        ∃ id, answer (replyTo session model header exhausted rows replies index) =
          .ok (.int id) ∧ Bounds.fits64 id = true ∧ id ≠ newRecordId
  updated : ∀ index (inRange : index < rows.length),
    fates[index]? = some (some .updated) ↔
      session.uid.isSome = true ∧
        (∃ id record, plan header rows[index] = .ok (.update id record)) ∧
        answer (replyTo session model header exhausted rows replies index) = .ok (.bool true)
  errors : run.value.errors =
    (Table.Writer.start separator header).addRows (undone rows fates)

theorem start_open (separator : Table.Separator) (header : List String) :
    (start (.start separator header)).Open separator header.length :=
  ⟨rfl, _, Table.Writer.start_eq separator header⟩

theorem count_fates (fates : List (Option Done)) :
    fates.count (some .created) + fates.count (some .updated) + fates.count none =
      fates.length := by
  induction fates with
  | nil => rfl
  | cons fate fates inductionHypothesis =>
      rcases fate with _ | _ | _ <;> simp <;> omega

/-- A session of the user 1 with the default connection. -/
def plainSession : Session := ⟨.default, "http://localhost:8069/jsonrpc", some 1⟩

/-- A reply that holds a result. -/
def replyWith (result : Json) : Reply := .ok (.object [("result", result)])

section Whole

variable (separator : Table.Separator) (session : Session) (model : String)
  {header : List String} {rows : List (List String)} (exhausted : Reply) (replies : List Reply)

/-- All rows come to their ends, and the report is that of the state behind them. -/
theorem replayImport_of_fit (fit : ∀ row ∈ rows, row.length = header.length) :
    ∃ after,
      Settled (start (.start separator header)) after rows
        (fates session model header exhausted rows replies) ∧
      after.report = ⟨.ok ⟨after.created, after.updated, after.failed⟩, after.errors,
        after.progress.finish, after.warnings⟩ ∧
      replayImport separator session model header rows exhausted replies =
        ⟨after.report, rows.filterMap (requestOf session model header),
          replies.drop (rows.filterMap (requestOf session model header)).length⟩ := by
  obtain ⟨after, ⟨unbroken, -⟩, settled, run⟩ := replay_sendRows session model header exhausted
    (start_open separator header) fit 1 [] replies
  refine ⟨after, settled, ?_, ?_⟩
  · rw [State.report, unbroken]
  · rw [List.append_nil] at run
    rw [replayImport, importRows, Session.Dialogue.replay_map, run]
    simp [sendRows, Session.Dialogue.replay]

theorem accounts_fates (fit : ∀ row ∈ rows, row.length = header.length) :
    Accounts separator session model header rows exhausted replies
      (replayImport separator session model header rows exhausted replies)
      (fates session model header exhausted rows replies) := by
  obtain ⟨after, settled, report, whole⟩ :=
    replayImport_of_fit separator session model exhausted replies fit
  have length := length_fates session model header exhausted rows replies
  refine ⟨length, ?_, ?_, ?_, ?_, ?_, ?_, ?_⟩
  · rw [whole, report, settled.created, settled.updated, settled.failed]
    simp [start]
  · rw [count_fates, length]
  · rw [whole]
  · rw [whole]
  · intro index inRange
    rw [getElem?_fates session model header exhausted inRange, Option.some.injEq,
      toOption_eq_some_iff, verdict_eq_created_iff]
  · intro index inRange
    rw [getElem?_fates session model header exhausted inRange, Option.some.injEq,
      toOption_eq_some_iff, verdict_eq_updated_iff]
  · rw [whole, report, settled.errors]
    rfl

theorem filterMap_requestOf {uid : Int} (loggedIn : session.uid = some uid) :
    rows.filterMap (requestOf session model header) =
      (rows.filterMap fun row => (plan header row).toOption).map
        (Action.request session uid model) := by
  rw [List.map_filterMap]
  congr 1
  funext row
  rw [requestOf, loggedIn]
  rfl

theorem requestOf_of_logged_out (loggedOut : session.uid = none) (row : List String) :
    requestOf session model header row = none := by
  rw [requestOf, loggedOut]
  rfl

theorem fates_of_logged_out (loggedOut : session.uid = none) :
    fates session model header exhausted rows replies = List.replicate rows.length none := by
  induction rows generalizing replies with
  | nil => rfl
  | cons row rows inductionHypothesis =>
      have rejected : (verdict session header row (replies.headD exhausted)).toOption = none := by
        rw [verdict, loggedOut]
        cases plan header row <;> rfl
      rw [fates, rejected, inductionHypothesis]
      rfl

theorem undone_replicate_none : undone rows (List.replicate rows.length none) = rows := by
  induction rows with
  | nil => rfl
  | cons row rows inductionHypothesis =>
      rw [List.length_cons, List.replicate_succ, undone_cons, inductionHypothesis]
      rfl

/-- An import of rows that have the width of the header accounts for each of them. With a user it
posts the accepted rows in order, and each is created or updated exactly when its reply says so;
without a user it posts nothing and rejects every row. -/
theorem importRows_accounts (fit : ∀ row ∈ rows, row.length = header.length) :
    let run := replayImport separator session model header rows exhausted replies
    (∃ fates, Accounts separator session model header rows exhausted replies run fates) ∧
      (∀ uid, session.uid = some uid →
        run.sent = (rows.filterMap fun row => (plan header row).toOption).map
          (Action.request session uid model)) ∧
      (session.uid = none →
        run.sent = [] ∧ run.unused = replies ∧ run.value.outcome = .ok ⟨0, 0, rows.length⟩ ∧
          run.value.errors = (Table.Writer.start separator header).addRows rows) := by
  intro run
  have account := accounts_fates separator session model exhausted replies fit
  refine ⟨⟨_, account⟩, ?_, ?_⟩
  · intro uid loggedIn
    rw [← filterMap_requestOf session model loggedIn]
    exact account.sent
  · intro loggedOut
    have silent : run.sent = [] := by
      rw [account.sent, List.filterMap_eq_nil_iff]
      exact fun row _ => requestOf_of_logged_out session model loggedOut row
    have outcome := account.outcome
    have errors := account.errors
    rw [fates_of_logged_out session model exhausted replies loggedOut] at outcome errors
    refine ⟨silent, ?_, ?_, ?_⟩
    · have unused : run.unused = replies.drop run.sent.length := account.unused
      rw [unused, silent]
      rfl
    · simpa [List.count_replicate] using outcome
    · rw [undone_replicate_none] at errors
      exact errors

end Whole

theorem importRows_accounts_three_ends :
    let header := ["id", "name"]
    let rows := [["-1", "Azure"], ["7", "Deco"], ["x", "Gemini"]]
    let replies := [replyWith (.int 30), replyWith (.bool true)]
    let run := replayImport .comma plainSession "res.partner" header rows (.error .post) replies
    (∀ row ∈ rows, row.length = header.length) ∧
      (∃ fates, Accounts .comma plainSession "res.partner" header rows (.error .post) replies run
        fates) ∧
      run.value.outcome = .ok ⟨1, 1, 1⟩ ∧
      run.value.errors.bytes = .ofText "id,name\nx,Gemini\n" ∧
      run.sent.map (fun request => Json.compact (.array request.args)) =
        ["[\"odoo\",1,\"admin\",\"res.partner\",\"create\",\x7b\"name\":\"Azure\"\x7d]",
          "[\"odoo\",1,\"admin\",\"res.partner\",\"write\",7,\x7b\"name\":\"Deco\"\x7d]"] := by
  intro header rows replies run
  have fit : ∀ row ∈ rows, row.length = header.length := by decide
  have account := importRows_accounts .comma plainSession "res.partner" (.error .post) replies fit
  refine ⟨fit, account.1, rfl, ?_, ?_⟩
  · decide +kernel
  · decide +kernel

end RemoteRecords.Import
