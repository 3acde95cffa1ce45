import RemoteRecords.Import.Workers
import RemoteRecords.Proofs.Import.Account
import RemoteRecords.Proofs.Rearranged

/-!
# Imports on several workers

Every row is at one place at any time: with a worker, in the queue, or done with. `Accounted` says
where all rows are, each move preserves it (`Accounted.step`), and so does every schedule
(`Accounted.follow`). Two lists of it agree up to order, and with one worker they are equal.
-/

namespace RemoteRecords.Import

open Session (Reply Request)

/-! ## What a worker has in hand -/

section Places

variable {α : Type} (f : Worker → List α) {workers : List Worker} {place : Nat} {worker : Worker}
  (found : workers[place]? = some worker)

include found

theorem exists_around :
    ∃ before behind, workers.flatMap f = before ++ (f worker ++ behind) ∧
      (∀ other, (workers.set place other).flatMap f = before ++ (f other ++ behind)) ∧
      (workers.length = 1 → before = [] ∧ behind = []) := by
  induction workers generalizing place with
  | nil => cases found
  | cons first rest inductionHypothesis =>
      cases place with
      | zero =>
          cases found
          refine ⟨[], rest.flatMap f, List.flatMap_cons, fun _ => List.flatMap_cons, fun one => ?_⟩
          rw [List.eq_nil_of_length_eq_zero (Nat.succ.inj one)]
          exact ⟨rfl, rfl⟩
      | succ place =>
          obtain ⟨before, behind, whole, exchanged, -⟩ := inductionHypothesis found
          refine ⟨f first ++ before, behind, ?_, fun other => ?_, fun one => ?_⟩
          · rw [List.flatMap_cons, whole, List.append_assoc]
          · rw [List.set_cons_succ, List.flatMap_cons, exchanged, List.append_assoc]
          · rw [List.eq_nil_of_length_eq_zero (Nat.succ.inj one)] at found
            cases found

theorem flatMap_set_of_eq (other : Worker) (same : f other = f worker) :
    (workers.set place other).flatMap f = workers.flatMap f := by
  obtain ⟨before, behind, whole, exchanged, -⟩ := exists_around f found
  rw [exchanged, same, whole]

theorem length_flatMap_set (other : Worker) :
    ((workers.set place other).flatMap f).length + (f worker).length =
      (workers.flatMap f).length + (f other).length := by
  obtain ⟨before, behind, whole, exchanged, -⟩ := exists_around f found
  simp only [whole, exchanged, List.length_append]
  omega

variable {alone : Prop} (single : alone → workers.length = 1)

include single

/-- What a worker gets rid of comes first when it is alone. -/
theorem rearranged_set_of_loss (other : Worker) (moved : List α)
    (loses : f worker = moved ++ f other) :
    Rearranged alone (workers.flatMap f) (moved ++ (workers.set place other).flatMap f) := by
  obtain ⟨before, behind, whole, exchanged, alone⟩ := exists_around f found
  rw [whole, exchanged, loses]
  refine ⟨?_, fun one => ?_⟩
  · have shifted := List.perm_append_comm_assoc before moved (f other ++ behind)
    rwa [List.append_assoc]
  · rw [(alone (single one)).1, List.nil_append, List.nil_append, List.append_assoc]

/-- What a worker gets comes last when it is alone. -/
theorem rearranged_set_of_gain (other : Worker) {added : List α}
    (gains : f other = f worker ++ added) :
    Rearranged alone ((workers.set place other).flatMap f) (workers.flatMap f ++ added) := by
  obtain ⟨before, behind, whole, exchanged, alone⟩ := exists_around f found
  rw [whole, exchanged, gains]
  refine ⟨?_, fun one => ?_⟩
  · rw [List.append_assoc, List.append_assoc, List.append_assoc]
    exact .append_left before (.append_left (f worker) List.perm_append_comm)
  · rw [(alone (single one)).2, List.append_nil, List.append_nil, List.append_assoc]

/-- So does the end of what it had. -/
theorem rearranged_set_of_end (other : Worker) {dropped : List α}
    (drops : f worker = f other ++ dropped) :
    Rearranged alone (workers.flatMap f) ((workers.set place other).flatMap f ++ dropped) := by
  obtain ⟨inRange, held⟩ := List.getElem?_eq_some_iff.1 found
  have there : (workers.set place other)[place]? = some other := List.getElem?_set_self inRange
  have back : (workers.set place other).set place worker = workers := by
    rw [List.set_set, ← held, List.set_getElem_self]
  have gained := rearranged_set_of_gain f there
    (fun one => List.length_set.trans (single one)) worker drops
  rwa [back] at gained

end Places

/-- The row that an activity is to send, if any. -/
def Activity.unsent : Activity → List Numbered
  | .begun item => [item]
  | _ => []

/-- A row with its result. -/
abbrev Result := Numbered × Except Rejection Done

/-- The row whose result is to be seen, if any. -/
def Activity.unseen : Activity → List Result
  | .sending item result => [(item, result)]
  | _ => []

/-- The row that is to go to the error file, if any. -/
def Activity.handed : Activity → List (List String)
  | .handing row => [row]
  | _ => []

namespace Worker

/-- The rows that a worker has still to send. -/
def unsent (worker : Worker) : List Numbered := worker.activity.unsent ++ worker.share

def unseen (worker : Worker) : List Result := worker.activity.unseen

def handed (worker : Worker) : List (List String) := worker.activity.handed

end Worker

namespace Pool

def unsent (pool : Pool) : List Numbered := pool.workers.flatMap Worker.unsent

def unseen (pool : Pool) : List Result := pool.workers.flatMap Worker.unseen

def handed (pool : Pool) : List (List String) := pool.workers.flatMap Worker.handed

end Pool

/-! ## Moves -/

/-- What each possible move finds and what it leaves behind. -/
inductive Stepped (job : Job) (pool : Pool) : Move → Pool → Prop where
  | steal {thief victim kept : Nat} {share rest : List Numbered} {item : Numbered}
      {activity : Activity} (poor : pool.workers[thief]? = some ⟨[], .idle⟩)
      (rich : pool.workers[victim]? = some ⟨share, activity⟩)
      (behind : share.drop kept = item :: rest) :
      Stepped job pool (.steal thief victim kept)
        ((pool.assign victim ⟨share.take kept, activity⟩).assign thief ⟨rest, .begun item⟩)
  | pick {place : Nat} {share : List Numbered} {item : Numbered}
      (here : pool.workers[place]? = some ⟨item :: share, .idle⟩) :
      Stepped job pool (.pick place) (pool.assign place ⟨share, .begun item⟩)
  | send {place : Nat} {share : List Numbered} {item : Numbered}
      (here : pool.workers[place]? = some ⟨share, .begun item⟩)
      (sent : List Request)
      (posted : sent = (requestOf job.session job.model job.header item.row).toList)
      (result : Except Rejection Done)
      (verdict : verdict job.session job.header item.row
        (pool.replies.headD job.exhausted) = result) :
      Stepped job pool (.send place)
        { pool.assign place ⟨share, .sending item result⟩ with
          replies := pool.replies.drop sent.length, sent := pool.sent ++ sent }
  | see {place : Nat} {share : List Numbered} {item : Numbered} {result : Except Rejection Done}
      (here : pool.workers[place]? = some ⟨share, .sending item result⟩) :
      Stepped job pool (.see place) (pool.settle place share item result)
  | hand {place : Nat} {share : List Numbered} {row : List String}
      (here : pool.workers[place]? = some ⟨share, .handing row⟩) (whole : pool.broken = none)
      (room : pool.queue.length < queueBound) :
      Stepped job pool (.hand place)
        { pool.assign place ⟨share, .counting⟩ with queue := pool.queue ++ [row] }
  | giveUp {place : Nat} {share : List Numbered} {row : List String}
      (here : pool.workers[place]? = some ⟨share, .handing row⟩)
      (broken : pool.broken.isSome = true) :
      Stepped job pool (.hand place) { pool.assign place ⟨[], .idle⟩ with stopped := true }
  | count {place : Nat} {share : List Numbered}
      (here : pool.workers[place]? = some ⟨share, .counting⟩) :
      Stepped job pool (.count place)
        { pool.assign place ⟨share, if pool.progress.passes 1 then
            .showing (pool.progress.add 1).count else .idle⟩ with
          progress := pool.progress.add 1 }
  | display {place count : Nat} {share : List Numbered}
      (here : pool.workers[place]? = some ⟨share, .showing count⟩) :
      Stepped job pool (.display place)
        { pool.assign place ⟨share, .idle⟩ with progress := pool.progress.display count }
  | quit {place : Nat} {share : List Numbered} {item : Numbered}
      (here : pool.workers[place]? = some ⟨item :: share, .idle⟩)
      (stopped : pool.stopped = true) :
      Stepped job pool (.quit place) (pool.assign place ⟨[], .idle⟩)
  | write {row : List String} {queue : List (List String)} {errors : Table.Writer}
      (whole : pool.broken = none) (waiting : pool.queue = row :: queue)
      (taken : pool.errors.addRow row = (.ok (), errors)) :
      Stepped job pool .write { pool with queue, errors, failed := pool.failed + 1 }
  | misfit {row : List String} {queue : List (List String)} {mismatch : Table.WidthMismatch}
      {errors : Table.Writer} (whole : pool.broken = none) (waiting : pool.queue = row :: queue)
      (refused : pool.errors.addRow row = (.error mismatch, errors)) :
      Stepped job pool .write
        { pool with queue := [], errors, broken := some (.width mismatch) }
  | refuse {row : List String} {queue : List (List String)} (fault : WriteFault Bytes)
      (whole : pool.broken = none) (waiting : pool.queue = row :: queue) :
      Stepped job pool (.refuse fault) { pool with queue := [], broken := some (.fault fault) }

theorem stepped_of_step {job : Job} {pool next : Pool} {move : Move}
    (stepped : pool.step job move = some next) : Stepped job pool move next := by
  cases move with
  | steal thief victim kept =>
      rw [Pool.step, Pool.steal] at stepped
      split at stepped
      · next share activity poor rich =>
          split at stepped
          · next item rest behind =>
              cases stepped
              exact .steal poor rich behind
          · cases stepped
      · cases stepped
  | pick place =>
      rw [Pool.step, Pool.pick] at stepped
      split at stepped
      · next item share here =>
          cases stepped
          exact .pick here
      · cases stepped
  | send place =>
      rw [Pool.step, Pool.send] at stepped
      split at stepped
      · next share item here =>
          rw [replay_sendRow] at stepped
          cases stepped
          exact .send here _ rfl _ rfl
      · cases stepped
  | see place =>
      rw [Pool.step, Pool.see] at stepped
      split at stepped
      · next share item result here =>
          cases stepped
          exact .see here
      · cases stepped
  | hand place =>
      rw [Pool.step, Pool.hand] at stepped
      split at stepped
      · next share row here =>
          split at stepped
          · next broken =>
              cases stepped
              exact .giveUp here broken
          · next whole =>
              split at stepped
              · next room =>
                  cases stepped
                  exact .hand here (Option.not_isSome_iff_eq_none.1 whole) room
              · cases stepped
      · cases stepped
  | count place =>
      rw [Pool.step, Pool.count] at stepped
      split at stepped
      · next share here =>
          cases stepped
          exact .count here
      · cases stepped
  | display place =>
      rw [Pool.step, Pool.display] at stepped
      split at stepped
      · next share count here =>
          cases stepped
          exact .display here
      · cases stepped
  | quit place =>
      rw [Pool.step, Pool.quit] at stepped
      split at stepped
      · next item share here =>
          split at stepped
          · next halted =>
              cases stepped
              exact .quit here halted
          · cases stepped
      · cases stepped
  | write =>
      rw [Pool.step, Pool.write] at stepped
      split at stepped
      · next row queue whole waiting =>
          split at stepped
          · next errors taken =>
              cases stepped
              exact .write whole waiting taken
          · next mismatch errors refused =>
              cases stepped
              exact .misfit whole waiting refused
      · cases stepped
  | refuse fault =>
      rw [Pool.step, Pool.refuse] at stepped
      split at stepped
      · next row queue whole waiting =>
          cases stepped
          exact .refuse fault whole waiting
      · cases stepped

/-- Nobody takes over its own rows, so the one that does has still nothing when they are gone. -/
theorem poor_of_steal {pool : Pool} {thief victim kept : Nat} {share rest : List Numbered}
    {item : Numbered} {activity : Activity} (poor : pool.workers[thief]? = some ⟨[], .idle⟩)
    (rich : pool.workers[victim]? = some ⟨share, activity⟩)
    (behind : share.drop kept = item :: rest) :
    (pool.assign victim ⟨share.take kept, activity⟩).workers[thief]? = some ⟨[], .idle⟩ := by
  have other : victim ≠ thief := by
    rintro rfl
    cases rich.symm.trans poor
    cases List.drop_nil.symm.trans behind
  exact (List.getElem?_set_ne other).trans poor

/-! ## Where the rows are -/

/-- What has happened to rows up to now, each list in the order in which it has happened. -/
structure History where
  taken : List Result
  seen : List Result
  written : List (List String)
  /-- Rejected rows that the error file has not got. -/
  lost : List (List String)
  /-- Rows that nobody will send. -/
  left : List Numbered

/-- The rows that results belong to. -/
def rowsOf (results : List Result) : List (List String) := results.map fun result => result.1.row

theorem rowsOf_concat (results : List Result) (result : Result) :
    rowsOf (results ++ [result]) = rowsOf results ++ [result.1.row] := List.map_append

/-- The row of a result, if it is rejected. -/
def rejectedRow : Result → Option (List String)
  | (item, .error _) => some item.row
  | (_, .ok _) => none

/-- The warning for a result, if its row is rejected. -/
def warningOf : Result → Option Warning
  | (item, .error reason) => some ⟨item.number, reason⟩
  | (_, .ok _) => none

/-- Every row is accounted for. The lists agree up to order; with one worker they are equal. -/
structure Accounted (alone : Prop) (job : Job) (separator : Table.Separator)
    (rows : List (List String)) (replies : List Reply) (pool : Pool) (history : History) :
    Prop where
  single : alone → pool.workers.length = 1
  rows : Rearranged alone (history.taken.map Prod.fst ++ (pool.unsent ++ history.left))
    (numberedFrom 1 rows)
  fates : history.taken.map (fun result => result.2.toOption) =
    fates job.session job.model job.header job.exhausted (rowsOf history.taken) replies
  sent : pool.sent =
    (rowsOf history.taken).filterMap (requestOf job.session job.model job.header)
  unused : pool.replies = replies.drop pool.sent.length
  results : Rearranged alone (history.seen ++ pool.unseen) history.taken
  created : pool.created =
    (history.seen.map fun result => result.2.toOption).count (some .created)
  updated : pool.updated =
    (history.seen.map fun result => result.2.toOption).count (some .updated)
  warnings : pool.warnings = history.seen.filterMap warningOf
  rejected : Rearranged alone (history.written ++ (history.lost ++ (pool.queue ++ pool.handed)))
    (history.seen.filterMap rejectedRow)
  whole : pool.broken = none → pool.stopped = false ∧ history.left = [] ∧ history.lost = [] ∧
    pool.failed = history.written.length ∧
    pool.errors = (Table.Writer.start separator job.header).addRows history.written
  broken : pool.broken.isSome = true → pool.queue = [] ∧ history.lost ≠ []

section Fates

theorem filterMap_concat {α β : Type} (f : α → Option β) (items : List α) (item : α) :
    (items ++ [item]).filterMap f = items.filterMap f ++ (f item).toList := by
  rw [List.filterMap_append, List.filterMap_cons]
  cases f item <;> rfl

variable (session : Session) (model : String) (header : List String) (exhausted : Reply)

/-- The fate of one more row: its reply is the next one. -/
theorem fates_concat (rows : List (List String)) (row : List String) (replies : List Reply) :
    fates session model header exhausted (rows ++ [row]) replies =
      fates session model header exhausted rows replies ++
        [(verdict session header row ((replies.drop (rows.filterMap
          (requestOf session model header)).length).headD exhausted)).toOption] := by
  induction rows generalizing replies with
  | nil => rfl
  | cons first rows inductionHypothesis =>
      rw [List.cons_append, fates, inductionHypothesis, fates, List.drop_drop,
        filterMap_requestOf_cons, List.length_append, List.cons_append]

end Fates

section Moves

variable {alone : Prop} {job : Job} {separator : Table.Separator} {rows : List (List String)}
  {replies : List Reply} {pool : Pool} {history : History}
  (accounted : Accounted alone job separator rows replies pool history)

include accounted

/-- A worker that only goes over to its next activity with a row changes nothing. -/
theorem Accounted.assign {place : Nat} {worker other : Worker}
    (found : pool.workers[place]? = some worker) (unsent : other.unsent = worker.unsent)
    (unseen : other.unseen = worker.unseen) (handed : other.handed = worker.handed) :
    Accounted alone job separator rows replies (pool.assign place other) history := by
  have sameUnsent : (pool.assign place other).unsent = pool.unsent :=
    flatMap_set_of_eq Worker.unsent found other unsent
  have sameUnseen : (pool.assign place other).unseen = pool.unseen :=
    flatMap_set_of_eq Worker.unseen found other unseen
  have sameHanded : (pool.assign place other).handed = pool.handed :=
    flatMap_set_of_eq Worker.handed found other handed
  exact
    { accounted with
      single := fun one => List.length_set.trans (accounted.single one)
      rows := sameUnsent ▸ accounted.rows
      results := sameUnseen ▸ accounted.results
      rejected := sameHanded ▸ accounted.rejected }

theorem Accounted.steal {thief victim kept : Nat} {share rest : List Numbered} {item : Numbered}
    {activity : Activity} (poor : pool.workers[thief]? = some ⟨[], .idle⟩)
    (rich : pool.workers[victim]? = some ⟨share, activity⟩)
    (behind : share.drop kept = item :: rest) :
    Accounted alone job separator rows replies
      ((pool.assign victim ⟨share.take kept, activity⟩).assign thief ⟨rest, .begun item⟩)
      history := by
  have poorStill := poor_of_steal poor rich behind
  let robbed := pool.workers.set victim ⟨share.take kept, activity⟩
  have single : alone → robbed.length = 1 := fun one =>
    List.length_set.trans (accounted.single one)
  -- Both the old workers and the new ones are those robbed of the rows, together with the rows.
  have before : Rearranged alone pool.unsent (robbed.flatMap Worker.unsent ++ item :: rest) := by
    refine rearranged_set_of_end Worker.unsent rich accounted.single _ ?_
    rw [← behind, Worker.unsent, Worker.unsent, List.append_assoc, List.take_append_drop]
  have after := rearranged_set_of_gain Worker.unsent poorStill single ⟨rest, .begun item⟩ rfl
  have unsent := (after.trans before.symm).append (.refl alone history.left)
  have unseen := (flatMap_set_of_eq Worker.unseen poorStill ⟨rest, .begun item⟩ rfl).trans
    (flatMap_set_of_eq Worker.unseen rich ⟨share.take kept, activity⟩ rfl)
  have handed := (flatMap_set_of_eq Worker.handed poorStill ⟨rest, .begun item⟩ rfl).trans
    (flatMap_set_of_eq Worker.handed rich ⟨share.take kept, activity⟩ rfl)
  have results := accounted.results
  have rejected := accounted.rejected
  rw [Pool.unseen, ← unseen] at results
  rw [Pool.handed, ← handed] at rejected
  exact
    { accounted with
      single := fun one => List.length_set.trans (single one)
      rows := ((Rearranged.refl alone _).append unsent).trans accounted.rows
      results, rejected }

theorem Accounted.send {place : Nat} {share : List Numbered} {item : Numbered}
    (here : pool.workers[place]? = some ⟨share, .begun item⟩)
    {result : Except Rejection Done}
    (verdict : verdict job.session job.header item.row
      (pool.replies.headD job.exhausted) = result) :
    let sent := (requestOf job.session job.model job.header item.row).toList
    Accounted alone job separator rows replies
      { pool.assign place ⟨share, .sending item result⟩ with
        replies := pool.replies.drop sent.length, sent := pool.sent ++ sent }
      { history with taken := history.taken ++ [(item, result)] } := by
  intro sent
  have unsent := rearranged_set_of_loss Worker.unsent here accounted.single
    ⟨share, .sending item result⟩ [item] rfl
  have unseen := rearranged_set_of_gain Worker.unseen here accounted.single
    ⟨share, .sending item result⟩ rfl
  have handed := flatMap_set_of_eq Worker.handed here ⟨share, .sending item result⟩ rfl
  have posted : (rowsOf (history.taken ++ [(item, result)])).filterMap
      (requestOf job.session job.model job.header) = pool.sent ++ sent := by
    rw [rowsOf_concat, filterMap_concat, accounted.sent]
  have rows : Rearranged alone ((history.taken ++ [(item, result)]).map Prod.fst ++
      ((pool.assign place ⟨share, .sending item result⟩).unsent ++ history.left))
      (numberedFrom 1 rows) := by
    have moved := (Rearranged.refl alone (history.taken.map Prod.fst)).append
      (unsent.append (.refl alone history.left))
    rw [List.map_append, List.append_assoc]
    exact moved.symm.trans accounted.rows
  have fates : (history.taken ++ [(item, result)]).map (fun result => result.2.toOption) =
      Import.fates job.session job.model job.header job.exhausted
        (rowsOf (history.taken ++ [(item, result)])) replies := by
    rw [List.map_append, accounted.fates, rowsOf_concat, fates_concat, ← accounted.sent,
      ← accounted.unused, verdict, List.map_singleton]
  have rejected := accounted.rejected
  rw [Pool.handed, ← handed] at rejected
  exact
    { accounted with
      single := fun one => List.length_set.trans (accounted.single one)
      rows, fates, rejected
      sent := posted.symm
      unused := by
        rw [accounted.unused, List.drop_drop, List.length_append]
      results := by
        have grown := (Rearranged.refl alone history.seen).append unseen
        rw [← List.append_assoc] at grown
        exact grown.trans (accounted.results.append (.refl alone _)) }

theorem Accounted.see {place : Nat} {share : List Numbered} {item : Numbered}
    {result : Except Rejection Done}
    (here : pool.workers[place]? = some ⟨share, .sending item result⟩) :
    Accounted alone job separator rows replies (pool.settle place share item result)
      { history with seen := history.seen ++ [(item, result)] } := by
  have results : ∀ activity : Activity, activity.unseen = [] →
      Rearranged alone (history.seen ++ [(item, result)] ++
        (pool.workers.set place ⟨share, activity⟩).flatMap Worker.unseen) history.taken := by
    intro activity nothing
    have moved := rearranged_set_of_loss Worker.unseen here accounted.single ⟨share, activity⟩
      [(item, result)] (by rw [Worker.unseen, Worker.unseen, nothing]; rfl)
    rw [List.append_assoc]
    exact ((Rearranged.refl alone _).append moved.symm).trans accounted.results
  have rows : ∀ activity : Activity, activity.unsent = [] →
      Rearranged alone (history.taken.map Prod.fst ++
        ((pool.workers.set place ⟨share, activity⟩).flatMap Worker.unsent ++ history.left))
        (numberedFrom 1 rows) := by
    intro activity nothing
    rw [flatMap_set_of_eq Worker.unsent here ⟨share, activity⟩
      (by rw [Worker.unsent, Worker.unsent, nothing]; rfl)]
    exact accounted.rows
  have single : ∀ worker, alone → (pool.assign place worker).workers.length = 1 :=
    fun _ one => List.length_set.trans (accounted.single one)
  have ends : (history.seen ++ [(item, result)]).map (fun result => result.2.toOption) =
      history.seen.map (fun result => result.2.toOption) ++ [result.toOption] := List.map_append
  cases result with
  | ok done =>
      have handed := flatMap_set_of_eq Worker.handed here ⟨share, .counting⟩ rfl
      have rejected := accounted.rejected
      rw [Pool.handed, ← handed] at rejected
      have others : (history.seen ++ [(item, Except.ok done)]).filterMap rejectedRow =
          history.seen.filterMap rejectedRow := by
        rw [filterMap_concat]
        exact List.append_nil _
      have warnings : (history.seen ++ [(item, Except.ok done)]).filterMap warningOf = pool.warnings := by
        rw [filterMap_concat, accounted.warnings]
        exact List.append_nil _
      cases done with
      | created =>
          exact
            { accounted with
              single := single _
              rows := rows .counting rfl
              results := results .counting rfl
              created := by rw [ends, List.count_append, ← accounted.created]; rfl
              updated := by rw [ends, List.count_append, ← accounted.updated]; rfl
              warnings := warnings.symm
              rejected := others ▸ rejected }
      | updated =>
          exact
            { accounted with
              single := single _
              rows := rows .counting rfl
              results := results .counting rfl
              created := by rw [ends, List.count_append, ← accounted.created]; rfl
              updated := by rw [ends, List.count_append, ← accounted.updated]; rfl
              warnings := warnings.symm
              rejected := others ▸ rejected }
  | error reason =>
      have handed := rearranged_set_of_gain Worker.handed here accounted.single
        ⟨share, .handing item.row⟩ rfl
      exact
        { accounted with
          single := single _
          rows := rows (.handing item.row) rfl
          results := results (.handing item.row) rfl
          created := by rw [ends, List.count_append, ← accounted.created]; rfl
          updated := by rw [ends, List.count_append, ← accounted.updated]; rfl
          warnings := by rw [filterMap_concat, ← accounted.warnings]; rfl
          rejected := by
            have grown := (Rearranged.refl alone history.written).append
              ((Rearranged.refl alone history.lost).append
                ((Rearranged.refl alone pool.queue).append handed))
            have more := accounted.rejected.append (.refl alone [item.row])
            rw [filterMap_concat]
            simp only [List.append_assoc] at grown more
            exact grown.trans more }

theorem Accounted.hand {place : Nat} {share : List Numbered} {row : List String}
    (here : pool.workers[place]? = some ⟨share, .handing row⟩) (whole : pool.broken = none) :
    Accounted alone job separator rows replies
      { pool.assign place ⟨share, .counting⟩ with queue := pool.queue ++ [row] } history := by
  have unsent := flatMap_set_of_eq Worker.unsent here ⟨share, .counting⟩ rfl
  have unseen := flatMap_set_of_eq Worker.unseen here ⟨share, .counting⟩ rfl
  have handed := rearranged_set_of_loss Worker.handed here accounted.single ⟨share, .counting⟩
    [row] rfl
  have rows := accounted.rows
  have results := accounted.results
  have rejected := ((Rearranged.refl alone history.written).append
    ((Rearranged.refl alone history.lost).append
      ((Rearranged.refl alone pool.queue).append handed))).symm.trans accounted.rejected
  rw [Pool.unsent, ← unsent] at rows
  rw [Pool.unseen, ← unseen] at results
  rw [← List.append_assoc pool.queue] at rejected
  have unbroken : ¬ pool.broken.isSome = true := by
    rw [whole]
    exact Bool.false_ne_true
  exact
    { accounted with
      single := fun one => List.length_set.trans (accounted.single one)
      rows, results, rejected
      broken := fun broken => absurd broken unbroken }

theorem Accounted.giveUp {place : Nat} {share : List Numbered} {row : List String}
    (here : pool.workers[place]? = some ⟨share, .handing row⟩)
    (broken : pool.broken.isSome = true) :
    Accounted alone job separator rows replies
      { pool.assign place ⟨[], .idle⟩ with stopped := true }
      { history with lost := history.lost ++ [row], left := share ++ history.left } := by
  obtain ⟨drained, -⟩ := accounted.broken broken
  have unsent := rearranged_set_of_end Worker.unsent here accounted.single ⟨[], .idle⟩
    (List.nil_append share).symm
  have unseen := flatMap_set_of_eq Worker.unseen here ⟨[], .idle⟩ rfl
  have handed := rearranged_set_of_loss Worker.handed here accounted.single ⟨[], .idle⟩ [row] rfl
  have rows := ((Rearranged.refl alone (history.taken.map Prod.fst)).append
    (unsent.append (.refl alone history.left))).symm.trans accounted.rows
  have results := accounted.results
  have rejected := ((Rearranged.refl alone history.written).append
    ((Rearranged.refl alone history.lost).append
      ((Rearranged.refl alone pool.queue).append handed))).symm.trans accounted.rejected
  rw [List.append_assoc _ share] at rows
  rw [Pool.unseen, ← unseen] at results
  rw [drained, List.nil_append, ← List.append_assoc history.lost] at rejected
  exact
    { accounted with
      single := fun one => List.length_set.trans (accounted.single one)
      rows, results
      rejected := by
        dsimp only [Pool.assign]
        rw [drained]
        exact rejected
      whole := fun whole => by
        have unbroken : pool.broken = none := whole
        rw [unbroken] at broken
        cases broken
      broken := fun _ => ⟨drained, List.concat_ne_nil row history.lost⟩ }

theorem Accounted.quit {place : Nat} {share : List Numbered} {item : Numbered}
    (here : pool.workers[place]? = some ⟨item :: share, .idle⟩) (stopped : pool.stopped = true) :
    Accounted alone job separator rows replies (pool.assign place ⟨[], .idle⟩)
      { history with left := (item :: share) ++ history.left } := by
  have unsent := rearranged_set_of_end Worker.unsent here accounted.single ⟨[], .idle⟩
    (List.nil_append (item :: share)).symm
  have unseen := flatMap_set_of_eq Worker.unseen here ⟨[], .idle⟩ rfl
  have handed := flatMap_set_of_eq Worker.handed here ⟨[], .idle⟩ rfl
  have rows := ((Rearranged.refl alone (history.taken.map Prod.fst)).append
    (unsent.append (.refl alone history.left))).symm.trans accounted.rows
  have results := accounted.results
  have rejected := accounted.rejected
  rw [List.append_assoc _ (item :: share)] at rows
  rw [Pool.unseen, ← unseen] at results
  rw [Pool.handed, ← handed] at rejected
  exact
    { accounted with
      single := fun one => List.length_set.trans (accounted.single one)
      rows, results, rejected
      whole := fun whole => by
        have running : pool.stopped = false := (accounted.whole whole).1
        rw [running] at stopped
        cases stopped }

theorem Accounted.write {row : List String} {queue : List (List String)} {errors : Table.Writer}
    (whole : pool.broken = none) (waiting : pool.queue = row :: queue)
    (taken : pool.errors.addRow row = (.ok (), errors)) :
    Accounted alone job separator rows replies
      { pool with queue, errors, failed := pool.failed + 1 }
      { history with written := history.written ++ [row] } := by
  obtain ⟨running, nobody, nothing, failed, written⟩ := accounted.whole whole
  have rejected := accounted.rejected
  rw [waiting, nothing, List.nil_append, List.cons_append, List.append_cons] at rejected
  have next : (Table.Writer.start separator job.header).addRows (history.written ++ [row]) =
      errors := by
    rw [Table.Writer.addRows, List.foldl_append]
    change (((Table.Writer.start separator job.header).addRows history.written).addRow row).2 = _
    rw [← written, taken]
  exact
    { accounted with
      rejected := by
        rw [nothing]
        exact rejected
      whole := fun _ => ⟨running, nobody, nothing, by rw [failed, List.length_append]; rfl,
        next.symm⟩
      broken := fun broken => by
        rw [whole] at broken
        cases broken }

/-- When the error file breaks the rows on their way to it are lost. -/
theorem Accounted.breakOff {row : List String} {queue : List (List String)}
    (waiting : pool.queue = row :: queue) (errors : Table.Writer) (refusal : Refusal) :
    Accounted alone job separator rows replies
      { pool with queue := [], errors, broken := some refusal }
      { history with lost := history.lost ++ pool.queue } := by
  have rejected := accounted.rejected
  rw [← List.append_assoc history.lost] at rejected
  exact
    { accounted with
      rejected := rejected
      whole := nofun
      broken := fun _ => ⟨rfl, by
        rw [waiting]
        exact List.append_ne_nil_of_right_ne_nil _ (List.cons_ne_nil _ _)⟩ }

/-- How many rows' results a move sees. -/
def Move.sees : Move → Nat
  | .see _ => 1
  | _ => 0

/-- After every move all rows are accounted for again. -/
theorem Accounted.step {move : Move} {next : Pool} (stepped : Stepped job pool move next) :
    ∃ later, Accounted alone job separator rows replies next later ∧
      later.seen.length = history.seen.length + move.sees := by
  cases stepped with
  | steal poor rich behind => exact ⟨_, accounted.steal poor rich behind, rfl⟩
  | pick here => exact ⟨_, accounted.assign here rfl rfl rfl, rfl⟩
  | send here sent posted result verdict =>
      subst posted
      exact ⟨_, accounted.send here verdict, rfl⟩
  | see here => exact ⟨_, accounted.see here, List.length_append⟩
  | hand here whole room => exact ⟨_, accounted.hand here whole, rfl⟩
  | giveUp here broken => exact ⟨_, accounted.giveUp here broken, rfl⟩
  | @count place share here =>
      have assigned : Accounted alone job separator rows replies
          (pool.assign place ⟨share, if pool.progress.passes 1 then
            .showing (pool.progress.add 1).count else .idle⟩) history := by
        refine accounted.assign here ?_ ?_ ?_ <;> split <;> rfl
      exact ⟨history, { assigned with }, rfl⟩
  | @display place count share here =>
      have assigned : Accounted alone job separator rows replies
          (pool.assign place ⟨share, .idle⟩) history := accounted.assign here rfl rfl rfl
      exact ⟨history, { assigned with }, rfl⟩
  | quit here stopped => exact ⟨_, accounted.quit here stopped, rfl⟩
  | write whole waiting taken => exact ⟨_, accounted.write whole waiting taken, rfl⟩
  | misfit whole waiting refused => exact ⟨_, accounted.breakOff waiting _ _, rfl⟩
  | refuse fault whole waiting => exact ⟨_, accounted.breakOff waiting pool.errors _, rfl⟩

end Moves

/-! ## Whole imports -/

section Whole

variable (separator : Table.Separator) (job : Job) (rows : List (List String))
  (replies : List Reply)

theorem accounted_start (workers : Nat) :
    Accounted (workers = 1) job separator rows replies
      (.start workers rows replies (.start separator job.header)) ⟨[], [], [], [], []⟩ := by
  have rest {α : Type} (f : Worker → List α) (nothing : f ⟨[], .idle⟩ = []) :
      (List.replicate (workers - 1) (Worker.mk [] .idle)).flatMap f = [] := by
    rw [List.flatMap_eq_nil_iff]
    intro worker member
    rw [List.eq_of_mem_replicate member, nothing]
  have unsent : (Pool.start workers rows replies (.start separator job.header)).unsent =
      numberedFrom 1 rows := by
    rw [Pool.unsent, Pool.start, List.flatMap_cons, rest Worker.unsent rfl]
    exact List.append_nil _
  have unseen : (Pool.start workers rows replies (.start separator job.header)).unseen = [] :=
    rest Worker.unseen rfl
  have handed : (Pool.start workers rows replies (.start separator job.header)).handed = [] :=
    rest Worker.handed rfl
  refine ⟨?_, ?_, rfl, rfl, rfl, ?_, rfl, rfl, rfl, ?_, ?_, nofun⟩
  · rintro rfl
    rfl
  · rw [unsent, List.append_nil]
    exact .refl _ _
  · rw [unseen]
    exact .refl _ _
  · rw [handed]
    exact .refl _ _
  · exact fun _ => ⟨rfl, rfl, rfl, rfl, rfl⟩

variable {separator job rows replies}

theorem Accounted.follow {alone : Prop} {pool : Pool} {history : History}
    (accounted : Accounted alone job separator rows replies pool history) {moves : List Move}
    {next : Pool} (reached : pool.follow job moves = some next) :
    ∃ later, Accounted alone job separator rows replies next later := by
  induction moves generalizing pool history with
  | nil =>
      cases reached
      exact ⟨history, accounted⟩
  | cons move moves inductionHypothesis =>
      obtain ⟨middle, stepped, followed⟩ := Option.bind_eq_some_iff.1 reached
      obtain ⟨later, accountedLater, -⟩ := accounted.step (stepped_of_step stepped)
      exact inductionHypothesis accountedLater followed

end Whole

end RemoteRecords.Import
