import RemoteRecords.Proofs.Import.Ending
import RemoteRecords.Proofs.Import.Schedules
import RemoteRecords.Proofs.Progress

/-!
# What an import shows

Each row is counted once, by the worker that is done with it, and each count that is to be shown is
with a worker or has been shown (`Counted`). So an import shows zero, every hundred, and at last the
number of its rows (`counters_show_multiples`). Several workers can show the hundreds in another
order, and an import that fails does not show the last number (`hundreds_out_of_order_or_cut`).
-/

namespace RemoteRecords.Import

open Session (Reply)

/-! ## Counts -/

/-- One mark for a row that is done with and not counted yet. -/
def Worker.uncounted (worker : Worker) : List Unit :=
  match worker.activity with
  | .handing _ => [()]
  | .counting => [()]
  | _ => []

/-- The count that a worker has to show, if any. -/
def Worker.unshown (worker : Worker) : List Nat :=
  match worker.activity with
  | .showing count => [count]
  | _ => []

def Pool.uncounted (pool : Pool) : Nat := (pool.workers.flatMap Worker.uncounted).length

def Pool.unshown (pool : Pool) : List Nat := pool.workers.flatMap Worker.unshown

/-- What has been counted and shown after the results of so many rows have been seen. Unless the
error file is broken, all these rows are or will be counted. -/
structure Counted (alone : Prop) (pool : Pool) (seen : Nat) : Prop where
  single : alone → pool.workers.length = 1
  label : pool.progress.label = "Import: rows"
  interval : pool.progress.interval = 100
  unfinished : pool.progress.finished = false
  first : ∃ later, pool.progress.shown = 0 :: later
  bounded : pool.progress.count + pool.uncounted ≤ seen
  exact : pool.broken = none → pool.progress.count + pool.uncounted = seen
  shown : Rearranged alone (pool.progress.shown ++ pool.unshown)
    (Progress.multiples 100 pool.progress.count)

section Moves

variable {alone : Prop} {job : Job} {pool : Pool} {seen : Nat} (counted : Counted alone pool seen)

include counted

theorem Counted.assign {place : Nat} {worker other : Worker}
    (found : pool.workers[place]? = some worker) (uncounted : other.uncounted = worker.uncounted)
    (unshown : other.unshown = worker.unshown) : Counted alone (pool.assign place other) seen := by
  have sameCounts : (pool.assign place other).uncounted = pool.uncounted :=
    congrArg List.length (flatMap_set_of_eq Worker.uncounted found other uncounted)
  have sameShown : (pool.assign place other).unshown = pool.unshown :=
    flatMap_set_of_eq Worker.unshown found other unshown
  exact
    { counted with
      single := fun one => List.length_set.trans (counted.single one)
      bounded := sameCounts ▸ counted.bounded
      exact := sameCounts ▸ counted.exact
      shown := sameShown ▸ counted.shown }

theorem Counted.see {place : Nat} {share : List Numbered} {item : Numbered}
    {result : Except Rejection Done}
    (here : pool.workers[place]? = some ⟨share, .sending item result⟩) :
    Counted alone (pool.settle place share item result) (seen + 1) := by
  have assigned : ∀ activity : Activity, (Worker.mk share activity).uncounted = [()] →
      (Worker.mk share activity).unshown = [] →
      Counted alone (pool.assign place ⟨share, activity⟩) (seen + 1) := by
    intro activity mark nothing
    have more : (pool.assign place ⟨share, activity⟩).uncounted = pool.uncounted + 1 := by
      have lengths := length_flatMap_set Worker.uncounted here ⟨share, activity⟩
      rw [mark] at lengths
      exact lengths
    have same : (pool.assign place ⟨share, activity⟩).unshown = pool.unshown :=
      flatMap_set_of_eq Worker.unshown here ⟨share, activity⟩ nothing
    exact
      { counted with
        single := fun one => List.length_set.trans (counted.single one)
        bounded := by
          rw [more]
          exact Nat.succ_le_succ counted.bounded
        exact := fun whole => by
          rw [more]
          exact congrArg Nat.succ (counted.exact whole)
        shown := same ▸ counted.shown }
  cases result with
  | ok done => cases done <;> exact { assigned .counting rfl rfl with }
  | error reason => exact { assigned (.handing item.row) rfl rfl with }

theorem Counted.giveUp {place : Nat} {share : List Numbered} {row : List String}
    (here : pool.workers[place]? = some ⟨share, .handing row⟩)
    (broken : pool.broken.isSome = true) :
    Counted alone { pool.assign place ⟨[], .idle⟩ with stopped := true } seen := by
  have fewer : (pool.assign place ⟨[], .idle⟩).uncounted + 1 = pool.uncounted :=
    length_flatMap_set Worker.uncounted here ⟨[], .idle⟩
  have same : (pool.assign place ⟨[], .idle⟩).unshown = pool.unshown :=
    flatMap_set_of_eq Worker.unshown here ⟨[], .idle⟩ rfl
  have bounded := counted.bounded
  have assigned : Counted alone (pool.assign place ⟨[], .idle⟩) seen :=
    { counted with
      single := fun one => List.length_set.trans (counted.single one)
      bounded := show pool.progress.count + _ ≤ seen by omega
      exact := fun whole => by
        have unbroken : pool.broken = none := whole
        rw [unbroken] at broken
        cases broken
      shown := same ▸ counted.shown }
  exact { assigned with }

theorem Counted.count (small : seen ≤ Bounds.greatestNat64) {place : Nat}
    {share : List Numbered} (here : pool.workers[place]? = some ⟨share, .counting⟩) :
    Counted alone
      { pool.assign place ⟨share, if pool.progress.passes 1 then
          .showing (pool.progress.add 1).count else .idle⟩ with
        progress := pool.progress.add 1 } seen := by
  let next : Activity :=
    if pool.progress.passes 1 then .showing (pool.progress.add 1).count else .idle
  let added : List Nat := if pool.progress.passes 1 then [(pool.progress.add 1).count] else []
  obtain ⟨noMark, adds⟩ : (Worker.mk share next).uncounted = [] ∧
      (Worker.mk share next).unshown = added := by
    cases passed : pool.progress.passes 1 <;>
      simp [next, added, passed, Worker.uncounted, Worker.unshown]
  have fewer : (pool.assign place ⟨share, next⟩).uncounted + 1 = pool.uncounted := by
    have lengths := length_flatMap_set Worker.uncounted here ⟨share, next⟩
    rw [noMark] at lengths
    exact lengths
  have bounded := counted.bounded
  have held : pool.progress.count + 1 ≤ Bounds.greatestNat64 := by omega
  have count : (pool.progress.add 1).count = pool.progress.count + 1 :=
    Bounds.wrappingSum_of_le held
  have multiples : Progress.multiples 100 (pool.progress.add 1).count =
      Progress.multiples 100 pool.progress.count ++ added := by
    simp only [added, Progress.passes, count, Progress.multiples_succ, decide_eq_true_eq,
      Bounds.wrappingSum_of_le held, counted.interval]
  have gained := rearranged_set_of_gain Worker.unshown here counted.single ⟨share, next⟩ adds
  exact
    { counted with
      single := fun one => List.length_set.trans (counted.single one)
      bounded := by
        change (pool.progress.add 1).count + (pool.assign place ⟨share, next⟩).uncounted ≤ seen
        omega
      exact := fun whole => by
        have exact := counted.exact whole
        change (pool.progress.add 1).count + (pool.assign place ⟨share, next⟩).uncounted = seen
        omega
      shown := by
        have grown := (Rearranged.refl alone pool.progress.shown).append gained
        have shown := counted.shown.append (.refl alone added)
        rw [List.append_assoc, ← multiples] at shown
        exact grown.trans shown }

theorem Counted.display {place count : Nat} {share : List Numbered}
    (here : pool.workers[place]? = some ⟨share, .showing count⟩) :
    Counted alone
      { pool.assign place ⟨share, .idle⟩ with progress := pool.progress.display count } seen := by
  have same : (pool.assign place ⟨share, .idle⟩).uncounted = pool.uncounted :=
    congrArg List.length (flatMap_set_of_eq Worker.uncounted here ⟨share, .idle⟩ rfl)
  have moved := rearranged_set_of_loss Worker.unshown here counted.single ⟨share, .idle⟩ [count] rfl
  obtain ⟨later, begins⟩ := counted.first
  exact
    { counted with
      single := fun one => List.length_set.trans (counted.single one)
      first := ⟨later ++ [count], congrArg (· ++ [count]) begins⟩
      bounded := same ▸ counted.bounded
      exact := same ▸ counted.exact
      shown := by
        have shown := ((Rearranged.refl alone pool.progress.shown).append moved).symm.trans
          counted.shown
        rw [← List.append_assoc] at shown
        exact shown }

theorem Counted.steal {thief victim kept : Nat} {share rest : List Numbered} {item : Numbered}
    {activity : Activity} (poor : pool.workers[thief]? = some ⟨[], .idle⟩)
    (rich : pool.workers[victim]? = some ⟨share, activity⟩)
    (behind : share.drop kept = item :: rest) :
    Counted alone
      ((pool.assign victim ⟨share.take kept, activity⟩).assign thief ⟨rest, .begun item⟩) seen := by
  have robbed : Counted alone (pool.assign victim ⟨share.take kept, activity⟩) seen :=
    counted.assign rich rfl rfl
  exact robbed.assign (poor_of_steal poor rich behind) rfl rfl

theorem Counted.step (small : seen ≤ Bounds.greatestNat64) {move : Move} {next : Pool}
    (stepped : Stepped job pool move next) : Counted alone next (seen + move.sees) := by
  cases stepped with
  | steal poor rich behind => exact counted.steal poor rich behind
  | pick here => exact counted.assign here rfl rfl
  | @send place share item here sent posted result verdict =>
      have assigned : Counted alone (pool.assign place ⟨share, .sending item result⟩) seen :=
        counted.assign here rfl rfl
      exact { assigned with }
  | see here => exact counted.see here
  | @hand place share row here whole room =>
      have assigned : Counted alone (pool.assign place ⟨share, .counting⟩) seen :=
        counted.assign here rfl rfl
      exact { assigned with }
  | giveUp here broken => exact counted.giveUp here broken
  | count here => exact counted.count small here
  | display here => exact counted.display here
  | quit here stopped => exact counted.assign here rfl rfl
  | write whole waiting taken => exact { counted with }
  | misfit whole waiting refused => exact { counted with exact := nofun }
  | refuse fault whole waiting => exact { counted with exact := nofun }

end Moves

/-! ## Whole imports -/

section Whole

variable {job : Job} {separator : Table.Separator} {rows : List (List String)}
  {replies : List Reply}

theorem counted_start (workers : Nat) (errors : Table.Writer) :
    Counted (workers = 1) (.start workers rows replies errors) 0 := by
  have rest {α : Type} (f : Worker → List α) (nothing : ∀ share, f ⟨share, .idle⟩ = []) :
      (Pool.start workers rows replies errors).workers.flatMap f = [] := by
    rw [List.flatMap_eq_nil_iff]
    intro worker member
    rcases List.mem_cons.1 member with rfl | member
    · exact nothing _
    · rw [List.eq_of_mem_replicate member]
      exact nothing _
  have uncounted : (Pool.start workers rows replies errors).uncounted = 0 :=
    congrArg List.length (rest Worker.uncounted fun _ => rfl)
  have unshown : (Pool.start workers rows replies errors).unshown = [] :=
    rest Worker.unshown fun _ => rfl
  refine ⟨?_, rfl, rfl, rfl, ⟨[], rfl⟩, ?_, ?_, ?_⟩
  · rintro rfl
    rfl
  · rw [uncounted]
    exact Nat.le_refl 0
  · intro
    rw [uncounted]
    rfl
  · rw [unshown, List.append_nil]
    have zero : Progress.multiples 100 0 = [0] := by decide
    change Rearranged _ [0] (Progress.multiples 100 0)
    rw [zero]
    exact .refl _ _

theorem Accounted.length_seen_le {alone : Prop} {pool : Pool} {history : History}
    (accounted : Accounted alone job separator rows replies pool history) :
    history.seen.length ≤ rows.length := by
  have results := accounted.results.perm.length_eq
  have taken := accounted.rows.perm.length_eq
  rw [List.length_append] at results
  rw [List.length_append, List.length_map, length_numberedFrom] at taken
  omega

/-- What has been shown keeps up with the rows that have been seen. -/
theorem Counted.follow (held : rows.length ≤ Bounds.greatestNat64) {alone : Prop} {pool : Pool}
    {history : History} (accounted : Accounted alone job separator rows replies pool history)
    (counted : Counted alone pool history.seen.length) {moves : List Move} {next : Pool}
    (reached : pool.follow job moves = some next) :
    ∃ later, Accounted alone job separator rows replies next later ∧
      Counted alone next later.seen.length := by
  induction moves generalizing pool history with
  | nil =>
      cases reached
      exact ⟨history, accounted, counted⟩
  | cons move moves inductionHypothesis =>
      obtain ⟨middle, step, followed⟩ := Option.bind_eq_some_iff.1 reached
      have stepped := stepped_of_step step
      obtain ⟨later, accountedLater, more⟩ := accounted.step stepped
      have countedLater := counted.step (accounted.length_seen_le.trans held) stepped
      rw [← more] at countedLater
      exact inductionHypothesis accountedLater countedLater followed

theorem length_seen_of_finished {alone : Prop} {pool : Pool} {history : History}
    (accounted : Accounted alone job separator rows replies pool history)
    (finished : pool.finished = true) (whole : pool.broken = none) :
    history.seen.length = rows.length := by
  obtain ⟨-, nobody, -⟩ := accounted.whole whole
  have results := accounted.results.perm.length_eq
  have taken := accounted.rows.perm.length_eq
  rw [Pool.unseen, flatMap_of_finished finished Worker.unseen rfl, List.append_nil] at results
  rw [Pool.unsent, flatMap_of_finished finished Worker.unsent rfl, nobody, List.append_nil,
    List.append_nil, List.length_map, length_numberedFrom] at taken
  exact results.trans taken

end Whole

/-- The hundreds up to a count. -/
def hundreds (count : Nat) : List Nat := (List.range (count / 100)).map fun index => 100 * (index + 1)

theorem multiples_hundred (count : Nat) : Progress.multiples 100 count = 0 :: hundreds count := by
  rw [Progress.multiples, List.range_succ_eq_map, List.map_cons, List.map_map]
  rfl

theorem progress_of_finished {workers : Nat} {separator : Table.Separator} {job : Job}
    {rows : List (List String)} {replies : List Reply} (held : rows.length ≤ Bounds.greatestNat64)
    {moves : List Move} {pool : Pool}
    (reached : (Pool.start workers rows replies (.start separator job.header)).follow job moves =
      some pool)
    (finished : pool.finished = true) :
    ∃ counted marks, pool.progress = ⟨"Import: rows", 100, counted, 0 :: marks, false⟩ ∧
      counted ≤ rows.length ∧ (pool.broken = none → counted = rows.length) ∧
      Rearranged (workers = 1) marks (hundreds counted) := by
  obtain ⟨history, accounted, counted⟩ := (counted_start workers _).follow held
    (accounted_start separator job rows replies workers) reached
  obtain ⟨marks, begins⟩ := counted.first
  have nothing : pool.uncounted = 0 :=
    congrArg List.length (flatMap_of_finished finished Worker.uncounted rfl)
  have shown := counted.shown
  rw [Pool.unshown, flatMap_of_finished finished Worker.unshown rfl, List.append_nil, begins,
    multiples_hundred] at shown
  refine ⟨pool.progress.count, marks, ?_, ?_, fun whole => ?_, shown.cons_inv⟩
  · rw [← counted.label, ← counted.interval, ← counted.unfinished, ← begins]
  · exact (Nat.le_add_right _ _).trans (counted.bounded.trans accounted.length_seen_le)
  · have exact := counted.exact whole
    rw [nothing, Nat.add_zero] at exact
    exact exact.trans (length_seen_of_finished accounted finished whole)

/-- What an import of so many rows has shown at its end: zero, the hundreds up to the rows that have
been counted, each once, and, if it ends well, the number of all rows and the end of the line. With
one worker the hundreds come in order. -/
structure ShowsHundreds (workers rows : Nat) (closing : Closing) : Prop where
  shown : ∃ counted marks, counted ≤ rows ∧ Rearranged (workers = 1) marks (hundreds counted) ∧
    match closing.outcome with
    | .ok _ => counted = rows ∧ closing.progress.shown = 0 :: marks ++ [rows]
    | .error _ => closing.progress.shown = 0 :: marks
  text : closing.progress.text =
    String.join (closing.progress.shown.map (Progress.line "Import: rows")) ++
      match closing.outcome with
      | .ok _ => "\n"
      | .error _ => ""

theorem showsHundreds_of_finished {workers : Nat} {separator : Table.Separator} {job : Job}
    {rows : List (List String)} {replies : List Reply} (held : rows.length ≤ Bounds.greatestNat64)
    {moves : List Move} {pool : Pool}
    (reached : (Pool.start workers rows replies (.start separator job.header)).follow job moves =
      some pool)
    (finished : pool.finished = true) (rest : Option (WriteFault Bytes)) :
    ShowsHundreds workers rows.length (pool.close rest) := by
  obtain ⟨counted, marks, shown, bounded, exact, order⟩ :=
    progress_of_finished held reached finished
  rcases close_cases pool rest with ⟨refusal, outcome, progress⟩ | ⟨whole, rfl⟩
  · refine ⟨⟨counted, marks, bounded, order, ?_⟩, ?_⟩
    · rw [outcome, progress, shown]
    · rw [outcome, progress, shown]
      rfl
  · obtain rfl := exact whole
    refine ⟨⟨rows.length, marks, le_rfl, order, ?_⟩, ?_⟩
    · rw [close_of_whole whole, shown]
      exact ⟨rfl, rfl⟩
    · rw [close_of_whole whole, shown]
      rfl

theorem progress_replayImport (separator : Table.Separator) (session : Session) (model : String)
    {header : List String} {rows : List (List String)} (exhausted : Reply) (replies : List Reply)
    (fit : ∀ row ∈ rows, row.length = header.length)
    (held : rows.length ≤ Bounds.greatestNat64) :
    (replayImport separator session model header rows exhausted replies).value.progress =
      ⟨"Import: rows", 100, rows.length, 0 :: hundreds rows.length ++ [rows.length], true⟩ := by
  obtain ⟨after, settled, report, whole⟩ :=
    replayImport_of_fit separator session model exhausted replies fit
  have counts := Progress.iterate_advance_one "Import: rows" 100 held
  rw [whole, report, settled.progress, ← multiples_hundred]
  exact congrArg Progress.finish counts

/-- A counter shows each multiple of its interval that its steps pass, whatever their sizes are. So
an import of rows that have the width of the header shows zero and every hundred, and then, when the
error file has taken everything, the number of the rows and the end of the line. One worker shows the
hundreds in order, as the import of the rows one after another does. -/
theorem counters_show_multiples :
    (∀ (label : String) (interval : Nat) (deltas : List Nat),
      deltas.sum ≤ Bounds.greatestNat64 → Progress.ShowsMultiples label interval deltas) ∧
    ∀ (separator : Table.Separator) (job : Job) (rows : List (List String)) (workers : Nat)
      (replies : List Reply), (∀ row ∈ rows, row.length = job.header.length) →
      rows.length ≤ Bounds.greatestNat64 →
      let run := (Pool.start workers rows replies (.start separator job.header)).follow job
      (∀ moves pool, run moves = some pool →
        moves.length ≤ 7 * rows.length ∧ ∃ more final, (∀ fault, Move.refuse fault ∉ more) ∧
          pool.follow job more = some final ∧ final.finished = true) ∧
      ∀ moves pool, run moves = some pool → pool.finished = true →
        (∀ rest, ShowsHundreds workers rows.length (pool.close rest)) ∧
        ((∀ fault, Move.refuse fault ∉ moves) →
          (pool.close none).outcome = .ok ⟨pool.created, pool.updated, pool.failed⟩ ∧
          (workers = 1 → (pool.close none).progress = (replayImport separator job.session job.model
            job.header rows job.exhausted replies).value.progress)) := by
  refine ⟨fun label interval _ small => Progress.showsMultiples label interval small, ?_⟩
  intro separator job rows workers replies fit held run
  refine ⟨fun moves pool => always_ends job workers rows replies _, ?_⟩
  intro moves pool reached finished
  refine ⟨showsHundreds_of_finished held reached finished, fun undisturbed => ?_⟩
  have whole := (accounted_start separator job rows replies workers).broken_follow fit rfl
    undisturbed reached
  refine ⟨by rw [close_of_whole whole], fun one => ?_⟩
  obtain ⟨counted, marks, shown, -, exact, order⟩ := progress_of_finished held reached finished
  obtain rfl := exact whole
  rw [close_of_whole whole, progress_replayImport separator job.session job.model job.exhausted
    replies fit held, shown, order.same one]
  rfl

/-! ## Two workers -/

/-- What a worker does with a row that is created, until the row is counted. -/
def createdBy (place : Nat) : List Move := [.pick place, .send place, .see place, .count place]

/-- The first worker counts a hundred rows, and the second one takes over the others and shows two
hundred before the first one has shown anything. -/
def lateDisplay : List Move :=
  (List.replicate 100 (createdBy 0)).flatten ++ [.steal 1 0 0, .send 1, .see 1, .count 1] ++
    (List.replicate 99 (createdBy 1)).flatten ++ [.display 1, .display 0]

def creatingJob : Job := ⟨plainSession, "res.partner", ["id"], .error .post⟩

/-- An import of two hundred new records on two workers. -/
def lateImport : Pool :=
  .start 2 (List.replicate 200 ["-1"]) (List.replicate 200 (replyWith (.int 30)))
    (.start .comma creatingJob.header)

theorem undisturbed_lateDisplay (fault : WriteFault Bytes) : Move.refuse fault ∉ lateDisplay := by
  simp [lateDisplay, createdBy, -List.reduceReplicate]

theorem follow_lateDisplay :
    ∃ pool, lateImport.follow creatingJob lateDisplay = some pool ∧ pool.finished = true ∧
      (pool.close none).outcome = .ok ⟨200, 0, 0⟩ ∧
      (pool.close none).progress.shown = [0, 200, 100, 200] := by
  have observed : (lateImport.follow creatingJob lateDisplay).map (fun pool =>
      (pool.finished, (pool.close none).outcome, (pool.close none).progress.shown)) =
        some (true, .ok ⟨200, 0, 0⟩, [0, 200, 100, 200]) := by decide +kernel
  obtain ⟨pool, reached, seen⟩ := Option.map_eq_some_iff.1 observed
  rw [Prod.mk.injEq, Prod.mk.injEq] at seen
  exact ⟨pool, reached, seen⟩

/-- Steps up to the greatest count of 64 bits, and the two hundred rows. -/
theorem counters_show_multiples_large_steps :
    let deltas := [99, 1, 9223372036854775807, 0, 9223372036854775708]
    deltas.sum ≤ Bounds.greatestNat64 ∧ Progress.ShowsMultiples "rows" 100 deltas ∧
      (∀ row ∈ List.replicate 200 ["-1"], row.length = creatingJob.header.length) ∧
      (List.replicate 200 ["-1"]).length ≤ Bounds.greatestNat64 ∧
      (∀ fault, Move.refuse fault ∉ lateDisplay) ∧
      ∃ pool, lateImport.follow creatingJob lateDisplay = some pool ∧ pool.finished = true ∧
        ShowsHundreds 2 200 (pool.close none) ∧ (pool.close none).outcome = .ok ⟨200, 0, 0⟩ ∧
        (pool.close none).progress.text = "\rImport: rows: 0\rImport: rows: 200" ++
          "\rImport: rows: 100\rImport: rows: 200\n" := by
  intro deltas
  have small : deltas.sum ≤ Bounds.greatestNat64 := by decide
  have fit : ∀ row ∈ List.replicate 200 ["-1"], row.length = creatingJob.header.length := by
    intro row member
    rw [List.eq_of_mem_replicate member]
    rfl
  have held : (List.replicate 200 ["-1"]).length ≤ Bounds.greatestNat64 := by
    rw [List.length_replicate]
    decide
  obtain ⟨pool, reached, finished, outcome, shown⟩ := follow_lateDisplay
  obtain ⟨general, imported⟩ := counters_show_multiples
  have hundreds := ((imported .comma creatingJob _ 2 _ fit held).2 lateDisplay pool reached
    finished).1 none
  rw [List.length_replicate] at hundreds
  have text := hundreds.text
  rw [outcome, shown] at text
  refine ⟨small, general "rows" 100 deltas small, fit, held, undisturbed_lateDisplay, pool, reached,
    finished, hundreds, outcome, text.trans ?_⟩
  decide +kernel

/-- Two workers can show two hundred before one hundred. When the system does not let the error file
take a rejected row, the number of the rows is not shown at the end, nor does the line end. -/
theorem hundreds_out_of_order_or_cut :
    ((∀ fault, Move.refuse fault ∉ lateDisplay) ∧
      ∃ pool, lateImport.follow creatingJob lateDisplay = some pool ∧ pool.finished = true ∧
        (pool.close none).outcome = .ok ⟨200, 0, 0⟩ ∧
        (pool.close none).progress.shown = [0, 200, 100, 200] ∧
        (pool.close none).progress.shown ≠ 0 :: hundreds 200 ++ [200]) ∧
      ∃ pool, (Pool.start 1 [["x"]] [] (.start .comma creatingJob.header)).follow creatingJob
          (losing ⟨[], "No space left on device"⟩) = some pool ∧
        pool.finished = true ∧ (pool.close none).progress.text = "\rImport: rows: 0" := by
  obtain ⟨pool, reached, finished, outcome, shown⟩ := follow_lateDisplay
  let run := (Pool.start 1 [["x"]] [] (.start .comma creatingJob.header)).follow creatingJob
    (losing ⟨[], "No space left on device"⟩)
  have observed : run.map (fun pool => (pool.finished, (pool.close none).progress.text)) =
      some (true, "\rImport: rows: 0") := by decide +kernel
  obtain ⟨cut, reachedCut, seen⟩ := Option.map_eq_some_iff.1 observed
  rw [Prod.mk.injEq] at seen
  refine ⟨⟨undisturbed_lateDisplay, pool, reached, finished, outcome, shown, ?_⟩, cut, reachedCut,
    seen⟩
  rw [shown]
  decide

end RemoteRecords.Import
