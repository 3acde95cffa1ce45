import Mathlib.Algebra.GroupWithZero.Nat
import RemoteRecords.Proofs.Import.Workers

/-!
# Imports on workers come to an end

Every move brings the work that is left down (`weight_step`), and as long as an import is not
finished some move is possible: a full queue is emptied, and a broken one lets the workers give up
(`possible_of_not_finished`). So no schedule goes on for ever, and each can be carried to the end
(`always_ends`).
-/

namespace RemoteRecords.Import

open Session (Reply)

/-! ## The work that is left -/

def Activity.weight : Activity → Nat
  | .idle => 0
  | .showing _ => 1
  | .counting => 2
  | .handing _ => 4
  | .sending _ _ => 5
  | .begun _ => 6

def Worker.weight (worker : Worker) : Nat := 7 * worker.share.length + worker.activity.weight

def Pool.weight (pool : Pool) : Nat :=
  (pool.workers.map Worker.weight).sum + pool.queue.length

theorem sum_weight_set {workers : List Worker} {place : Nat} {worker : Worker}
    (found : workers[place]? = some worker) (other : Worker) :
    ((workers.set place other).map Worker.weight).sum + worker.weight =
      (workers.map Worker.weight).sum + other.weight := by
  induction workers generalizing place with
  | nil => cases found
  | cons first rest inductionHypothesis =>
      cases place with
      | zero =>
          cases found
          rw [List.set_cons_zero, List.map_cons, List.map_cons, List.sum_cons, List.sum_cons]
          omega
      | succ place =>
          have behind := inductionHypothesis found
          rw [List.set_cons_succ, List.map_cons, List.map_cons, List.sum_cons, List.sum_cons]
          omega

theorem weight_assign {pool : Pool} {place : Nat} {worker : Worker}
    (found : pool.workers[place]? = some worker) (other : Worker) :
    (pool.assign place other).weight + worker.weight = pool.weight + other.weight := by
  have set := sum_weight_set found other
  simp only [Pool.weight, Pool.assign]
  omega

theorem weight_assign_lt {pool : Pool} {place : Nat} {worker other : Worker}
    (found : pool.workers[place]? = some worker) (lighter : other.weight < worker.weight) :
    (pool.assign place other).weight < pool.weight := by
  have assigned := weight_assign found other
  omega

/-- A worker that goes on with another activity and the same share. -/
theorem weight_assign_lt_of_activity {pool : Pool} {place : Nat} {share : List Numbered}
    {activity next : Activity} (found : pool.workers[place]? = some ⟨share, activity⟩)
    (lighter : next.weight < activity.weight) :
    (pool.assign place ⟨share, next⟩).weight < pool.weight :=
  weight_assign_lt found (Nat.add_lt_add_left lighter _)

theorem weight_steal_lt {pool : Pool} {thief victim kept : Nat} {share rest : List Numbered}
    {item : Numbered} {activity : Activity} (poor : pool.workers[thief]? = some ⟨[], .idle⟩)
    (rich : pool.workers[victim]? = some ⟨share, activity⟩)
    (behind : share.drop kept = item :: rest) :
    ((pool.assign victim ⟨share.take kept, activity⟩).assign thief ⟨rest, .begun item⟩).weight <
      pool.weight := by
  have robbed := weight_assign rich ⟨share.take kept, activity⟩
  have given := weight_assign (poor_of_steal poor rich behind) ⟨rest, .begun item⟩
  have lengths := congrArg List.length behind
  simp only [Worker.weight, Activity.weight, List.length_take, List.length_drop,
    List.length_cons, List.length_nil] at robbed given lengths
  omega

theorem weight_settle_lt {pool : Pool} {place : Nat} {share : List Numbered} {item : Numbered}
    {result : Except Rejection Done}
    (here : pool.workers[place]? = some ⟨share, .sending item result⟩) :
    (pool.settle place share item result).weight < pool.weight := by
  have counting : (pool.assign place ⟨share, .counting⟩).weight < pool.weight :=
    weight_assign_lt_of_activity here (show 2 < 5 by decide)
  have handing : (pool.assign place ⟨share, .handing item.row⟩).weight < pool.weight :=
    weight_assign_lt_of_activity here (show 4 < 5 by decide)
  cases result with
  | ok done => cases done <;> exact counting
  | error reason => exact handing

/-- Every move leaves less work than there was. -/
theorem weight_step {job : Job} {pool next : Pool} {move : Move}
    (stepped : Stepped job pool move next) : next.weight < pool.weight := by
  have shorter : ∀ row (queue : List (List String)), pool.queue = row :: queue →
      (pool.workers.map Worker.weight).sum + queue.length < pool.weight := by
    intro row queue waiting
    rw [Pool.weight, waiting, List.length_cons]
    omega
  have emptied : ∀ row (queue : List (List String)), pool.queue = row :: queue →
      (pool.workers.map Worker.weight).sum + 0 < pool.weight := by
    intro row queue waiting
    have less := shorter row queue waiting
    omega
  cases stepped with
  | steal poor rich behind => exact weight_steal_lt poor rich behind
  | @pick place share item here =>
      refine weight_assign_lt here ?_
      simp only [Worker.weight, Activity.weight, List.length_cons]
      omega
  | @send place share item here sent posted result verdict =>
      exact weight_assign_lt_of_activity here (show 5 < 6 by decide)
  | see here => exact weight_settle_lt here
  | @hand place share row here whole room =>
      have assigned := weight_assign here ⟨share, .counting⟩
      simp only [Pool.weight, Pool.assign, Worker.weight, Activity.weight, List.length_append,
        List.length_singleton] at assigned ⊢
      omega
  | @giveUp place share row here broken =>
      refine weight_assign_lt here ?_
      simp only [Worker.weight, Activity.weight, List.length_nil]
      omega
  | @count place share here =>
      refine weight_assign_lt_of_activity here ?_
      split <;> simp only [Activity.weight] <;> omega
  | @display place count share here =>
      exact weight_assign_lt_of_activity here (show 0 < 1 by decide)
  | @quit place share item here stopped =>
      refine weight_assign_lt here ?_
      simp only [Worker.weight, Activity.weight, List.length_cons, List.length_nil]
      omega
  | write whole waiting taken => exact shorter _ _ waiting
  | misfit whole waiting refused => exact emptied _ _ waiting
  | refuse fault whole waiting => exact emptied _ _ waiting

/-- No schedule is longer than the work that there is. -/
theorem length_add_weight_le {job : Job} {pool next : Pool} {moves : List Move}
    (reached : pool.follow job moves = some next) :
    moves.length + next.weight ≤ pool.weight := by
  induction moves generalizing pool with
  | nil =>
      cases reached
      exact Nat.le_of_eq (Nat.zero_add _)
  | cons move moves inductionHypothesis =>
      obtain ⟨middle, step, followed⟩ := Option.bind_eq_some_iff.1 reached
      have less := weight_step (stepped_of_step step)
      have rest := inductionHypothesis followed
      rw [List.length_cons]
      omega

theorem length_numberedFrom (number : Nat) (rows : List (List String)) :
    (numberedFrom number rows).length = rows.length := by
  induction rows generalizing number with
  | nil => rfl
  | cons row rows inductionHypothesis =>
      rw [numberedFrom, List.length_cons, inductionHypothesis, List.length_cons]

theorem weight_start (workers : Nat) (rows : List (List String)) (replies : List Reply)
    (errors : Table.Writer) : (Pool.start workers rows replies errors).weight = 7 * rows.length := by
  have others : (List.replicate (workers - 1) (Worker.mk [] .idle)).map Worker.weight =
      List.replicate (workers - 1) 0 := List.map_replicate
  rw [Pool.weight, Pool.start, List.map_cons, others, List.sum_cons, List.sum_replicate_nat,
    Worker.weight, length_numberedFrom]
  simp [Activity.weight]

/-! ## Possible moves -/

/-- A move that no fault of the system has a part in. -/
def Possible (job : Job) (pool : Pool) : Prop :=
  ∃ move next, (∀ fault, move ≠ .refuse fault) ∧ pool.step job move = some next

section Possible

variable (job : Job) {pool : Pool}

theorem possible_of_isSome (move : Move) (stepped : (pool.step job move).isSome = true)
    (smooth : ∀ fault, move ≠ .refuse fault := by intro fault same; cases same) :
    Possible job pool := by
  obtain ⟨next, step⟩ := Option.isSome_iff_exists.1 stepped
  exact ⟨move, next, smooth, step⟩

theorem possible_of_queue (whole : pool.broken = none) (filled : pool.queue ≠ []) :
    Possible job pool := by
  obtain ⟨row, queue, waiting⟩ := List.exists_cons_of_ne_nil filled
  refine possible_of_isSome job .write ?_
  rcases taken : pool.errors.addRow row with ⟨mismatch | done, errors⟩ <;>
    simp only [Pool.step, Pool.write, whole, waiting, taken, Option.isSome_some]

/-- A worker with a rejected row gets rid of it, or the queue is full and can be emptied, or the
error file is broken and the worker gives up. -/
theorem possible_of_handing {place : Nat} {share : List Numbered} {row : List String}
    (found : pool.workers[place]? = some ⟨share, .handing row⟩) : Possible job pool := by
  cases broken : pool.broken with
  | some refusal =>
      refine possible_of_isSome job (.hand place) ?_
      simp only [Pool.step, Pool.hand, found, broken, Option.isSome_some, if_true]
  | none =>
      by_cases room : pool.queue.length < queueBound
      · refine possible_of_isSome job (.hand place) ?_
        simp only [Pool.step, Pool.hand, found, broken, Option.isSome_none, Bool.false_eq_true,
          if_false, if_pos room, Option.isSome_some]
      · refine possible_of_queue job broken fun empty => room ?_
        rw [empty]
        exact Nat.zero_lt_succ 64

theorem possible_of_worker {place : Nat} {worker : Worker}
    (found : pool.workers[place]? = some worker) (busy : worker ≠ ⟨[], .idle⟩) :
    Possible job pool := by
  obtain ⟨share, activity⟩ := worker
  cases activity with
  | idle =>
      cases share with
      | nil => exact absurd rfl busy
      | cons item share =>
          refine possible_of_isSome job (.pick place) ?_
          simp only [Pool.step, Pool.pick, found, Option.isSome_some]
  | begun item =>
      refine possible_of_isSome job (.send place) ?_
      simp only [Pool.step, Pool.send, found, Option.isSome_some]
  | sending item result =>
      refine possible_of_isSome job (.see place) ?_
      simp only [Pool.step, Pool.see, found, Option.isSome_some]
  | handing row => exact possible_of_handing job found
  | counting =>
      refine possible_of_isSome job (.count place) ?_
      simp only [Pool.step, Pool.count, found, Option.isSome_some]
  | showing count =>
      refine possible_of_isSome job (.display place) ?_
      simp only [Pool.step, Pool.display, found, Option.isSome_some]

/-- As long as an import is not finished it can go on. -/
theorem possible_of_not_finished (unfinished : pool.finished = false) : Possible job pool := by
  by_cases idle : ∀ worker ∈ pool.workers, worker = ⟨[], .idle⟩
  · have through : pool.workers.all Worker.isThrough = true := by
      rw [List.all_eq_true]
      intro worker member
      rw [idle worker member]
      rfl
    rw [Pool.finished, through, Bool.true_and, Bool.or_eq_false_iff] at unfinished
    refine possible_of_queue job ?_ ?_
    · rw [← Option.not_isSome_iff_eq_none, unfinished.1]
      exact Bool.false_ne_true
    · exact List.isEmpty_eq_false_iff.1 unfinished.2
  · obtain ⟨worker, member, busy⟩ := not_forall₂.1 idle
    obtain ⟨place, found⟩ := List.mem_iff_getElem?.1 member
    exact possible_of_worker job found busy

/-- An import can be carried to its end from wherever it is. -/
theorem exists_finished (job : Job) (pool : Pool) :
    ∃ moves final, (∀ fault, Move.refuse fault ∉ moves) ∧
      pool.follow job moves = some final ∧ final.finished = true := by
  induction work : pool.weight using Nat.strongRecOn generalizing pool with
  | ind weight inductionHypothesis =>
      cases finished : pool.finished with
      | true => exact ⟨[], pool, fun _ => List.not_mem_nil, rfl, finished⟩
      | false =>
          obtain ⟨move, next, undisturbed, step⟩ := possible_of_not_finished job finished
          have less := weight_step (stepped_of_step step)
          obtain ⟨moves, final, later, followed, ended⟩ :=
            inductionHypothesis next.weight (work ▸ less) next rfl
          refine ⟨move :: moves, final, ?_, Option.bind_eq_some_iff.2 ⟨next, step, followed⟩, ended⟩
          intro fault member
          rcases List.mem_cons.1 member with same | member
          · exact undisturbed fault same.symm
          · exact later fault member

end Possible

/-- Every schedule of an import is at most seven moves a row long, and can be carried to the end of
the import. -/
theorem always_ends (job : Job) (workers : Nat) (rows : List (List String))
    (replies : List Reply) (errors : Table.Writer) {moves : List Move} {pool : Pool}
    (reached : (Pool.start workers rows replies errors).follow job moves = some pool) :
    moves.length ≤ 7 * rows.length ∧
      ∃ more final, (∀ fault, Move.refuse fault ∉ more) ∧
        pool.follow job more = some final ∧ final.finished = true := by
  have bounded := length_add_weight_le reached
  rw [weight_start] at bounded
  exact ⟨by omega, exists_finished job pool⟩

end RemoteRecords.Import
