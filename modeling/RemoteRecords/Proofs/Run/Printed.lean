import RemoteRecords.Proofs.Json.Indented
import RemoteRecords.Proofs.Run.Fetched

/-!
# Printed records

A query that fetches records prints them (`value_of_fetches`), and they are the objects of the reply,
in their order and without anything else that stands between them (`Fetches.exists_items`). What is
printed is one indented text with a line end, and reading it gives the list of these objects again
(`printed_reads_back`).
-/

namespace RemoteRecords

open Json (Everywhere IntegerOnly MembersSorted Indents Kept nesting nesting_part_lt)

/-! ## Listings -/

/-- The value is an object. -/
def Json.isObject (value : Json) : Bool := value.asObject?.isSome

/-- The numbers in the value are integers of 64 bits, with a sign or without, and its objects have
their members in the order of their names. -/
structure Regular (value : Json) : Prop where
  integers : Everywhere IntegerOnly value
  sorted : Everywhere MembersSorted value

/-- The output is one indented text of the list of the values, with a line end behind it. With and
without this line end it is read as the list, by every reader that goes as deep as the list does. -/
structure Shows (values : List Json) (output : String) : Prop where
  indented : ∃ text, output = text ++ "\n" ∧ Indents 0 (.array values) text.toList ∧
    ∀ depth, nesting (.array values) ≤ depth → Json.parse? depth text = some (.array values)
  readBack : ∀ depth, nesting (.array values) ≤ depth →
    Json.parse? depth output = some (.array values)

namespace Listing

theorem foldl_add (listing : Listing) (records : List Record) :
    records.foldl add listing = ⟨listing.records ++ records, listing.output⟩ := by
  induction records generalizing listing with
  | nil => rw [List.append_nil]; rfl
  | cons record records inductionHypothesis =>
      rw [List.foldl_cons, inductionHypothesis, add, List.append_assoc]
      rfl

/-- Records that are added one by one are printed as one list. -/
theorem output_finish (records : List Record) :
    (records.foldl add start).finish.output = render records := by
  rw [foldl_add, finish]
  exact String.empty_append

theorem shows_render {records : List Record}
    (regular : ∀ record ∈ records, Regular (.object record)) :
    Shows (records.map .object) (render records) := by
  have integers : Everywhere IntegerOnly (.array (records.map .object)) :=
    .intro trivial (List.forall_mem_map.2 fun record member => (regular record member).integers)
  have sorted : Everywhere MembersSorted (.array (records.map .object)) :=
    .intro trivial (List.forall_mem_map.2 fun record member => (regular record member).sorted)
  have reads (depth : Nat) (shallow : nesting (.array (records.map .object)) ≤ depth) :=
    Json.parse?_of_takes (Json.takes_indentedChars integers sorted 0 shallow)
  refine ⟨⟨(Json.array (records.map .object)).indented, rfl, ?_, ?_⟩, ?_⟩
  · rw [Json.indented, String.toList_ofList]
    exact Json.indents_indentedChars 0 _
  · exact fun depth shallow => (reads depth shallow).1
  · exact fun depth shallow => (reads depth shallow).2

end Listing

namespace Run

open Session (Reply answer)

/-! ## What is in a reply -/

/-- The objects among the items. -/
theorem map_filterMap_asObject? (items : List Json) :
    (items.filterMap Json.asObject?).map Json.object = items.filter Json.isObject := by
  induction items with
  | nil => rfl
  | cons item items inductionHypothesis =>
      cases item with
      | object members => exact congrArg (Json.object members :: ·) inductionHypothesis
      | _ => exact inductionHypothesis

/-- The result is one of the members of the body. -/
theorem kept_of_answer {depth : Nat} {body result : Json} (kept : Kept depth body)
    (answered : answer (.ok body) = .ok result) : Kept depth result := by
  have resulting : Session.resultOf body = .ok result := answered
  rw [Session.resultOf.eq_def] at resulting
  split at resulting
  · next members =>
      split at resulting
      · cases resulting
      · split at resulting
        · next found =>
            cases resulting
            exact kept.part (List.mem_map_of_mem (Fields.mem_of_find?_eq_some found))
        · cases resulting
  · cases resulting

theorem kept_filter {depth : Nat} {items : List Json} (kept : Kept depth (.array items))
    (chosen : Json → Bool) : Kept depth (.array (items.filter chosen)) := by
  cases depth with
  | zero => exact absurd kept.2 (Nat.not_succ_le_zero _)
  | succ depth =>
      refine .array fun item member => ?_
      have held := (List.mem_filter.1 member).1
      obtain ⟨⟨-, itemsSorted⟩, shallow⟩ := kept
      exact ⟨itemsSorted item held, Nat.le_of_lt_succ ((nesting_part_lt held).trans_le shallow)⟩

theorem recordsOf_eq_ok_iff {result : Json} {records : List Record} :
    Session.recordsOf result = .ok records ↔
      ∃ items, result = .array items ∧ items.filterMap Json.asObject? = records := by
  cases result with
  | array items => simp [Session.recordsOf]
  | _ => simp [Session.recordsOf]

/-! ## Queries -/

section Query

variable {surroundings : Surroundings} {invocation : Invocation} {selection : Selection}
  {exhausted : Reply} {replies : List Reply} {records : List Record}

theorem Fetches.exists_items
    (fetched : Fetches surroundings invocation selection none exhausted replies records) :
    ∃ items, answer (replies.tail.headD exhausted) = .ok (.array items) ∧
      records.map .object = items.filter Json.isObject := by
  obtain ⟨-, -, came⟩ := fetched
  obtain ⟨result, answered, listed⟩ := bind_eq_ok_iff.1 came
  obtain ⟨items, rfl, rfl⟩ := recordsOf_eq_ok_iff.1 listed
  exact ⟨items, answered, map_filterMap_asObject? items⟩

variable (asked : invocation.command = .query selection)

include asked

theorem value_of_fetches
    (fetched : Fetches surroundings invocation selection none exhausted replies records) :
    ((run surroundings invocation).replay exhausted replies).value =
      .printed surroundings.files (Listing.render records) := by
  obtain ⟨⟨filter, connection, url, prepared⟩, ⟨uid, given⟩, came⟩ := fetched
  have command : invocation.command = fetching selection none := asked
  rw [replay_run_of_logsIn command prepared rfl given, came]
  rfl

theorem exists_fetches_of_query
    (succeeds : ((run surroundings invocation).replay exhausted replies).value.result = .ok ()) :
    ∃ records, Fetches surroundings invocation selection none exhausted replies records := by
  have command : invocation.command = fetching selection none := asked
  by_cases ready : ∃ filter connection url,
      Prepared surroundings invocation selection none filter connection url
  · obtain ⟨filter, connection, url, prepared⟩ := ready
    by_cases given : ∃ uid, LogsIn exhausted replies uid
    · obtain ⟨uid, given⟩ := given
      rw [replay_run_of_logsIn command prepared rfl given] at succeeds
      cases found : (answer (replies.tail.headD exhausted)).bind Session.recordsOf with
      | error error =>
          rw [found] at succeeds
          cases succeeds
      | ok records => exact ⟨records, ⟨filter, connection, url, prepared⟩, ⟨uid, given⟩, found⟩
    · have refused : ∀ uid, ¬ LogsIn exhausted replies uid := fun uid held => given ⟨uid, held⟩
      obtain ⟨failure, stopped⟩ := replay_run_of_refused command prepared refused
      rw [stopped] at succeeds
      cases succeeds
  · have lacking : ∀ filter connection url,
        ¬ Prepared surroundings invocation selection none filter connection url :=
      fun filter connection url prepared => ready ⟨filter, connection, url, prepared⟩
    obtain ⟨failure, stopped⟩ := replay_run_of_unprepared command lacking
    rw [stopped] at succeeds
    cases succeeds

end Query

/-- Whatever regular records a listing collects, it prints them as one indented text that is read as
the list of them. A query ends well exactly when it fetches records, and prints them in this way:
they are the objects of the result, without any other item of it. The objects of a reply that has
come as a text are regular when their numbers are 64-bit integers, and the output is nested no
deeper than the reader of such texts goes. -/
theorem printed_reads_back :
    (∀ records : List Record, (∀ record ∈ records, Regular (.object record)) →
      Shows (records.map .object) (records.foldl Listing.add Listing.start).finish.output) ∧
    ∀ (surroundings : Surroundings) invocation selection exhausted replies,
      invocation.command = .query selection →
      let ended := (run surroundings invocation).replay exhausted replies
      (ended.value.result = .ok () ↔
        ∃ records, Fetches surroundings invocation selection none exhausted replies records) ∧
      ∀ records, Fetches surroundings invocation selection none exhausted replies records →
        ended.value.output = (records.foldl Listing.add Listing.start).finish.output ∧
        ∃ items, answer (replies.tail.headD exhausted) = .ok (.array items) ∧
          records.map .object = items.filter Json.isObject ∧
          ((∀ item ∈ items.filter Json.isObject, Regular item) →
            Shows (items.filter Json.isObject) ended.value.output) ∧
          ∀ text body, Json.ofText? text = some body → replies.tail.headD exhausted = .ok body →
            (∀ item ∈ items.filter Json.isObject, Everywhere IntegerOnly item) →
            (∀ item ∈ items.filter Json.isObject, Regular item) ∧
              Json.ofText? ended.value.output = some (.array (items.filter Json.isObject)) := by
  constructor
  · intro records regular
    rw [Listing.output_finish]
    exact Listing.shows_render regular
  · intro surroundings invocation selection exhausted replies asked ended
    refine ⟨⟨exists_fetches_of_query asked, ?_⟩, ?_⟩
    · rintro ⟨records, fetched⟩
      have whole : ended.value = _ := value_of_fetches asked fetched
      rw [whole]
      rfl
    · intro records fetched
      have whole : ended.value = _ := value_of_fetches asked fetched
      have output : ended.value.output = Listing.render records := by
        rw [whole]
        rfl
      obtain ⟨items, answered, objects⟩ := fetched.exists_items
      have shows (regular : ∀ item ∈ items.filter Json.isObject, Regular item) :
          Shows (items.filter Json.isObject) ended.value.output := by
        rw [← objects] at regular ⊢
        have shown := Listing.shows_render (List.forall_mem_map.1 regular)
        rwa [← output] at shown
      rw [Listing.output_finish]
      refine ⟨output, items, answered, objects, shows, ?_⟩
      intro text body read came integers
      rw [came] at answered
      obtain ⟨⟨-, sorted⟩, shallow⟩ :=
        kept_filter (kept_of_answer (Json.kept_of_parse? read) answered) Json.isObject
      have regular (item : Json) (member : item ∈ items.filter Json.isObject) : Regular item :=
        ⟨integers item member, sorted item member⟩
      exact ⟨regular, (shows regular).readBack Json.documentDepth shallow⟩

theorem printed_reads_back_nested_values :
    let surroundings : Surroundings := ⟨⟨["work"], [], []⟩, []⟩
    let selection : Selection := ⟨"res_partner", none, none, 0, 0⟩
    let invocation : Invocation := ⟨.ofText "config.yml", .none, none, false, .query selection⟩
    let text :=
      "\x7b\"result\":[\x7b\"b\":[[],-1],\"a\":\"\\n\"\x7d,0,\x7b\"id\":18446744073709551615\x7d]\x7d"
    let first : Record := [("a", .string "\n"), ("b", .array [.array [], .int (-1)])]
    let second : Record := [("id", .int 18446744073709551615)]
    let body : Json := .object [("result", .array [.object first, .int 0, .object second])]
    let replies : List Reply := [.ok (.object [("result", .int 7)]), .ok body]
    let ended := (run surroundings invocation).replay (.error .post) replies
    let printed := ([first, second].foldl Listing.add Listing.start).finish.output
    Regular (.object first) ∧ Regular (.object second) ∧ Json.ofText? text = some body ∧
      ended.value.result = .ok () ∧ ended.value.output = printed ∧
      Shows [.object first, .object second] printed ∧
      Json.ofText? printed = some (.array [.object first, .object second]) := by
  intro surroundings selection invocation text first second body replies ended printed
  have asked : invocation.command = .query selection := rfl
  have succeeds : ended.value.result = .ok () := by
    have succeeded : ended.value.result.isOk = true := by decide +kernel
    cases result : ended.value.result with
    | ok value => rfl
    | error failure =>
        rw [result] at succeeded
        cases succeeded
  have read : Json.ofText? text = some body := by
    simp only [text, body, first, second]
    rfl
  have integers : ∀ item ∈ [Json.object first, .object second], Everywhere IntegerOnly item := by
    have text : Everywhere IntegerOnly (.string "\n") := .of_plain trivial rfl
    have negative : Everywhere IntegerOnly (.int (-1)) := .of_plain ⟨by decide, by decide⟩ rfl
    have large : Everywhere IntegerOnly (.int 18446744073709551615) :=
      .of_plain ⟨by decide, by decide⟩ rfl
    simp [first, second, IntegerOnly, text, negative, large]
  obtain ⟨shown, queried⟩ := printed_reads_back
  obtain ⟨ends, printing⟩ :=
    queried surroundings invocation selection (.error .post) replies asked
  obtain ⟨records, fetched⟩ := ends.1 succeeds
  obtain ⟨output, items, answered, objects, -, came⟩ := printing records fetched
  cases answered
  have chosen : [Json.object first, .int 0, .object second].filter Json.isObject =
      [first, second].map Json.object := rfl
  rw [chosen] at objects came
  cases (List.map_inj_right fun _ _ => Json.object.inj).1 objects
  obtain ⟨regular, printedRead⟩ := came text body read rfl integers
  have regularRecords := List.forall_mem_map.1 regular
  obtain ⟨firstRegular, later⟩ := List.forall_mem_cons.1 regularRecords
  rw [output] at printedRead
  exact ⟨firstRegular, later second List.mem_cons_self, read, succeeds, output,
    shown [first, second] regularRecords, printedRead⟩

end Run

end RemoteRecords
