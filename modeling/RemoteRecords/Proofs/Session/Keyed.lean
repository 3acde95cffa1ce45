import RemoteRecords.Proofs.Fields
import RemoteRecords.Proofs.Session.Script
import RemoteRecords.Session.Lookup

/-!
# Records by key

A reply lists records, some of which have a string under the wanted field and an id (`Keyed`). The
map that is made of them has the keys of these records, each with the id of the last one
(`modelMap_maps`). What else stands in the list leaves no trace.
-/

namespace RemoteRecords.Session

/-! ## Records with a key -/

/-- The value is a record with the string `key` under `field` and the 64-bit integer `id` as its
id. -/
def Keyed (field : String) (value : Json) (key : String) (id : Int) : Prop :=
  ∃ record : Record, value = .object record ∧ record.find? field = some (.string key) ∧
    record.find? "id" = some (.int id) ∧ Bounds.fits64 id = true

/-- The map has the keys of the keyed records among the items, and each key has the id of the last
record with this key. -/
structure Maps (field : String) (items : List Json) (keys : Fields Int) : Prop where
  sorted : keys.Sorted
  present : ∀ key, key ∈ keys.names ↔ ∃ item ∈ items, ∃ id, Keyed field item key id
  last : ∀ key id, keys.find? key = some id ↔
    ∃ before item after, items = before ++ item :: after ∧ Keyed field item key id ∧
      ∀ later ∈ after, ∀ other, ¬ Keyed field later key other

/-- The string under `field` and the id of a value that is a record with both. -/
def keyOf? (field : String) (value : Json) : Option (String × Int) :=
  value.asObject?.bind (keyed? field)

/-- The ids of the keyed records among the items. -/
def keysOf (field : String) (items : List Json) : Fields Int :=
  .ofPairs (items.filterMap (keyOf? field))

section Keys

variable {field : String} {items : List Json}

theorem asString?_eq_some_iff {value : Json} {text : String} :
    value.asString? = some text ↔ value = .string text := by
  cases value <;> simp [Json.asString?]

theorem keyed?_eq_some_iff {record : Record} {key : String} {id : Int} :
    keyed? field record = some (key, id) ↔
      record.find? field = some (.string key) ∧ record.find? "id" = some (.int id) ∧
        Bounds.fits64 id = true := by
  constructor
  · intro found
    obtain ⟨named, namedFound, found⟩ := Option.bind_eq_some_iff.1 found
    obtain ⟨text, isText, found⟩ := Option.bind_eq_some_iff.1 found
    obtain ⟨identified, identifiedFound, found⟩ := Option.bind_eq_some_iff.1 found
    obtain ⟨number, isNumber, found⟩ := Option.bind_eq_some_iff.1 found
    obtain ⟨rfl, rfl⟩ := Prod.mk.inj (Option.some.inj found)
    obtain ⟨rfl, fits⟩ := Json.asInt64?_eq_some_iff.1 isNumber
    rw [asString?_eq_some_iff.1 isText] at namedFound
    exact ⟨namedFound, identifiedFound, fits⟩
  · rintro ⟨named, identified, fits⟩
    have isText := asString?_eq_some_iff.2 (rfl : Json.string key = .string key)
    have isNumber := Json.asInt64?_eq_some_iff.2 ⟨(rfl : Json.int id = .int id), fits⟩
    simp [keyed?, named, identified, isText, isNumber]

theorem keyOf?_eq_some_iff {value : Json} {key : String} {id : Int} :
    keyOf? field value = some (key, id) ↔ Keyed field value key id := by
  cases value with
  | object record =>
      constructor
      · exact fun found => ⟨record, rfl, keyed?_eq_some_iff.1 found⟩
      · rintro ⟨_, same, keyed⟩
        cases same
        exact keyed?_eq_some_iff.2 keyed
  | _ =>
      constructor
      · intro found
        cases found
      · rintro ⟨_, same, -⟩
        cases same

theorem last_keyOf?_iff {key : String} {id : Int} :
    (keysOf field items).find? key = some id ↔
      ∃ before item after, items = before ++ item :: after ∧ Keyed field item key id ∧
        ∀ later ∈ after, ∀ other, ¬ Keyed field later key other := by
  rw [keysOf, Fields.find?_ofPairs_eq_some_iff]
  constructor
  · rintro ⟨front, back, pairs, last⟩
    obtain ⟨before, rest, rfl, -, pairs⟩ := List.filterMap_eq_append_iff.1 pairs
    obtain ⟨between, item, after, rfl, -, found, rfl⟩ := List.filterMap_eq_cons_iff.1 pairs
    refine ⟨before ++ between, item, after, by simp, keyOf?_eq_some_iff.1 found, ?_⟩
    intro later member other keyed
    exact last (List.mem_map.2 ⟨_, List.mem_filterMap.2
      ⟨later, member, keyOf?_eq_some_iff.2 keyed⟩, rfl⟩)
  · rintro ⟨before, item, after, rfl, keyed, last⟩
    refine ⟨before.filterMap (keyOf? field), after.filterMap (keyOf? field), ?_, ?_⟩
    · rw [List.filterMap_append, List.filterMap_cons_some (keyOf?_eq_some_iff.2 keyed)]
    · intro member
      obtain ⟨⟨name, other⟩, found, rfl⟩ := List.mem_map.1 member
      obtain ⟨later, held, found⟩ := List.mem_filterMap.1 found
      exact last later held other (keyOf?_eq_some_iff.1 found)

theorem maps_keysOf (field : String) (items : List Json) :
    Maps field items (keysOf field items) := by
  refine ⟨Fields.sorted_ofPairs _, fun key => ?_, fun key id => last_keyOf?_iff⟩
  rw [keysOf, Fields.mem_names_ofPairs]
  constructor
  · intro member
    obtain ⟨⟨name, id⟩, found, rfl⟩ := List.mem_map.1 member
    obtain ⟨item, held, found⟩ := List.mem_filterMap.1 found
    exact ⟨item, held, id, keyOf?_eq_some_iff.1 found⟩
  · rintro ⟨item, held, id, keyed⟩
    exact List.mem_map.2
      ⟨(key, id), List.mem_filterMap.2 ⟨item, held, keyOf?_eq_some_iff.2 keyed⟩, rfl⟩

/-- An item that is no keyed record leaves no trace. -/
theorem keysOf_of_not_keyed {before after : List Json} {idle : Json}
    (unkeyed : ∀ key id, ¬ Keyed field idle key id) :
    keysOf field (before ++ idle :: after) = keysOf field (before ++ after) := by
  have silent : keyOf? field idle = none := by
    rw [Option.eq_none_iff_forall_not_mem]
    rintro ⟨key, id⟩ found
    exact unkeyed key id (keyOf?_eq_some_iff.1 found)
  rw [keysOf, keysOf, List.filterMap_append, List.filterMap_cons_none silent,
    List.filterMap_append]

end Keys

/-! ## The operation -/

section Operation

variable {session : Session} {uid : Int} (loggedIn : session.uid = some uid)
  (model field : String) (exhausted : Reply) (replies : List Reply)

include loggedIn

theorem replay_modelMap :
    (session.modelMap model field).replay exhausted replies =
      ⟨((answer (replies.headD exhausted)).bind recordsOf).map fun records =>
          .ofPairs (records.filterMap (keyed? field)),
        [session.executeRequest uid (Model.serverName model) "search_read"
          [.array [], .array [.string field], .int 0, .int 0]],
        replies.tail⟩ := by
  rw [modelMap, Dialogue.replay_map, searchRead, replay_execute_of_uid _ _ _ _ _ _ _ loggedIn]
  rfl

theorem value_modelMap_of_array {items : List Json}
    (given : answer (replies.headD exhausted) = .ok (.array items)) :
    ((session.modelMap model field).replay exhausted replies).value = .ok (keysOf field items) := by
  rw [replay_modelMap loggedIn, given]
  simp only [Except.bind, recordsOf, Except.map, List.filterMap_filterMap]
  rfl

end Operation

/-- A session with a user asks for all records of a model, with just the one field, and makes the
map of the keyed ones; items that are no keyed record make no difference to it. A result that is no
list is refused, and an error in the reply is passed on. -/
theorem modelMap_maps {session : Session} {uid : Int} (loggedIn : session.uid = some uid)
    (model field : String) (exhausted : Reply) (replies : List Reply) :
    let mapped := (session.modelMap model field).replay exhausted replies
    let named := String.ofList (model.toList.map fun c => if c = '_' then '.' else c)
    mapped.sent = [⟨session.url, "object", "execute",
      [.string session.connection.database, .int uid, .string session.connection.password,
        .string named, .string "search_read", .array [], .array [.string field], .int 0,
        .int 0]⟩] ∧
    mapped.unused = replies.tail ∧
    (∀ items, answer (replies.headD exhausted) = .ok (.array items) →
      (∃ keys, mapped.value = .ok keys ∧ Maps field items keys) ∧
        ∀ before idle after other, items = before ++ idle :: after →
          (∀ key id, ¬ Keyed field idle key id) →
          answer other = .ok (.array (before ++ after)) →
            ((session.modelMap model field).replay exhausted [other]).value = mapped.value) ∧
    (∀ result, answer (replies.headD exhausted) = .ok result →
      (∀ items, result ≠ .array items) →
        ∃ text, mapped.value = .error (.unexpectedResponse text)) ∧
    ∀ error, answer (replies.headD exhausted) = .error error → mapped.value = .error error := by
  intro mapped named
  refine ⟨?_, ?_, ?_, ?_, ?_⟩
  · simp only [mapped, replay_modelMap loggedIn]
    rfl
  · simp only [mapped, replay_modelMap loggedIn]
  · intro items given
    have value : mapped.value = .ok (keysOf field items) :=
      value_modelMap_of_array loggedIn model field exhausted replies given
    refine ⟨⟨_, value, maps_keysOf field items⟩, ?_⟩
    rintro before idle after other rfl unkeyed otherGiven
    rw [value, value_modelMap_of_array loggedIn model field exhausted [other] otherGiven,
      keysOf_of_not_keyed unkeyed]
  · intro result given noList
    simp only [mapped, replay_modelMap loggedIn, given]
    cases result with
    | array items => exact absurd rfl (noList items)
    | _ => exact ⟨_, rfl⟩
  · intro error given
    simp only [mapped, replay_modelMap loggedIn, given]
    rfl

/-- A later record of the same key counts, but not one whose id is too large or no number. -/
theorem modelMap_maps_malformed_records :
    let session : Session := ⟨.default, "http://localhost:8069/jsonrpc", some 7⟩
    let items : List Json :=
      [.object [("code", .string "BE"), ("id", .int 1)], .null,
        .object [("code", .string "BE"), ("id", .int 5)],
        .object [("code", .string "BE"), ("id", .int 9223372036854775808)],
        .object [("code", .bool false), ("id", .int 2)],
        .object [("code", .string "AT"), ("id", .int (-3))], .array [.string "BE", .int 6]]
    let reply : Reply := .ok (.object [("result", .array items)])
    let mapped := (session.modelMap "res_country" "code").replay (.error .post) [reply]
    session.uid = some 7 ∧ answer reply = .ok (.array items) ∧
      mapped.sent.map (fun request => request.args.length) = [9] ∧
      mapped.value = .ok [("AT", -3), ("BE", 5)] ∧
      Maps "code" items [("AT", -3), ("BE", 5)] := by
  intro session items reply mapped
  have loggedIn : session.uid = some 7 := rfl
  have given : answer reply = .ok (.array items) := rfl
  have value : mapped.value = .ok [("AT", -3), ("BE", 5)] := rfl
  obtain ⟨sent, -, listed, -⟩ :=
    modelMap_maps loggedIn "res_country" "code" (.error .post) [reply]
  obtain ⟨⟨keys, found, maps⟩, -⟩ := listed items given
  cases value.symm.trans found
  exact ⟨loggedIn, given, congrArg (List.map fun request => request.args.length) sent, value, maps⟩

end RemoteRecords.Session
