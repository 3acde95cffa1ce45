import RemoteRecords.Proofs.Fields
import RemoteRecords.Proofs.Filter.Rereading
import RemoteRecords.Proofs.Json.Compact
import RemoteRecords.Proofs.Session.History
import RemoteRecords.Proofs.Text.Encoding

/-!
# What a server is sent for a filter

Terms and nodes of all kinds are lists in the wire form, and a field may be spelled like the mark of
a connective; what stands behind the first text tells them apart. So filters can be told apart by
what is posted for them (`wire_determines`).
-/

namespace RemoteRecords.Filter

open Json (Textual)

/-! ## The wire form -/

theorem textual_ofStrings (texts : List String) : Textual (.ofStrings texts) :=
  .array (List.forall_mem_map.2 fun text _ => .string text)

theorem Node.textual_wire (node : Node) : Textual node.wire := by
  have term : ∀ term : Term, Textual term.wire := fun _ => textual_ofStrings _
  cases node with
  | leaf own => exact term own
  | binary connective left right =>
      refine .array ?_
      simp only [List.forall_mem_cons]
      exact ⟨.string _, term left, term right, List.forall_mem_nil _⟩
  | negation operand =>
      refine .array ?_
      simp only [List.forall_mem_cons]
      exact ⟨.string _, term operand, List.forall_mem_nil _⟩

theorem textual_wire (filter : Filter) : Textual filter.wire :=
  .array (List.forall_mem_map.2 fun node _ => node.textual_wire)

theorem Term.wire_inj {first second : Term} : first.wire = second.wire ↔ first = second := by
  cases first
  cases second
  simp [Term.wire, Json.ofStrings, Comparator.text_inj]

theorem Node.wire_inj {first second : Node} : first.wire = second.wire ↔ first = second := by
  cases first with
  | leaf term =>
      cases second with
      | leaf other => simp [Node.wire, Term.wire_inj]
      | _ => simp [Node.wire, Term.wire, Json.ofStrings]
  | binary connective left right =>
      cases second with
      | leaf other => simp [Node.wire, Term.wire, Json.ofStrings]
      | binary => simp [Node.wire, Term.wire_inj, Connective.text_inj]
      | negation => simp [Node.wire]
  | negation operand =>
      cases second with
      | leaf other => simp [Node.wire, Term.wire, Json.ofStrings]
      | binary => simp [Node.wire]
      | negation => simp [Node.wire, Term.wire_inj]

theorem wire_inj {left right : Filter} : left.wire = right.wire ↔ left = right := by
  constructor
  · intro same
    injection same with same
    obtain ⟨leftNodes⟩ := left
    obtain ⟨rightNodes⟩ := right
    rw [Filter.mk.injEq]
    exact List.map_injective_iff.2 (fun _ _ => Node.wire_inj.1) same
  · exact congrArg wire

theorem compactChars_wire_inj {left right : Filter} :
    Json.compactChars left.wire = Json.compactChars right.wire ↔ left = right := by
  constructor
  · intro same
    exact wire_inj.1 (left.textual_wire.compactChars_inj right.textual_wire same)
  · rintro rfl
    rfl

end RemoteRecords.Filter

namespace RemoteRecords.Session

/-! ## Posted bodies -/

theorem Request.envelope_eq (request : Request) (number : Nat) :
    request.envelope number =
      .object [("id", .ofNat number), ("jsonrpc", .string "2.0"), ("method", .string "call"),
        ("params", .object [("args", .array request.args), ("method", .string request.method),
          ("service", .string request.service)])] := by
  have params : request.params = .object [("args", .array request.args),
      ("method", .string request.method), ("service", .string request.service)] := by
    simp only [Request.params, Json.ofMembers, Fields.ofPairs, List.foldl_cons, List.foldl_nil]
    rw [Fields.insert, Fields.insert_before (by decide), Fields.insert_before (by decide)]
  have call : request.call = [("jsonrpc", .string "2.0"), ("method", .string "call"),
      ("params", request.params)] := by
    simp only [Request.call, Fields.ofPairs, List.foldl_cons, List.foldl_nil]
    rw [Fields.insert, Fields.insert_behind (by decide) (by decide), Fields.insert,
      Fields.insert_behind (by decide) (by decide), Fields.insert_behind (by decide) (by decide),
      Fields.insert]
  rw [Request.envelope, call, Fields.insert_before (by decide), params]

theorem Request.body_inj {url service method : String} {args others : List Json} {number : Nat} :
    Request.body ⟨url, service, method, args⟩ number =
        Request.body ⟨url, service, method, others⟩ number ↔
      Json.compactChars (.array args) = Json.compactChars (.array others) := by
  rw [body, body, Bytes.ofText_inj, Json.compact_inj, envelope_eq, envelope_eq]
  simp [Json.compactChars, Json.compactMembers]

/-- The requests of a user on a model differ when the filters in them do. -/
theorem body_executeRequest_inj {session : Session} {uid : Int} {model method : String}
    {more : List Json} {number : Nat} {left right : Filter} :
    (session.executeRequest uid model method (left.wire :: more)).body number =
        (session.executeRequest uid model method (right.wire :: more)).body number ↔
      left = right := by
  have args : ∀ filter : Filter, ([.string session.connection.database, .int uid,
      .string session.connection.password, .string model, .string method] : List Json) ++
        filter.wire :: more =
      .string session.connection.database :: ([.int uid, .string session.connection.password,
        .string model, .string method] ++ filter.wire :: more) := fun _ => rfl
  rw [executeRequest, executeRequest, Request.body_inj, args, args, Json.compactChars_array_inj,
    Filter.compactChars_wire_inj]

/-! ## Questions -/

/-- What can be asked about the records of a model that pass a filter. -/
inductive Question where
  | searchRead (model : String) (offset limit : Nat) (fields : List String)
  | search (model : String)
  | getId (model : String)
  | count (model : String)

def Question.operation (filter : Filter) : Question → Operation
  | .searchRead model offset limit fields => .searchRead model filter offset limit fields
  | .search model => .search model filter
  | .getId model => .getId model filter
  | .count model => .count model filter

/-- The bodies that an operation posts under a number, when it meets the given replies. -/
def posted (session : Session) (operation : Operation) (number : Nat) (exhausted : Reply)
    (replies : List Reply) : List Bytes :=
  ((session.perform operation).replay exhausted replies).sent.map fun request =>
    request.body number

/-- The filter that goes to the server: a count without a filter is one of all records. -/
def Question.effective (filter : Filter) : Question → Filter
  | .count _ => if filter.isEmpty then everyRecord else filter
  | _ => filter

theorem Question.exists_target (question : Question) :
    ∃ model method more, ∀ filter, (question.operation filter).target? =
      some ⟨model, method, (question.effective filter).wire :: more⟩ := by
  cases question with
  | searchRead model offset limit fields => exact ⟨model, _, _, fun _ => rfl⟩
  | search model => exact ⟨model, _, _, fun _ => rfl⟩
  | getId model => exact ⟨model, _, _, fun _ => rfl⟩
  | count model => exact ⟨model, _, _, fun _ => rfl⟩

/-- No text spells the filter that every record passes. -/
theorem not_wellFormed_everyRecord : ¬ everyRecord.WellFormed := by
  intro wellFormed
  have value := (wellFormed.nodes _ List.mem_cons_self _ List.mem_cons_self).value
  have minus := value '-' (by decide)
  rw [← Filter.isWord_iff, ← Filter.isAsciiBlank_iff] at minus
  exact absurd minus (by decide)

theorem Question.effective_inj {question : Question} {left right : Filter}
    (leftWellFormed : left.WellFormed) (rightWellFormed : right.WellFormed) :
    question.effective left = question.effective right ↔ left = right := by
  have eq_empty : ∀ filter : Filter, filter.isEmpty = true → filter = .empty := by
    rintro ⟨nodes⟩ nothing
    cases nodes with
    | nil => rfl
    | cons => cases nothing
  refine ⟨fun same => ?_, congrArg question.effective⟩
  cases question with
  | count model =>
      simp only [effective] at same
      split_ifs at same with leftEmpty rightEmpty rightEmpty
      · rw [eq_empty left leftEmpty, eq_empty right rightEmpty]
      · exact absurd (same ▸ rightWellFormed) not_wellFormed_everyRecord
      · exact absurd (same ▸ leftWellFormed) not_wellFormed_everyRecord
      · exact same
  | _ => exact same

/-- A question of a user posts one body, and this tells the filter. -/
theorem exists_posted {session : Session} {uid : Int} (loggedIn : session.uid = some uid)
    (question : Question) (number : Nat) (exhausted : Reply) (replies : List Reply) :
    ∃ body : Filter → Bytes,
      (∀ filter, session.posted (question.operation filter) number exhausted replies =
        [body filter]) ∧
      ∀ left right, body left = body right ↔
        question.effective left = question.effective right := by
  obtain ⟨model, method, more, found⟩ := question.exists_target
  refine ⟨fun filter => (session.executeRequest uid model method
    ((question.effective filter).wire :: more)).body number, ?_, ?_⟩
  · intro filter
    rw [posted, replay_perform_of_uid _ _ _ (found filter) loggedIn]
    rfl
  · exact fun _ _ => body_executeRequest_inj

end RemoteRecords.Session

namespace RemoteRecords.Filter

open Session (Question Reply)

theorem text_inj_of_parse {first second : String} {left right : Filter}
    (leftRead : parse first = .ok left) (rightRead : parse second = .ok right) :
    left.text = right.text ↔ left = right := by
  refine ⟨fun same => ?_, congrArg text⟩
  have settles := (roundTrips_of_phrases parse_iff_phrase FilterPhrase.wellFormed WellFormed.phrase
    FilterPhrase.written toList_text).settles
  have read := (settles first left leftRead).1
  rw [same, (settles second right rightRead).1, Except.ok.injEq] at read
  exact read.symm

/-- Filters are equal when their wire forms have equal texts. For two texts that are read, a user
posts equal bodies exactly when they are read as equal filters, and exactly when these have equal
texts. -/
theorem wire_determines :
    (∀ left right : Filter, left.wire.compact = right.wire.compact ↔ left = right) ∧
    ∀ {first second : String} {left right : Filter},
      parse first = .ok left → parse second = .ok right →
        (∀ {session : Session} {uid : Int}, session.uid = some uid →
          ∀ (question : Question) (number : Nat) (exhausted : Reply) (replies : List Reply),
            ∃ body other,
              session.posted (question.operation left) number exhausted replies = [body] ∧
              session.posted (question.operation right) number exhausted replies = [other] ∧
              (body = other ↔ left = right)) ∧
        (left = right ↔ left.text = right.text) := by
  constructor
  · intro left right
    rw [Json.compact_inj, compactChars_wire_inj]
  · intro first second left right leftRead rightRead
    obtain ⟨_, -, leftPhrase⟩ := parse_iff_phrase.1 leftRead
    obtain ⟨_, -, rightPhrase⟩ := parse_iff_phrase.1 rightRead
    refine ⟨?_, (text_inj_of_parse leftRead rightRead).symm⟩
    intro session uid loggedIn question number exhausted replies
    obtain ⟨body, posted, inj⟩ :=
      Session.exists_posted loggedIn question number exhausted replies
    refine ⟨body left, body right, posted left, posted right, ?_⟩
    rw [inj, Question.effective_inj leftPhrase.wellFormed rightPhrase.wellFormed]

theorem wire_determines_two_names :
    let azure := ofTerm ⟨"name", .equal, "Azure"⟩
    let deco := ofTerm ⟨"name", .equal, "Deco"⟩
    let session : Session := ⟨.default, "http://localhost:8069/jsonrpc", some 7⟩
    parse "('name','=','Azure')" = .ok azure ∧ parse "[('name', '=', 'Deco ')]" = .ok deco ∧
      session.uid = some 7 ∧
      ∃ body other,
        session.posted ((Question.search "res.partner").operation azure) 1 (.error .post) [] =
          [body] ∧
        session.posted ((Question.search "res.partner").operation deco) 1 (.error .post) [] =
          [other] ∧
        body ≠ other := by
  intro azure deco session
  have azureRead : parse "('name','=','Azure')" = .ok azure := by decide +kernel
  have decoRead : parse "[('name', '=', 'Deco ')]" = .ok deco := by decide +kernel
  have loggedIn : session.uid = some 7 := rfl
  refine ⟨azureRead, decoRead, loggedIn, ?_⟩
  obtain ⟨body, other, first, second, same⟩ :=
    (wire_determines.2 azureRead decoRead).1 loggedIn (.search "res.partner") 1 (.error .post) []
  exact ⟨body, other, first, second, fun equal => absurd (same.1 equal) (by decide)⟩

end RemoteRecords.Filter
