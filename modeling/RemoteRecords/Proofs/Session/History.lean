import RemoteRecords.Proofs.Session.Script
import RemoteRecords.Session.Operation
import Mathlib.Data.List.Basic

/-!
# Histories of sessions

Every operation but logging in and a raw call is a method of a model (`perform_eq_execute`), so two
lemmas cover them all, one with a user and one without. A history is what operations have met and
left when they are performed one behind the other; each of its events conforms to what the
connection and the events before it allow (`history_conforms`).
-/

namespace RemoteRecords.Session

/-! ## Targets -/

/-- What is asked of a model: a method and its arguments. -/
structure Target where
  model : String
  method : String
  args : List Json

namespace Operation

/-- The target of an operation on a model. Logging in and a raw call have none. -/
def target? : Operation → Option Target
  | .login => none
  | .call _ _ _ => none
  | .create model record => some ⟨model, "create", [.object record]⟩
  | .load model header rows =>
      some ⟨model, "load", [.ofStrings header, .array (rows.map .ofStrings)]⟩
  | .searchRead model filter offset limit fields =>
      some ⟨model, "search_read",
        [filter.wire, .ofStrings fields, .ofNat offset, .ofNat limit]⟩
  | .search model filter => some ⟨model, "search", [filter.wire]⟩
  | .searchWhere model domain => some ⟨model, "search", [domain]⟩
  | .getId model filter => some ⟨model, "search", [filter.wire]⟩
  | .getIdWhere model domain => some ⟨model, "search", [domain]⟩
  | .read model ids fields => some ⟨model, "read", [.array (ids.map .int), .ofStrings fields]⟩
  | .update model id record => some ⟨model, "write", [.int id, .object record]⟩
  | .unlink model ids => some ⟨model, "unlink", [.array (ids.map .int)]⟩
  | .count model filter =>
      some ⟨model, "search_count", [(if filter.isEmpty then everyRecord else filter).wire]⟩
  | .modelMap model field =>
      some ⟨Model.serverName model, "search_read",
        [Filter.empty.wire, .ofStrings [field], .ofNat 0, .ofNat 0]⟩
  | .companyId name => some ⟨"res.company", "search", [.array [nameIs name]]⟩
  | .partnerId name => some ⟨"res.partner", "search", [.array [nameIs name]]⟩
  | .countryId name => some ⟨"res.country", "search", [.array [nameIs name]]⟩
  | .stateId country name =>
      some ⟨"res.country.state", "search", [.array [nameIs name, countryIs country]]⟩
  | .fiscalPositionId country name =>
      some ⟨"account.fiscal.position", "search",
        [.array [countryIs country, .ofStrings ["name", "like", name]]]⟩

/-- What an operation makes of the result in its reply. -/
def decode : Operation → Json → Except Error Json
  | .login, result => (uidOf result).map .int
  | .call _ _ _, result => .ok result
  | .load _ _ _, result => .ok result
  | .create _ _, result | .count _ _, result => (numberOf result).map .int
  | .searchRead _ _ _ _ _, result | .read _ _ _, result => (recordsOf result).map ofRecords
  | .search _ _, result | .searchWhere _ _, result => (idsOf result).map ofIds
  | .update _ _ _, result | .unlink _ _, result => (flagOf result).map .bool
  | .modelMap _ field, result =>
      (recordsOf result).map fun records =>
        ofKeys (.ofPairs (records.filterMap (keyed? field)))
  | _, result => (idsOf result).map fun ids => ofId? ids.head?

end Operation

/-! ## One operation -/

namespace Dialogue

variable {α β γ : Type}

theorem map_map (f : α → β) (g : β → γ) (dialogue : Dialogue α) :
    (dialogue.map f).map g = dialogue.map fun value => g (f value) := by
  induction dialogue with
  | done value => rfl
  | post request resume inductionHypothesis =>
      simp only [map, bind] at inductionHypothesis ⊢
      simp only [inductionHypothesis]

end Dialogue

theorem map_map_result {α β γ : Type} (f : α → β) (g : β → γ) (result : Except Error α) :
    (result.map f).map g = result.map fun value => g (f value) := by
  cases result <;> rfl

theorem map_bind_result {α β γ : Type} (read : α → Except Error β) (f : β → γ)
    (result : Except Error α) :
    (result.bind read).map f = result.bind fun value => (read value).map f := by
  cases result <;> rfl

section Execute

variable {α β : Type} (session : Session) (model method : String) (args : List Json)
  (read : Json → Except Error α)

theorem map_execute (f : α → β) :
    (session.execute model method args read).map (fun result => result.map f) =
      session.execute model method args fun result => (read result).map f := by
  cases user : session.uid with
  | none => simp [execute, user, Dialogue.map, Dialogue.bind, Except.map]
  | some uid =>
      simp only [execute, user, Dialogue.map_map, map_bind_result]

theorem answerWith_execute (encode : α → Json) :
    session.answerWith encode (session.execute model method args read) =
      (session.execute model method args fun result => (read result).map encode).map
        fun answer => (answer, session) := by
  rw [← map_execute, Dialogue.map_map]
  rfl

end Execute

theorem answerWith_getIdWhere (session : Session) (model : String) (domain : Json) :
    session.answerWith ofId? (session.getIdWhere model domain) =
      (session.execute model "search" [domain] fun result =>
        (idsOf result).map fun ids => ofId? ids.head?).map fun answer => (answer, session) := by
  rw [getIdWhere, searchWhere, map_execute, answerWith_execute]
  simp only [map_map_result]

theorem answerWith_modelMap (session : Session) (model field : String) :
    session.answerWith ofKeys (session.modelMap model field) =
      (session.execute (Model.serverName model) "search_read"
        [Filter.empty.wire, .ofStrings [field], .ofNat 0, .ofNat 0] fun result =>
          (recordsOf result).map fun records =>
            ofKeys (.ofPairs (records.filterMap (keyed? field)))).map
        fun answer => (answer, session) := by
  rw [modelMap, searchRead, map_execute, answerWith_execute]
  simp only [map_map_result]

theorem perform_eq_execute (session : Session) {operation : Operation} {target : Target}
    (found : operation.target? = some target) :
    session.perform operation =
      (session.execute target.model target.method target.args operation.decode).map
        fun answer => (answer, session) := by
  cases operation with
  | login => cases found
  | call service method args => cases found
  | getId model filter => cases found; exact answerWith_getIdWhere session model _
  | getIdWhere model domain => cases found; exact answerWith_getIdWhere session model _
  | companyId name => cases found; exact answerWith_getIdWhere session _ _
  | partnerId name => cases found; exact answerWith_getIdWhere session _ _
  | countryId name => cases found; exact answerWith_getIdWhere session _ _
  | stateId country name => cases found; exact answerWith_getIdWhere session _ _
  | fiscalPositionId country name => cases found; exact answerWith_getIdWhere session _ _
  | modelMap model field => cases found; exact answerWith_modelMap session model field
  | _ => cases found; exact answerWith_execute session _ _ _ _ _

section OneOperation

variable (session : Session) (exhausted : Reply) (replies : List Reply)

theorem replay_perform_of_logged_out {operation : Operation} {target : Target}
    (found : operation.target? = some target) (loggedOut : session.uid = none) :
    (session.perform operation).replay exhausted replies =
      ⟨(.error .notLoggedIn, session), [], replies⟩ := by
  rw [perform_eq_execute session found, Dialogue.replay_map,
    replay_execute_of_logged_out _ _ _ _ _ _ _ loggedOut]

theorem replay_perform_of_uid {operation : Operation} {target : Target} {uid : Int}
    (found : operation.target? = some target) (loggedIn : session.uid = some uid) :
    (session.perform operation).replay exhausted replies =
      ⟨((answer (replies.headD exhausted)).bind operation.decode, session),
        [session.executeRequest uid target.model target.method target.args], replies.tail⟩ := by
  rw [perform_eq_execute session found, Dialogue.replay_map,
    replay_execute_of_uid _ _ _ _ _ _ _ loggedIn]

theorem replay_perform_call (service method : String) (args : List Json) :
    (session.perform (.call service method args)).replay exhausted replies =
      ⟨((answer (replies.headD exhausted)).bind
          (Operation.call service method args).decode, session),
        [⟨session.url, service, method, args⟩], replies.tail⟩ := by
  rw [perform, answerWith, Dialogue.replay_map, replay_call]
  cases answer (replies.headD exhausted) <;> rfl

/-- The request of a login with the connection's credentials. -/
def loginRequest (connection : Connection) (url : String) : Request where
  url := url
  service := "common"
  method := "login"
  args := [.string connection.database, .string connection.username, .string connection.password]

theorem replay_perform_login :
    (session.perform .login).replay exhausted replies =
      let given := (answer (replies.headD exhausted)).bind uidOf
      ⟨(given.map .int, session.afterLogin given),
        [loginRequest session.connection session.url], replies.tail⟩ := by
  rw [perform, Dialogue.replay_map, login, Dialogue.replay_map, replay_call]
  rfl

end OneOperation

/-! ## Histories -/

/-- An operation that has been performed, with what it met and what it left. -/
structure Event where
  operation : Operation
  before : Session
  available : List Reply
  answer : Except Error Json
  after : Session
  sent : List Request
  unused : List Reply

/-- What happens when a session performs an operation. -/
def event (exhausted : Reply) (session : Session) (operation : Operation)
    (replies : List Reply) : Event :=
  let ended := (session.perform operation).replay exhausted replies
  ⟨operation, session, replies, ended.value.1, ended.value.2, ended.sent, ended.unused⟩

/-- What happens when operations are performed one behind the other. -/
def history (exhausted : Reply) (session : Session) : List Operation → List Reply → List Event
  | [], _ => []
  | operation :: operations, replies =>
      let first := session.event exhausted operation replies
      first :: history exhausted first.after operations first.unused

/-- The user id that a successful login has given. -/
def Event.login? (event : Event) : Option Int :=
  match event.operation, event.answer with
  | .login, .ok (.int uid) => some uid
  | _, _ => none

/-- The user id of the most recent successful login. -/
def lastLogin (events : List Event) : Option Int :=
  (events.filterMap Event.login?).getLast?

theorem lastLogin_concat (past : List Event) (event : Event) :
    lastLogin (past ++ [event]) = event.login?.or (lastLogin past) := by
  cases given : event.login? <;> simp [lastLogin, given]

/-- An event asks the server what its operation has to ask on behalf of the user, and takes its
answer from the reply. -/
structure Exchanges (connection : Connection) (url : String) (exhausted : Reply)
    (event : Event) : Prop where
  silent : event.operation.target?.isSome = true → event.before.uid = none →
    event.answer = .error .notLoggedIn ∧ event.sent = [] ∧ event.unused = event.available
  posted : event.operation.target? = none ∨ event.before.uid.isSome = true →
    (∃ request, event.sent = [request] ∧ request.url = url) ∧
      event.unused = event.available.tail ∧
      event.answer = (answer (event.available.headD exhausted)).bind event.operation.decode
  executed : ∀ target uid, event.operation.target? = some target → event.before.uid = some uid →
    event.sent = [⟨url, "object", "execute",
      [.string connection.database, .int uid, .string connection.password,
        .string target.model, .string target.method] ++ target.args⟩]
  loggedIn : event.operation = .login → event.sent = [loginRequest connection url]
  called : ∀ service method args, event.operation = .call service method args →
    event.sent = [⟨url, service, method, args⟩]

/-- An event is one that may stand behind the events of the past: its session is that of the most
recent successful login, and only a successful login changes it. -/
structure Conforms (connection : Connection) (url : String) (exhausted : Reply)
    (past : List Event) (event : Event) : Prop where
  before : event.before = ⟨connection, url, lastLogin past⟩
  after : event.after = ⟨connection, url, lastLogin (past ++ [event])⟩
  unchanged : event.login? = none → event.after = event.before
  login : ∀ uid, event.login? = some uid ↔ event.operation = .login ∧
    answer (event.available.headD exhausted) = .ok (.int uid) ∧ Bounds.fits64 uid = true
  exchanges : Exchanges connection url exhausted event

/-! ## One event -/

theorem Operation.target?_eq_none_iff {operation : Operation} :
    operation.target? = none ↔
      operation = .login ∨ ∃ service method args, operation = .call service method args := by
  cases operation <;> simp [target?]

theorem Event.login?_of_ne {event : Event} (other : event.operation ≠ .login) :
    event.login? = none := by
  rw [login?]
  split
  · next same _ => exact absurd same other
  · rfl

section Step

variable {connection : Connection} {url : String} {exhausted : Reply} {past : List Event}

theorem Conforms.of_login?_eq_none {event : Event} (failed : event.login? = none)
    (before : event.before = ⟨connection, url, lastLogin past⟩)
    (after : event.after = event.before)
    (refused : event.operation = .login → ∀ uid, Bounds.fits64 uid = true →
      answer (event.available.headD exhausted) ≠ .ok (.int uid))
    (exchanges : Exchanges connection url exhausted event) :
    Conforms connection url exhausted past event := by
  refine ⟨before, ?_, fun _ => after, ?_, exchanges⟩
  · rw [after, before, lastLogin_concat, failed, Option.none_or]
  · intro uid
    rw [failed]
    exact ⟨fun given => (by cases given),
      fun ⟨same, given, fits⟩ => absurd given (refused same uid fits)⟩

theorem Conforms.of_ne_login {event : Event} (other : event.operation ≠ .login)
    (before : event.before = ⟨connection, url, lastLogin past⟩)
    (after : event.after = event.before)
    (exchanges : Exchanges connection url exhausted event) :
    Conforms connection url exhausted past event :=
  .of_login?_eq_none (Event.login?_of_ne other) before after
    (fun same => absurd same other) exchanges

theorem exchanges_of_logged_out {operation : Operation} {target : Target}
    (found : operation.target? = some target) (replies : List Reply) :
    Exchanges connection url exhausted ⟨operation, ⟨connection, url, none⟩, replies,
      .error .notLoggedIn, ⟨connection, url, none⟩, [], replies⟩ := by
  refine ⟨fun _ _ => ⟨rfl, rfl, rfl⟩, ?_, ?_, ?_, ?_⟩
  · rintro (absent | present)
    · cases found.symm.trans absent
    · cases present
  · intro _ uid _ present
    cases present
  · rintro rfl
    cases found
  · rintro service method args rfl
    cases found

theorem exchanges_of_uid {session : Session} {operation : Operation} {target : Target}
    {uid : Int} (found : operation.target? = some target) (replies : List Reply) :
    Exchanges connection url exhausted ⟨operation, ⟨connection, url, some uid⟩, replies,
      (answer (replies.headD exhausted)).bind operation.decode, session,
      [executeRequest ⟨connection, url, some uid⟩ uid target.model target.method target.args],
      replies.tail⟩ := by
  refine ⟨?_, fun _ => ⟨⟨_, rfl, rfl⟩, rfl, rfl⟩, ?_, ?_, ?_⟩
  · intro _ absent
    cases absent
  · intro asked _ same present
    cases found.symm.trans same
    cases present
    rfl
  · rintro rfl
    cases found
  · rintro service method args rfl
    cases found

theorem bind_decode_login (result : Except Error Json) :
    result.bind Operation.login.decode = (result.bind uidOf).map .int :=
  (map_bind_result uidOf Json.int result).symm

theorem exchanges_login {session after : Session} (replies : List Reply) :
    Exchanges connection url exhausted ⟨.login, session, replies,
      ((answer (replies.headD exhausted)).bind uidOf).map .int, after,
      [loginRequest connection url], replies.tail⟩ := by
  refine ⟨?_, fun _ => ⟨⟨_, rfl, rfl⟩, rfl, (bind_decode_login _).symm⟩, ?_, fun _ => rfl, ?_⟩
  · intro present
    cases present
  · intro target _ present
    cases present
  · intro service method args same
    cases same

theorem exchanges_call {session after : Session} (service method : String) (args : List Json)
    (replies : List Reply) :
    Exchanges connection url exhausted ⟨.call service method args, session, replies,
      (answer (replies.headD exhausted)).bind (Operation.call service method args).decode, after,
      [⟨url, service, method, args⟩], replies.tail⟩ := by
  refine ⟨?_, fun _ => ⟨⟨_, rfl, rfl⟩, rfl, rfl⟩, ?_, ?_, ?_⟩
  · intro present
    cases present
  · intro target _ present
    cases present
  · intro same
    cases same
  · intro _ _ _ same
    cases same
    rfl

theorem bind_uidOf_eq_ok_iff {result : Except Error Json} {uid : Int} :
    result.bind uidOf = .ok uid ↔ result = .ok (.int uid) ∧ Bounds.fits64 uid = true := by
  cases result with
  | error error => simp [Except.bind]
  | ok value =>
      have read : (Except.ok value).bind uidOf = .ok uid ↔ value.asInt64? = some uid := by
        simp only [Except.bind, uidOf]
        cases value.asInt64? <;> simp
      rw [read, Json.asInt64?_eq_some_iff, Except.ok.injEq]

theorem conforms_login (replies : List Reply) :
    Conforms connection url exhausted past
      (event exhausted ⟨connection, url, lastLogin past⟩ .login replies) := by
  rw [event, replay_perform_login]
  have exchanges (after : Session) : Exchanges connection url exhausted
      ⟨.login, ⟨connection, url, lastLogin past⟩, replies,
        ((answer (replies.headD exhausted)).bind uidOf).map .int, after,
        [loginRequest connection url], replies.tail⟩ :=
    exchanges_login replies
  cases given : (answer (replies.headD exhausted)).bind uidOf with
  | error error =>
      rw [given] at exchanges
      refine .of_login?_eq_none rfl rfl rfl ?_ (exchanges _)
      intro _ uid fits held
      cases given.symm.trans (bind_uidOf_eq_ok_iff.2 ⟨held, fits⟩)
  | ok uid =>
      rw [given] at exchanges
      obtain ⟨held, fits⟩ := bind_uidOf_eq_ok_iff.1 given
      refine ⟨rfl, ?_, ?_, ?_, exchanges _⟩
      · rw [lastLogin_concat]
        rfl
      · intro failed
        cases failed
      · intro other
        constructor
        · intro same
          cases same
          exact ⟨rfl, held, fits⟩
        · rintro ⟨-, again, -⟩
          cases held.symm.trans again
          rfl

theorem conforms_event (operation : Operation) (replies : List Reply) :
    Conforms connection url exhausted past
      (event exhausted ⟨connection, url, lastLogin past⟩ operation replies) := by
  cases found : operation.target? with
  | some target =>
      have other : operation ≠ .login := by
        rintro rfl
        cases found
      cases user : lastLogin past with
      | none =>
          rw [event, replay_perform_of_logged_out _ _ _ found rfl]
          exact .of_ne_login other (user ▸ rfl) rfl (exchanges_of_logged_out found replies)
      | some uid =>
          rw [event, replay_perform_of_uid _ _ _ found rfl]
          exact .of_ne_login other (user ▸ rfl) rfl (exchanges_of_uid found replies)
  | none =>
      rcases Operation.target?_eq_none_iff.1 found with rfl | ⟨service, method, args, rfl⟩
      · exact conforms_login replies
      · rw [event, replay_perform_call]
        have other : Operation.call service method args ≠ .login := by
          intro same
          cases same
        exact .of_ne_login other rfl rfl (exchanges_call service method args replies)

end Step

/-! ## Whole histories -/

section Run

variable {connection : Connection} {url : String} (exhausted : Reply)

theorem map_operation_history (session : Session) (operations : List Operation)
    (replies : List Reply) :
    (history exhausted session operations replies).map Event.operation = operations := by
  induction operations generalizing session replies with
  | nil => rfl
  | cons operation operations inductionHypothesis =>
      rw [history, List.map_cons, inductionHypothesis]
      rfl

theorem Exchanges.unused_eq_drop {event : Event}
    (exchanges : Exchanges connection url exhausted event) :
    event.unused = event.available.drop event.sent.length := by
  cases found : event.operation.target? with
  | none =>
      obtain ⟨⟨request, sent, -⟩, unused, -⟩ := exchanges.posted (.inl found)
      rw [unused, sent, List.length_singleton, List.drop_one]
  | some target =>
      cases user : event.before.uid with
      | none =>
          obtain ⟨-, sent, unused⟩ := exchanges.silent (by rw [found]; rfl) user
          rw [unused, sent]
          rfl
      | some uid =>
          obtain ⟨⟨request, sent, -⟩, unused, -⟩ := exchanges.posted (.inr (by rw [user]; rfl))
          rw [unused, sent, List.length_singleton, List.drop_one]

theorem history_conforms_behind (past : List Event) (operations : List Operation)
    (replies : List Reply) {front future : List Event} {event : Event}
    (split : history exhausted ⟨connection, url, lastLogin past⟩ operations replies =
      front ++ event :: future) :
    event.available = replies.drop (front.flatMap Event.sent).length ∧
      Conforms connection url exhausted (past ++ front) event := by
  -- What happens behind the first event happens behind a longer past and with fewer replies.
  induction operations generalizing past replies front with
  | nil =>
      cases front <;> cases split
  | cons operation operations inductionHypothesis =>
      have first : Conforms connection url exhausted past
          (Session.event exhausted ⟨connection, url, lastLogin past⟩ operation replies) :=
        conforms_event operation replies
      cases front with
      | nil =>
          cases split
          rw [List.append_nil]
          exact ⟨rfl, first⟩
      | cons head front =>
          obtain ⟨rfl, rest⟩ := List.cons.inj split
          rw [first.after] at rest
          obtain ⟨available, conforms⟩ := inductionHypothesis _ _ rest
          rw [List.append_assoc] at conforms
          refine ⟨?_, conforms⟩
          rw [available, first.exchanges.unused_eq_drop, List.flatMap_cons, List.length_append,
            ← List.drop_drop]
          rfl

end Run

/-- A connection with an endpoint has a session, and whatever operations it performs against
whatever replies, each takes the replies that those before it have left and conforms to the events
before it. -/
theorem history_conforms {connection : Connection} {url : String}
    (valid : connection.endpoint = .ok url) :
    ∃ session, start connection = .ok session ∧ session.uid = none ∧
      ∀ exhausted operations replies,
        let events := history exhausted session operations replies
        events.map Event.operation = operations ∧
          ∀ past event future, events = past ++ event :: future →
            event.available = replies.drop (past.flatMap Event.sent).length ∧
              Conforms connection url exhausted past event := by
  refine ⟨⟨connection, url, none⟩, ?_, rfl, ?_⟩
  · rw [start, valid]
  · intro exhausted operations replies events
    refine ⟨map_operation_history exhausted _ operations replies, ?_⟩
    intro past event future split
    exact history_conforms_behind exhausted [] operations replies split

theorem history_conforms_failed_login :
    let operations : List Operation :=
      [.unlink "res.partner" [5], .login, .unlink "res.partner" [5], .login, .companyId "Azure"]
    let replies : List Reply :=
      [.ok (.object [("result", .int 7)]), .ok (.object [("result", .bool true)]),
        .ok (.object [("result", .bool false)]), .error .post]
    let url := "http://localhost:8069/jsonrpc"
    let events := history (.error .post) ⟨.default, url, none⟩ operations replies
    Connection.default.endpoint = .ok url ∧
      events.map (fun event => event.after.uid) = [none, some 7, some 7, some 7, some 7] ∧
      events.map (fun event => event.sent.length) = [0, 1, 1, 1, 1] ∧
      ∀ past event future, events = past ++ event :: future →
        Conforms .default url (.error .post) past event := by
  intro operations replies url events
  have valid : Connection.default.endpoint = .ok url := by decide +kernel
  obtain ⟨session, started, -, conforms⟩ := history_conforms valid
  rw [start, valid] at started
  cases started
  refine ⟨valid, rfl, rfl, ?_⟩
  intro past event future split
  exact ((conforms (.error .post) operations replies).2 past event future split).2

end RemoteRecords.Session
