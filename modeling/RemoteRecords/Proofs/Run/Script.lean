import RemoteRecords.Proofs.Session.History
import RemoteRecords.Run.Basic

/-!
# Commands against a script of replies

A step that fails ends the command there; the steps behind it neither post nor take anything.
Connecting posts one request, a login, exactly when the settings give a connection with an endpoint
(`Connects`), and goes on exactly when the reply is a user id (`LogsIn`).
-/

namespace RemoteRecords.Run

open Session (Reply Request answer loginRequest)

variable {platform : Platform}

/-! ## Steps -/

section Steps

variable {α β : Type} (exhausted : Reply) {step : Step α} {next : α → Step β}
  {replies unused : List Reply} {sent : List Request}

theorem replay_andThen_of_ok {value : α}
    (ended : step.replay exhausted replies = ⟨.ok value, sent, unused⟩) :
    (andThen step next).replay exhausted replies =
      let later := (next value).replay exhausted unused
      ⟨later.value, sent ++ later.sent, later.unused⟩ := by
  rw [andThen, Session.Dialogue.replay_bind, ended]

theorem replay_andThen_of_error {failure : Failure}
    (ended : step.replay exhausted replies = ⟨.error failure, sent, unused⟩) :
    (andThen step next).replay exhausted replies = ⟨.error failure, sent, unused⟩ := by
  rw [andThen, Session.Dialogue.replay_bind, ended]
  simp [Session.Dialogue.replay]

theorem given_ok (value : α) (next : α → Step β) : given (.ok value) next = next value := rfl

theorem given_error (failure : Failure) (next : α → Step β) :
    given (.error failure) next = .done (.error failure) := rfl

theorem replay_done (value : α) (replies : List Reply) :
    (Session.Dialogue.done value).replay exhausted replies = ⟨value, [], replies⟩ := by
  rw [Session.Dialogue.replay]

/-- The outcome of a command that has come to its end or failed on the way. -/
def outcomeFrom (surroundings : Surroundings platform) : Except Failure Outcome → Outcome
  | .ok outcome => outcome
  | .error failure => .failed surroundings.files failure

theorem replay_finish (surroundings : Surroundings platform) (step : Step Outcome)
    (replies : List Reply) :
    (finish surroundings step).replay exhausted replies =
      let ended := step.replay exhausted replies
      ⟨outcomeFrom surroundings ended.value, ended.sent, ended.unused⟩ := by
  rw [finish, Session.Dialogue.replay_map]
  rfl

end Steps

/-! ## Connecting -/

/-- The settings of an invocation load, and the connection that they give has an endpoint. -/
structure Connects (surroundings : Surroundings platform) (invocation : Invocation)
    (connection : Connection) (url : String) : Prop where
  settings : Settings.load surroundings.files surroundings.environment (some invocation.config)
    invocation.overrides platform.formats = .ok connection
  endpoint : connection.endpoint = .ok url

/-- The next reply gives a user id. -/
def LogsIn (exhausted : Reply) (replies : List Reply) (uid : Int) : Prop :=
  answer (replies.headD exhausted) = .ok (.int uid) ∧ Bounds.fits64 uid = true

section Connect

variable {surroundings : Surroundings platform} {invocation : Invocation} {connection : Connection}
  {url : String} {exhausted : Reply} {replies : List Reply}

theorem Connects.unique {other : Connection} {otherUrl : String}
    (first : Connects surroundings invocation connection url)
    (second : Connects surroundings invocation other otherUrl) :
    connection = other ∧ url = otherUrl := by
  cases Except.ok.inj (first.settings.symm.trans second.settings)
  exact ⟨rfl, Except.ok.inj (first.endpoint.symm.trans second.endpoint)⟩

theorem LogsIn.unique {uid other : Int} (first : LogsIn exhausted replies uid)
    (second : LogsIn exhausted replies other) : uid = other := by
  cases first.1.symm.trans second.1
  rfl

theorem Connects.sessionOf_eq (connects : Connects surroundings invocation connection url) :
    sessionOf surroundings invocation = .ok ⟨connection, url, none⟩ := by
  rw [sessionOf, connectionOf, connects.settings]
  simp only [Except.mapError, Session.start, connects.endpoint]

theorem exists_connects_of_sessionOf {session : Session}
    (prepared : sessionOf surroundings invocation = .ok session) :
    ∃ connection url, Connects surroundings invocation connection url := by
  rw [sessionOf, connectionOf] at prepared
  cases loaded : Settings.load surroundings.files surroundings.environment
      (some invocation.config) invocation.overrides platform.formats with
  | error fault =>
      rw [loaded] at prepared
      cases prepared
  | ok connection =>
      rw [loaded] at prepared
      simp only [Except.mapError, Session.start] at prepared
      cases reached : connection.endpoint with
      | error fault =>
          rw [reached] at prepared
          cases prepared
      | ok url => exact ⟨connection, url, loaded, reached⟩

theorem connect_of_not_connects
    (lacking : ∀ connection url, ¬ Connects surroundings invocation connection url) :
    ∃ failure, connect surroundings invocation = .done (.error failure) := by
  rw [connect]
  cases prepared : sessionOf surroundings invocation with
  | error failure => exact ⟨failure, rfl⟩
  | ok session =>
      obtain ⟨connection, url, connects⟩ := exists_connects_of_sessionOf prepared
      exact absurd connects (lacking connection url)

theorem Connects.replay_connect (connects : Connects surroundings invocation connection url) :
    (connect surroundings invocation).replay exhausted replies =
      ⟨match (answer (replies.headD exhausted)).bind Session.uidOf with
        | .ok uid => .ok ⟨connection, url, some uid⟩
        | .error error => .error (.login error),
        [loginRequest connection url], replies.tail⟩ := by
  rw [connect, connects.sessionOf_eq, given_ok, login, Session.Dialogue.replay_map, Session.login,
    Session.Dialogue.replay_map, Session.replay_call]
  dsimp only
  cases (answer (replies.headD exhausted)).bind Session.uidOf <;> rfl

theorem Connects.replay_connect_of_logsIn
    (connects : Connects surroundings invocation connection url) {uid : Int}
    (given : LogsIn exhausted replies uid) :
    (connect surroundings invocation).replay exhausted replies =
      ⟨.ok ⟨connection, url, some uid⟩, [loginRequest connection url], replies.tail⟩ := by
  rw [connects.replay_connect, Session.bind_uidOf_eq_ok_iff.2 given]

theorem Connects.replay_connect_of_refused
    (connects : Connects surroundings invocation connection url)
    (refused : ∀ uid, ¬ LogsIn exhausted replies uid) :
    ∃ error, (connect surroundings invocation).replay exhausted replies =
      ⟨.error (.login error), [loginRequest connection url], replies.tail⟩ := by
  rw [connects.replay_connect]
  cases given : (answer (replies.headD exhausted)).bind Session.uidOf with
  | ok uid => exact absurd (Session.bind_uidOf_eq_ok_iff.1 given) (refused uid)
  | error error => exact ⟨error, rfl⟩

end Connect

end RemoteRecords.Run
