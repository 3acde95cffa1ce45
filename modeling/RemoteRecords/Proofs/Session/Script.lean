import RemoteRecords.Session.Basic

/-!
# Sessions against a script of replies

A call posts one request and takes one reply of the script. `replay_execute_of_uid` and
`replay_execute_of_logged_out` say this of every operation on models at once: all of them are
`execute` with a method, arguments and a way to read the result.
-/

namespace RemoteRecords.Session

namespace Dialogue

variable {α β : Type}

theorem replay_map (exhausted : Reply) (f : α → β) (dialogue : Dialogue α)
    (replies : List Reply) :
    (dialogue.map f).replay exhausted replies =
      let ended := dialogue.replay exhausted replies
      ⟨f ended.value, ended.sent, ended.unused⟩ := by
  rw [map, replay_bind]
  simp [replay]

theorem replay_post (exhausted : Reply) (request : Request) (resume : Reply → Dialogue α)
    (replies : List Reply) :
    (post request resume).replay exhausted replies =
      let ended := (resume (replies.headD exhausted)).replay exhausted replies.tail
      ⟨ended.value, request :: ended.sent, ended.unused⟩ := by
  cases replies <;> rfl

end Dialogue

/-- The result in a reply that has one: its body holds a result and no error. -/
def answer (reply : Reply) : Except Error Json := reply.bind resultOf

theorem replay_call (session : Session) (service method : String) (args : List Json)
    (exhausted : Reply) (replies : List Reply) :
    (session.call service method args).replay exhausted replies =
      ⟨answer (replies.headD exhausted), [⟨session.url, service, method, args⟩],
        replies.tail⟩ := by
  rw [call, Dialogue.replay_post]
  rfl

/-- The request of a method of a model on behalf of the user `uid`. -/
def executeRequest (session : Session) (uid : Int) (model method : String)
    (args : List Json) : Request where
  url := session.url
  service := "object"
  method := "execute"
  args :=
    [.string session.connection.database, .int uid, .string session.connection.password,
      .string model, .string method] ++ args

section Execute

variable {α : Type} (session : Session) (model method : String) (args : List Json)
  (read : Json → Except Error α) (exhausted : Reply) (replies : List Reply)

theorem replay_execute_of_uid {uid : Int} (loggedIn : session.uid = some uid) :
    (session.execute model method args read).replay exhausted replies =
      ⟨(answer (replies.headD exhausted)).bind read,
        [session.executeRequest uid model method args], replies.tail⟩ := by
  simp only [execute, loggedIn, Dialogue.replay_map, replay_call]
  rfl

theorem replay_execute_of_logged_out (loggedOut : session.uid = none) :
    (session.execute model method args read).replay exhausted replies =
      ⟨.error .notLoggedIn, [], replies⟩ := by
  simp only [execute, loggedOut, Dialogue.replay]

end Execute

end RemoteRecords.Session
