import RemoteRecords.Session.Error
import RemoteRecords.Session.Request

namespace RemoteRecords.Session

/-- What comes back from one post: a body, or the reason why there is none. -/
abbrev Reply := Except Error Json

/-- A computation that now and then posts a request and goes on with the reply. -/
inductive Dialogue (α : Type) where
  | done (value : α)
  | post (request : Request) (resume : Reply → Dialogue α)

namespace Dialogue

variable {α β : Type}

def bind (dialogue : Dialogue α) (next : α → Dialogue β) : Dialogue β :=
  match dialogue with
  | done value => next value
  | post request resume => post request fun reply => (resume reply).bind next

instance : Monad Dialogue where
  pure := done
  bind := bind

/-- The dialogue with `f` of its value. -/
def map (f : α → β) (dialogue : Dialogue α) : Dialogue β :=
  dialogue.bind fun value => done (f value)

/-! ## Replaying against a script -/

/-- A finished dialogue: its value, the requests that it posted and the replies that it left. -/
structure Replay (α : Type) where
  value : α
  sent : List Request
  unused : List Reply

/-- The dialogue with the replies of a script, in order; when none is left every further post gets
`exhausted`. -/
def replay (exhausted : Reply) : Dialogue α → List Reply → Replay α
  | done value, replies => ⟨value, [], replies⟩
  | post request resume, [] =>
      let after := (resume exhausted).replay exhausted []
      { after with sent := request :: after.sent }
  | post request resume, reply :: replies =>
      let after := (resume reply).replay exhausted replies
      { after with sent := request :: after.sent }

theorem replay_bind (exhausted : Reply) (dialogue : Dialogue α) (next : α → Dialogue β)
    (replies : List Reply) :
    (dialogue.bind next).replay exhausted replies =
      let first := dialogue.replay exhausted replies
      let second := (next first.value).replay exhausted first.unused
      ⟨second.value, first.sent ++ second.sent, second.unused⟩ := by
  induction dialogue generalizing replies with
  | done value => rfl
  | post request resume hypothesis =>
      cases replies with
      | nil => simp [bind, replay, hypothesis]
      | cons reply replies => simp [bind, replay, hypothesis]

end Dialogue

end RemoteRecords.Session
