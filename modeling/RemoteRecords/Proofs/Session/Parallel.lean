import Mathlib.Data.List.Forall2
import RemoteRecords.Session.Dialogue

/-!
# Dialogues side by side

Two dialogues are parallel when they post requests in relation one for one, whatever is replied,
and end with values in relation. The relation carries over from the parts of a dialogue to the whole
(`Parallel.bind`), and a script shows no more of the difference than the relations allow
(`Parallel.replay`).
-/

namespace RemoteRecords.Session.Dialogue

/-- Requests in relation, reply by reply, and values in relation at the end. -/
inductive Parallel {α β : Type} (asks : Request → Request → Prop) (gives : α → β → Prop) :
    Dialogue α → Dialogue β → Prop where
  | done {value : α} {twin : β} (given : gives value twin) :
      Parallel asks gives (.done value) (.done twin)
  | post {request twin : Request} {resume : Reply → Dialogue α} {resumeTwin : Reply → Dialogue β}
      (asked : asks request twin)
      (go : ∀ reply, Parallel asks gives (resume reply) (resumeTwin reply)) :
      Parallel asks gives (.post request resume) (.post twin resumeTwin)

namespace Parallel

variable {α β γ δ : Type} {asks : Request → Request → Prop} {gives : α → β → Prop}
  {ends : γ → δ → Prop} {dialogue : Dialogue α} {twin : Dialogue β}

theorem bind {next : α → Dialogue γ} {nextTwin : β → Dialogue δ}
    (parallel : Parallel asks gives dialogue twin)
    (go : ∀ value other, gives value other → Parallel asks ends (next value) (nextTwin other)) :
    Parallel asks ends (dialogue.bind next) (twin.bind nextTwin) := by
  induction parallel with
  | done given => exact go _ _ given
  | post asked _ inductionHypothesis => exact .post asked inductionHypothesis

theorem map {f : α → γ} {g : β → δ} (parallel : Parallel asks gives dialogue twin)
    (go : ∀ value other, gives value other → ends (f value) (g other)) :
    Parallel asks ends (dialogue.map f) (twin.map g) :=
  parallel.bind fun value other given => .done (go value other given)

/-- Against one script, parallel dialogues take the same replies. -/
theorem replay (parallel : Parallel asks gives dialogue twin) (exhausted : Reply)
    (replies : List Reply) :
    gives (dialogue.replay exhausted replies).value (twin.replay exhausted replies).value ∧
      (twin.replay exhausted replies).unused = (dialogue.replay exhausted replies).unused ∧
      List.Forall₂ asks (dialogue.replay exhausted replies).sent
        (twin.replay exhausted replies).sent := by
  induction parallel generalizing replies with
  | done given => exact ⟨given, rfl, .nil⟩
  | post asked _ inductionHypothesis =>
      cases replies with
      | nil =>
          obtain ⟨given, left, sent⟩ := inductionHypothesis exhausted []
          exact ⟨given, left, .cons asked sent⟩
      | cons reply replies =>
          obtain ⟨given, left, sent⟩ := inductionHypothesis reply replies
          exact ⟨given, left, .cons asked sent⟩

end Parallel

end RemoteRecords.Session.Dialogue
