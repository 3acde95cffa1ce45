import RemoteRecords.Session.Response

/-!
# What a server reports

A report is read as a whole: where its data is nothing that a detail can be looked for in, the
report counts as blank, and its message is gone with it. `keepsMessage_iff` says for which data the
message of a report comes through.
-/

namespace RemoteRecords.Session

/-! ## Reports as they are meant -/

/-- The text under `message` in the data of a report, where the data is an object. -/
def detailOf (data : Option Json) : Option String :=
  match data with
  | some (.object members) => (Fields.find? "message" members).bind Json.asString?
  | _ => none

/-- A message, with the detail behind a colon. -/
def withDetail (message : String) : Option String → String
  | some detail => message ++ ": " ++ detail
  | none => message

/-- The error in a response body comes through with the message and, where there is one, the detail
of its data. -/
def KeepsMessage (body error : Record) (message : String) : Prop :=
  resultOf (.object body) =
    .error (.remote (withDetail message (detailOf (error.find? "data"))))

/-! ## Reports as they are read -/

/-- What stands for a text, if anything. -/
def IsOptionalText (value : Option Json) : Prop :=
  value = none ∨ value = some .null ∨ ∃ text, value = some (.string text)

/-- Data that a report may have: nothing, an object whose message, if any, is a text, or a list that
has none. -/
inductive Legible : Option Json → Prop
  | missing : Legible none
  | null : Legible (some .null)
  | members {members : Record} :
      IsOptionalText (Fields.find? "message" members) → Legible (some (.object members))
  | noItem : Legible (some (.array []))
  | nullItem : Legible (some (.array [.null]))

theorem optionalText?_memberOrNull {name : String} {members : Record}
    (text : IsOptionalText (members.find? name)) :
    optionalText? (memberOrNull name members) =
      some ((members.find? name).bind Json.asString?) := by
  rw [memberOrNull]
  rcases text with missing | null | ⟨text, named⟩
  · rw [missing]
    rfl
  · rw [null]
    rfl
  · rw [named]
    rfl

theorem isOptionalText_of_optionalText? {name : String} {members : Record}
    {text : Option String} (read : optionalText? (memberOrNull name members) = some text) :
    IsOptionalText (members.find? name) := by
  rw [memberOrNull] at read
  cases found : members.find? name with
  | none => exact .inl rfl
  | some value =>
      rw [found, Option.getD_some] at read
      cases value with
      | null => exact .inr (.inl rfl)
      | string text => exact .inr (.inr ⟨text, rfl⟩)
      | _ => cases read

theorem Legible.detail? {data : Option Json} (legible : Legible data) :
    detail? (data.getD .null) = some (detailOf data) := by
  cases legible with
  | missing => rfl
  | null => rfl
  | members text => exact optionalText?_memberOrNull text
  | noItem => rfl
  | nullItem => rfl

/-- A list of one text is taken for the members of the data in their order. Nothing else that is
not legible can be read. -/
theorem detail?_of_not_legible {data : Option Json} (illegible : ¬ Legible data) :
    (detail? (data.getD .null) = none ∧ ∀ text, data ≠ some (.array [.string text])) ∨
      ∃ text, data = some (.array [.string text]) := by
  cases data with
  | none => exact absurd .missing illegible
  | some value =>
      cases value with
      | null => exact absurd .null illegible
      | object members =>
          have unread : detail? (.object members) = none := by
            rw [← Option.not_isSome_iff_eq_none, Option.isSome_iff_exists]
            rintro ⟨text, read⟩
            exact illegible (.members (isOptionalText_of_optionalText? read))
          exact .inl ⟨unread, by simp⟩
      | array items =>
          match items with
          | [] => exact absurd .noItem illegible
          | [.null] => exact absurd .nullItem illegible
          | [.string text] => exact .inr ⟨text, rfl⟩
          | [.bool _] | [.int _] | [.float _] | [.array _] | [.object _] =>
              exact .inl ⟨rfl, by simp⟩
          | _ :: _ :: _ => exact .inl ⟨rfl, by simp⟩
      | _ => exact .inl ⟨rfl, by simp⟩

theorem detailOf_of_not_legible {data : Option Json} (illegible : ¬ Legible data) :
    detailOf data = none := by
  rw [detailOf.eq_def]
  split
  · next members =>
      cases found : Fields.find? "message" members with
      | none => rfl
      | some value =>
          cases value with
          | string text => exact absurd (.members (.inr (.inr ⟨text, found⟩))) illegible
          | _ => rfl
  · rfl

/-! ## Errors as they are reported -/

section

variable {body error : Record} {message : String}

theorem text_of_message (detail : Option String) :
    Report.text ⟨some message, detail⟩ = withDetail message detail := by
  cases detail <;> simp [Report.text, withDetail, String.append_assoc]

/-- The text of an error is that of its report, and none where the data cannot be read. -/
theorem resultOf_of_message (failed : body.find? "error" = some (.object error))
    (named : error.find? "message" = some (.string message)) :
    resultOf (.object body) = .error (.remote
      (((detail? ((error.find? "data").getD .null)).map (withDetail message)).getD "")) := by
  have messageRead : optionalText? (memberOrNull "message" error) = some (some message) := by
    rw [memberOrNull, named]
    rfl
  have read : report? (.object error) =
      (detail? ((error.find? "data").getD .null)).map (Report.mk (some message)) := by
    rw [report?, messageRead, memberOrNull]
    cases detail? ((error.find? "data").getD .null) <;> rfl
  rw [resultOf, failed]
  simp only [read]
  cases detail? ((error.find? "data").getD .null) with
  | none => rfl
  | some detail => simp [text_of_message]

/-- The message of a report comes through, with its detail, exactly when the data is legible or
there is no message to lose. Of a report with other data nothing comes through or, where the data
is a list of one text, the message with this text as its detail. -/
theorem keepsMessage_iff (failed : body.find? "error" = some (.object error))
    (named : error.find? "message" = some (.string message)) :
    (KeepsMessage body error message ↔
      Legible (error.find? "data") ∨
        message = "" ∧ ∀ text, error.find? "data" ≠ some (.array [.string text])) ∧
    (¬ Legible (error.find? "data") →
      resultOf (.object body) = .error (.remote "") ∨
        ∃ text, error.find? "data" = some (.array [.string text]) ∧
          resultOf (.object body) = .error (.remote (withDetail message (some text)))) := by
  have whole := resultOf_of_message failed named
  by_cases legible : Legible (error.find? "data")
  · have kept : KeepsMessage body error message := by
      rw [legible.detail?] at whole
      exact whole
    exact ⟨iff_of_true kept (.inl legible), fun illegible => absurd legible illegible⟩
  · rw [KeepsMessage, detailOf_of_not_legible legible]
    rcases detail?_of_not_legible legible with ⟨unread, unlisted⟩ | ⟨text, listed⟩
    · have blank : resultOf (.object body) = .error (.remote "") := by
        rw [whole, unread]
        rfl
      refine ⟨?_, fun _ => .inl blank⟩
      rw [blank]
      simp [legible, unlisted, withDetail, eq_comm]
    · rw [listed] at legible ⊢
      have listedText : resultOf (.object body) =
          .error (.remote (withDetail message (some text))) := by
        rw [whole, listed]
        rfl
      have longer : withDetail message (some text) ≠ withDetail message none := by
        simp [withDetail, String.append_assoc]
      refine ⟨?_, fun _ => .inr ⟨text, rfl, listedText⟩⟩
      rw [listedText]
      simp [legible, longer]

/-- A message with a detail among other members, and one that is lost with its data. -/
theorem keepsMessage_iff_refused_login :
    let error : Record := [("code", .int 200),
      ("data", .object [("message", .string "wrong password"), ("name", .int 3)]),
      ("message", .string "Access Denied")]
    let body : Record := [("error", .object error), ("result", .int 7)]
    let other : Record := [("data", .bool false), ("message", .string "Access Denied")]
    body.find? "error" = some (.object error) ∧
      error.find? "message" = some (.string "Access Denied") ∧
      KeepsMessage body error "Access Denied" ∧
      ¬ Legible (other.find? "data") ∧
      resultOf (.object [("error", .object other)]) = .error (.remote "") := by
  intro error body other
  have failed : body.find? "error" = some (.object error) := rfl
  have named : error.find? "message" = some (.string "Access Denied") := rfl
  have text : IsOptionalText (Fields.find? "message"
      [("message", Json.string "wrong password"), ("name", .int 3)]) := .inr (.inr ⟨_, rfl⟩)
  have illegible : ¬ Legible (other.find? "data") := by
    intro legible
    cases legible
  have kept := (keepsMessage_iff failed named).1.2 (.inl (.members text))
  refine ⟨failed, named, kept, illegible, ?_⟩
  have otherFailed :
      Fields.find? "error" [("error", Json.object other)] = some (.object other) := rfl
  rcases (keepsMessage_iff otherFailed rfl).2 illegible with blank | ⟨text, listed, -⟩
  · exact blank
  · cases listed

/-- Data that is a text takes the message with it. -/
theorem not_keepsMessage_text_as_data :
    ¬ KeepsMessage
      [("error", .object [("data", .string "x"), ("message", .string "Access Denied")])]
      [("data", .string "x"), ("message", .string "Access Denied")] "Access Denied" := by
  intro kept
  have lost : resultOf (.object
      [("error", .object [("data", .string "x"), ("message", .string "Access Denied")])]) =
      .error (.remote "") := rfl
  rw [KeepsMessage, lost] at kept
  have same : "" = "Access Denied" := Error.remote.inj (Except.error.inj kept)
  exact absurd same (by decide)

end

end RemoteRecords.Session
