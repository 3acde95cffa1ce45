import Mathlib.Data.List.Forall2
import RemoteRecords.Proofs.Settings.Winners

/-!
# The password among the settings

Two loads whose sources differ in the text of the password alone fail alike or give connections that
differ in the password alone (`load_agree`). A password on the command line, or else the one of the
last variable for it, is the password of the connection (`load_password`); this holds without any
condition on the keys, since a key that leads into the password leaves no text there.
-/

namespace RemoteRecords

/-- The connection with another password. -/
def Connection.withPassword (connection : Connection) (password : String) : Connection :=
  { connection with password }

@[simp] theorem Connection.endpoint_withPassword (connection : Connection) (password : String) :
    (connection.withPassword password).endpoint = connection.endpoint := rfl

theorem Connection.description_withPassword (connection : Connection) (password : String) :
    (connection.withPassword password).description = connection.description := rfl

namespace Settings

/-! ## Sources that differ in the password -/

/-- One entry, or two texts from one place. -/
inductive Entry.Alike : Entry → Entry → Prop where
  | same (entry : Entry) : Alike entry entry
  | texts (text other : String) (origin : Option Origin) :
      Alike ⟨.string text, origin⟩ ⟨.string other, origin⟩

/-- The same entry under the same key, up to the text of a password. -/
inductive DifferInText : String × Entry → String × Entry → Prop where
  | same (entry : String × Entry) : DifferInText entry entry
  | password (text other : String) (origin : Option Origin) :
      DifferInText ("password", ⟨.string text, origin⟩) ("password", ⟨.string other, origin⟩)

/-- The same settings, up to the text of the password. -/
structure DifferInPassword (settings twin : Settings) : Prop where
  elsewhere : ∀ name, name ≠ "password" → twin.find? name = settings.find? name
  password : Option.Rel Entry.Alike (settings.find? "password") (twin.find? "password")

/-- The same variables, up to the texts of those for the password. -/
def VariablesDifferInPassword (environment twin : List (String × String)) : Prop :=
  List.Forall₂ (fun named other => other.1 = named.1 ∧
    (variableKey? named.1 = some "password" ∨ other.2 = named.2)) environment twin

/-- The same overrides, up to the text of the password. -/
structure Overrides.DifferInPassword (overrides twin : Overrides) : Prop where
  elsewhere : twin = { overrides with password := twin.password }
  given : twin.password.isSome = overrides.password.isSome

theorem DifferInPassword.refl (settings : Settings) : DifferInPassword settings settings := by
  refine ⟨fun _ _ => rfl, ?_⟩
  cases settings.find? "password" with
  | none => exact .none
  | some entry => exact .some (.same entry)

theorem graft_eq_of_alike {entry twin : Option Entry} (alike : Option.Rel Entry.Alike entry twin)
    (step : Step) : graft step twin = graft step entry := by
  cases alike with
  | none => rfl
  | some alike =>
      cases alike with
      | same => rfl
      | texts => cases step <;> rfl

theorem splitKey_password : splitKey "password" = ("password", []) :=
  splitKey_of_plain (plain_name .password)

theorem DifferInPassword.insert_same {settings twin : Settings}
    (differ : DifferInPassword settings twin) (name : String) (entry : Entry) :
    DifferInPassword (settings.insert name entry) (twin.insert name entry) := by
  constructor
  · intro other notPassword
    rw [Fields.find?_insert, Fields.find?_insert, differ.elsewhere other notPassword]
  · rw [Fields.find?_insert, Fields.find?_insert]
    split
    · exact .some (.same entry)
    · exact differ.password

theorem DifferInPassword.set {settings twin : Settings} (differ : DifferInPassword settings twin)
    {entry other : String × Entry} (alike : DifferInText entry other) :
    DifferInPassword (settings.set entry.1 entry.2) (twin.set other.1 other.2) := by
  cases alike with
  | same =>
      obtain ⟨key, value⟩ := entry
      dsimp only
      rw [Settings.set, Settings.set]
      rcases splitKey key with ⟨name, steps⟩
      cases steps with
      | nil => exact differ.insert_same name value
      | cons step steps =>
          -- A step into the password leaves a collection there, whichever text was there before.
          have grafted : graft step (twin.find? name) = graft step (settings.find? name) := by
            by_cases isPassword : name = "password"
            · subst isPassword
              exact graft_eq_of_alike differ.password step
            · rw [differ.elsewhere name isPassword]
          dsimp only
          rw [grafted]
          exact differ.insert_same name _
  | password text other origin =>
      dsimp only
      rw [Settings.set, Settings.set, splitKey_password]
      constructor
      · intro name notPassword
        rw [Fields.find?_insert, Fields.find?_insert, if_neg (Ne.symm notPassword),
          if_neg (Ne.symm notPassword), differ.elsewhere name notPassword]
      · rw [Fields.find?_insert, Fields.find?_insert, if_pos rfl, if_pos rfl]
        exact .some (.texts text other origin)

theorem DifferInPassword.apply {settings twin : Settings}
    (differ : DifferInPassword settings twin) {layer other : Layer}
    (alike : List.Forall₂ DifferInText layer other) :
    DifferInPassword (settings.apply layer) (twin.apply other) := by
  induction alike generalizing settings twin with
  | nil => exact differ
  | cons first _ inductionHypothesis => exact inductionHypothesis (differ.set first)

theorem differ_environmentLayer {environment twin : List (String × String)}
    (differ : VariablesDifferInPassword environment twin) :
    List.Forall₂ DifferInText (environmentLayer environment) (environmentLayer twin) := by
  refine List.rel_filterMap ?_ differ
  rintro ⟨name, text⟩ ⟨otherName, other⟩ ⟨sameName, alike⟩
  dsimp only at sameName alike ⊢
  subst sameName
  rcases alike with forPassword | rfl
  · rw [forPassword]
    exact .some (.password text other _)
  · cases variableKey? otherName with
    | none => exact .none
    | some key => exact .some (.same _)

theorem Overrides.DifferInPassword.given?_eq {overrides twin : Overrides}
    (differ : overrides.DifferInPassword twin) {setting : Setting}
    (notPassword : setting ≠ .password) : twin.given? setting = overrides.given? setting := by
  rw [differ.elsewhere]
  cases setting <;> first | rfl | exact absurd rfl notPassword

theorem differ_overrides {overrides twin : Overrides} (differ : overrides.DifferInPassword twin) :
    List.Forall₂ DifferInText overrides.layer twin.layer := by
  rw [layer_eq_filterMap, layer_eq_filterMap]
  have settings : List.Forall₂ Eq Setting.all Setting.all := List.forall₂_refl _
  refine List.rel_filterMap ?_ settings
  rintro setting _ rfl
  dsimp only
  by_cases isPassword : setting = .password
  · subst isPassword
    have given := differ.given
    simp only [Overrides.given?]
    generalize overrides.password = password, twin.password = other at given ⊢
    cases password <;> cases other
    · exact .none
    · cases given
    · cases given
    · exact .some (.password _ _ _)
  · rw [differ.given?_eq isPassword]
    cases overrides.given? setting with
    | none => exact .none
    | some entry => exact .some (.same _)

/-! ## Loading -/

theorem differ_merge (layer : Layer) {environment environmentTwin : List (String × String)}
    {overrides overridesTwin : Overrides}
    (around : VariablesDifferInPassword environment environmentTwin)
    (differ : overrides.DifferInPassword overridesTwin) :
    DifferInPassword (merge layer environment overrides)
      (merge layer environmentTwin overridesTwin) :=
  ((DifferInPassword.refl _).apply (differ_environmentLayer around)).apply (differ_overrides differ)

theorem field_agree {settings twin : Settings}
    (alike : Option.Rel Entry.Alike (settings.find? "password") (twin.find? "password")) :
    Agree (fun _ _ => True) (settings.field "password" Value.toText)
      (twin.field "password" Value.toText) := by
  rw [field, field]
  generalize settings.find? "password" = entry, twin.find? "password" = other at alike ⊢
  cases alike with
  | none => exact .error _
  | @some entry _ alike =>
      cases alike with
      | same =>
          dsimp only
          cases entry.value.toText with
          | error mismatch => exact .error _
          | ok text => exact .ok trivial
      | texts => exact .ok trivial

theorem toConnection_agree {settings twin : Settings} (differ : DifferInPassword settings twin) :
    Agree (fun connection other => other = connection.withPassword other.password)
      settings.toConnection twin.toConnection := by
  have same {α : Type} (name : String) (read : Value → Except Mismatch α)
      (notPassword : name ≠ "password") :
      Agree Eq (settings.field name read) (twin.field name read) :=
    .of_eq (field_congr (differ.elsewhere name notPassword))
  rw [toConnection, toConnection]
  refine (same "hostname" _ (by decide)).bind ?_
  rintro hostname _ rfl
  refine (same "port" _ (by decide)).bind ?_
  rintro port _ rfl
  refine (same "database" _ (by decide)).bind ?_
  rintro database _ rfl
  refine (same "username" _ (by decide)).bind ?_
  rintro username _ rfl
  refine (field_agree differ.password).bind ?_
  rintro password other -
  refine (same "schema" _ (by decide)).bind ?_
  rintro schema _ rfl
  exact .ok rfl

theorem load_agree (formats : List Format) (files : FileTree) (path : Option Path)
    {environment environmentTwin : List (String × String)} {overrides overridesTwin : Overrides}
    (around : VariablesDifferInPassword environment environmentTwin)
    (differ : overrides.DifferInPassword overridesTwin) :
    Agree (fun connection other => other = connection.withPassword other.password)
      (load files environment path overrides formats)
      (load files environmentTwin path overridesTwin formats) := by
  cases read : entriesAt formats files path with
  | ok layer =>
      rw [load_of_entriesAt read, load_of_entriesAt read]
      exact toConnection_agree (differ_merge layer around differ)
  | error fault =>
      rw [load_of_fault read, load_of_fault read]
      exact .error _

/-! ## Whose password it is -/

theorem load_password {formats : List Format} {files : FileTree} {path : Option Path}
    {environment : List (String × String)} {overrides : Overrides} {connection : Connection}
    {password : String}
    (given : overrides.password.or (variableText? environment .password) = some password)
    (loaded : load files environment path overrides formats = .ok connection) :
    connection.password = password := by
  cases read : entriesAt formats files path with
  | ok layer =>
      have won : (Sources.winner ⟨overrides, environment, layer⟩ .password).value =
          .string password := by
        simp only [Sources.winner, Overrides.given?]
        cases override : overrides.password with
        | some word =>
            rw [override] at given
            cases given
            rfl
        | none =>
            rw [override, Option.none_or] at given
            rw [given]
            rfl
      have converts : (Sources.winner ⟨overrides, environment, layer⟩ .password).value.toText =
          .ok connection.password := converts_winner_of_load read loaded .password
      rw [won] at converts
      exact (Except.ok.inj converts).symm
  | error fault =>
      rw [load_of_fault read] at loaded
      cases loaded

end Settings

end RemoteRecords
