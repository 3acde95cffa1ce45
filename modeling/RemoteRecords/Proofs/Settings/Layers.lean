import Mathlib.Data.List.Induction
import Mathlib.Data.List.TakeDrop
import RemoteRecords.Proofs.Except
import RemoteRecords.Settings.Load

/-!
# Layers of settings

Each setting of a connection has one value that wins (`Sources.winner`): the override, else the
last variable of the environment with its name, else the last entry of the file, else the default.
The merged settings hold the winner of every setting (`find?_merge`), and nothing else of the
sources matters: `load` converts the winners (`load_converts_winners`).
-/

namespace RemoteRecords.Settings

/-! ## Settings and their sources -/

/-- What there is to set of a connection. -/
inductive Setting where
  | hostname
  | port
  | database
  | username
  | password
  | schema
  deriving DecidableEq

def Setting.name : Setting → String
  | hostname => "hostname"
  | port => "port"
  | database => "database"
  | username => "username"
  | password => "password"
  | schema => "schema"

def Setting.all : List Setting := [.hostname, .port, .database, .username, .password, .schema]

/-- The entry of a setting on the command line. -/
def Overrides.given? (overrides : Overrides) : Setting → Option Entry
  | .hostname => overrides.hostname.map textEntry
  | .port => overrides.port.map numberEntry
  | .database => overrides.database.map textEntry
  | .username => overrides.username.map textEntry
  | .password => overrides.password.map textEntry
  | .schema => overrides.schema.map textEntry

/-- The entry of a setting where nothing is said about it. -/
def defaultEntry : Setting → Entry
  | .hostname => ⟨.string "localhost", none⟩
  | .port => ⟨.int 8069, none⟩
  | .database => ⟨.string "odoo", none⟩
  | .username => ⟨.string "admin", none⟩
  | .password => ⟨.string "admin", none⟩
  | .schema => ⟨.string "http", none⟩

/-- The last value under a name that passes. -/
def lastValue? {α : Type} (passes : String → Bool) (pairs : List (String × α)) : Option α :=
  (pairs.reverse.find? fun pair => passes pair.1).map Prod.snd

/-- The entry that a layer has for a name. -/
def Layer.last? (layer : Layer) (name : String) : Option Entry :=
  lastValue? (fun key => key == name) layer

/-- The text of the variable with a setting's name, written in any case. -/
def variableText? (environment : List (String × String)) (setting : Setting) : Option String :=
  lastValue? (fun name => name.map Char.toLower == variableStart ++ setting.name) environment

/-- A key that is a name as a whole, with no step behind it. -/
def PlainKey (key : String) : Prop := '.' ∉ key.toList ∧ '[' ∉ key.toList

instance : DecidablePred PlainKey := fun key =>
  inferInstanceAs (Decidable ('.' ∉ key.toList ∧ '[' ∉ key.toList))

/-- Everything that is said about the settings. -/
structure Sources where
  overrides : Overrides
  environment : List (String × String)
  /-- The entries of the settings file. -/
  file : Layer

/-- The entry that wins among all that is said about a setting. -/
def Sources.winner (sources : Sources) (setting : Setting) : Entry :=
  match sources.overrides.given? setting, variableText? sources.environment setting,
    sources.file.last? setting.name with
  | some entry, _, _ => entry
  | none, some text, _ => ⟨.string text, some .environment⟩
  | none, none, some entry => entry
  | none, none, none => defaultEntry setting

/-- All keys of the file and of the environment are plain. -/
structure Sources.Plain (sources : Sources) : Prop where
  file : ∀ entry ∈ sources.file, PlainKey entry.1
  environment : ∀ named ∈ sources.environment, ∀ key ∈ variableKey? named.1, PlainKey key

/-- Whatever `others` say differently about a setting loses. -/
structure Sources.AgreeAbove (sources others : Sources) (setting : Setting) : Prop where
  overrides : others.overrides.given? setting = sources.overrides.given? setting
  environment : sources.overrides.given? setting = none →
    variableText? others.environment setting = variableText? sources.environment setting
  file : sources.overrides.given? setting = none → variableText? sources.environment setting = none →
    others.file.last? setting.name = sources.file.last? setting.name

/-- The entries of the settings file at a path, if a path is given. -/
def entriesAt (formats : List Format) (files : FileTree) : Option Path → Except FileFault Layer
  | some path => fileLayer formats files path
  | none => .ok []

/-- What a setting takes is what its value in the connection is made of. -/
def Converts (value : Value) (connection : Connection) : Setting → Prop
  | .hostname => value.toText = .ok connection.hostname
  | .port => value.toNumber = .ok connection.port
  | .database => value.toText = .ok connection.database
  | .username => value.toText = .ok connection.username
  | .password => value.toText = .ok connection.password
  | .schema => value.toText = .ok connection.schema

instance (value : Value) (connection : Connection) : DecidablePred (Converts value connection)
  | .hostname => inferInstanceAs (Decidable (value.toText = .ok connection.hostname))
  | .port => inferInstanceAs (Decidable (value.toNumber = .ok connection.port))
  | .database => inferInstanceAs (Decidable (value.toText = .ok connection.database))
  | .username => inferInstanceAs (Decidable (value.toText = .ok connection.username))
  | .password => inferInstanceAs (Decidable (value.toText = .ok connection.password))
  | .schema => inferInstanceAs (Decidable (value.toText = .ok connection.schema))

/-- The value fits the type of the setting. -/
def Fits (value : Value) : Setting → Prop
  | .port => ∃ number, value.toNumber = .ok number
  | _ => ∃ text, value.toText = .ok text

/-! ## Keys -/

theorem stepsOf?_eq_none {fuel : Nat} {first : Char} {rest : List Char} (notDot : first ≠ '.')
    (notBracket : first ≠ '[') : stepsOf? fuel (first :: rest) = none := by
  cases fuel with
  | zero => rfl
  | succ fuel => simp [stepsOf?, notDot, notBracket]

theorem stepsOf?_nil (fuel : Nat) : stepsOf? fuel [] = some [] := by
  cases fuel <;> rfl

theorem splitKey_of_plain {key : String} (plain : PlainKey key) : splitKey key = (key, []) := by
  obtain ⟨noDot, noBracket⟩ := plain
  have joined : key.toList.takeWhile isNameChar ++ key.toList.dropWhile isNameChar = key.toList :=
    List.takeWhile_append_dropWhile
  cases remaining : key.toList.dropWhile isNameChar with
  | nil =>
      rw [remaining, List.append_nil] at joined
      simp only [splitKey, List.span_eq_takeWhile_dropWhile, remaining, joined, stepsOf?_nil,
        String.ofList_toList]
      split
      · next read =>
          cases read
          rfl
      · rfl
  | cons first rest =>
      have member : first ∈ key.toList := by
        rw [← joined, remaining]
        simp
      have notDot : first ≠ '.' := fun same => noDot (same ▸ member)
      have notBracket : first ≠ '[' := fun same => noBracket (same ▸ member)
      simp only [splitKey, List.span_eq_takeWhile_dropWhile, remaining,
        stepsOf?_eq_none notDot notBracket]
      cases key.toList.takeWhile isNameChar <;> rfl

theorem set_of_plain {settings : Settings} {key : String} {entry : Entry}
    (plain : PlainKey key) : settings.set key entry = settings.insert key entry := by
  rw [set, splitKey_of_plain plain]

theorem variableKey?_eq_some_iff {name key : String} :
    variableKey? name = some key ↔ name.map Char.toLower = variableStart ++ key := by
  rw [variableKey?, ← String.toList_inj, String.toList_append, ← String.length_toList]
  constructor
  · intro read
    split at read
    · next starts =>
        obtain ⟨rest, lower⟩ := List.isPrefixOf_iff_prefix.1 starts
        rw [← lower, List.drop_left, Option.some.injEq] at read
        rw [← lower, ← read, String.toList_ofList]
    · cases read
  · intro lower
    have starts : variableStart.toList.isPrefixOf (variableStart.toList ++ key.toList) = true :=
      List.isPrefixOf_iff_prefix.2 (List.prefix_append _ _)
    simp only [lower, starts, if_true, List.drop_left, String.ofList_toList]

/-! ## Last values -/

theorem lastValue?_concat {α : Type} (passes : String → Bool) (pairs : List (String × α))
    (pair : String × α) :
    lastValue? passes (pairs ++ [pair]) =
      if passes pair.1 then some pair.2 else lastValue? passes pairs := by
  rw [lastValue?, List.reverse_append, List.reverse_singleton, List.singleton_append,
    List.find?_cons]
  cases passes pair.1 <;> rfl

theorem Layer.last?_concat (layer : Layer) (entry : String × Entry) (name : String) :
    Layer.last? (layer ++ [entry]) name =
      if entry.1 = name then some entry.2 else layer.last? name := by
  simp only [Layer.last?, lastValue?_concat, beq_iff_eq]

theorem variableText?_concat (environment : List (String × String)) (named : String × String)
    (setting : Setting) :
    variableText? (environment ++ [named]) setting =
      if variableKey? named.1 = some setting.name then some named.2
      else variableText? environment setting := by
  simp only [variableText?, lastValue?_concat, beq_iff_eq, variableKey?_eq_some_iff]

theorem apply_concat (settings : Settings) (layer : Layer) (entry : String × Entry) :
    settings.apply (layer ++ [entry]) = (settings.apply layer).set entry.1 entry.2 :=
  List.foldl_append

theorem find?_apply {settings : Settings} {layer : Layer}
    (plain : ∀ entry ∈ layer, PlainKey entry.1) (name : String) :
    (settings.apply layer).find? name = (layer.last? name).or (settings.find? name) := by
  -- What is set last wins, so the layer is taken apart from its end.
  induction layer using List.reverseRecOn with
  | nil => rfl
  | append_singleton layer entry inductionHypothesis =>
      have plainEntry : PlainKey entry.1 := plain entry (by simp)
      have before := inductionHypothesis fun other member => plain other (by simp [member])
      rw [apply_concat, set_of_plain plainEntry, Fields.find?_insert, before,
        Layer.last?_concat]
      split <;> rfl

theorem environmentLayer_concat (environment : List (String × String))
    (named : String × String) :
    environmentLayer (environment ++ [named]) =
      match variableKey? named.1 with
      | none => environmentLayer environment
      | some key => environmentLayer environment ++ [(key, ⟨.string named.2, some .environment⟩)] := by
  rw [environmentLayer, List.filterMap_append, ← environmentLayer]
  cases found : variableKey? named.1 with
  | none => simp [found]
  | some key => simp [found, Entry.ofSource]

theorem last?_environmentLayer (environment : List (String × String)) (setting : Setting) :
    Layer.last? (environmentLayer environment) setting.name =
      (variableText? environment setting).map fun text => ⟨.string text, some .environment⟩ := by
  induction environment using List.reverseRecOn with
  | nil => rfl
  | append_singleton environment named inductionHypothesis =>
      rw [variableText?_concat, environmentLayer_concat]
      cases variableKey? named.1 with
      | none => simpa using inductionHypothesis
      | some key =>
          simp only [Layer.last?_concat, Option.some.injEq, inductionHypothesis]
          split <;> rfl

/-! ## The outer layers -/

theorem name_injective {left right : Setting} (same : left.name = right.name) : left = right := by
  cases left <;> cases right <;> first | rfl | exact absurd same (by decide)

/-- A layer with at most one entry for each setting. -/
theorem last?_filterMap (entry : Setting → Option Entry) (settings : List Setting)
    (setting : Setting) :
    Layer.last? (settings.filterMap fun other => (entry other).map fun held => (other.name, held))
      setting.name = if setting ∈ settings then entry setting else none := by
  induction settings using List.reverseRecOn with
  | nil => rfl
  | append_singleton settings other inductionHypothesis =>
      rw [List.filterMap_append]
      cases found : entry other with
      | none =>
          rw [List.filterMap_cons_none (by rw [found]; rfl), List.filterMap_nil, List.append_nil,
            inductionHypothesis]
          by_cases same : setting = other
          · simp [same, found]
          · simp [same]
      | some held =>
          rw [List.filterMap_cons_some (by rw [found]; rfl), List.filterMap_nil,
            Layer.last?_concat, inductionHypothesis]
          by_cases same : other = setting
          · simp [← same, found]
          · have different : other.name ≠ setting.name := fun equal => same (name_injective equal)
            simp [different, Ne.symm same]

theorem layer_eq_filterMap (overrides : Overrides) :
    overrides.layer = Setting.all.filterMap fun setting =>
      (overrides.given? setting).map fun entry => (setting.name, entry) := rfl

theorem layer_default_eq_map :
    connectionLayer .default = Setting.all.map fun setting =>
      (setting.name, defaultEntry setting) := rfl

theorem mem_all (setting : Setting) : setting ∈ Setting.all := by
  cases setting <;> decide

theorem last?_overrides (overrides : Overrides) (setting : Setting) :
    overrides.layer.last? setting.name = overrides.given? setting := by
  rw [layer_eq_filterMap, last?_filterMap, if_pos (mem_all setting)]

theorem last?_default (setting : Setting) :
    (connectionLayer .default).last? setting.name = some (defaultEntry setting) := by
  cases setting <;> rfl

theorem plain_name (setting : Setting) : PlainKey setting.name := by
  cases setting <;> exact ⟨by decide, by decide⟩

theorem plain_overrides {overrides : Overrides} :
    ∀ entry ∈ overrides.layer, PlainKey entry.1 := by
  intro entry member
  rw [layer_eq_filterMap] at member
  obtain ⟨setting, -, found⟩ := List.mem_filterMap.1 member
  obtain ⟨_, -, rfl⟩ := Option.map_eq_some_iff.1 found
  exact plain_name setting

theorem plain_default : ∀ entry ∈ connectionLayer .default, PlainKey entry.1 := by
  intro entry member
  rw [layer_default_eq_map] at member
  obtain ⟨setting, -, rfl⟩ := List.mem_map.1 member
  exact plain_name setting

/-! ## Merged settings -/

theorem plain_environmentLayer {environment : List (String × String)}
    (plain : ∀ named ∈ environment, ∀ key ∈ variableKey? named.1, PlainKey key) :
    ∀ entry ∈ environmentLayer environment, PlainKey entry.1 := by
  intro entry member
  obtain ⟨named, given, found⟩ := List.mem_filterMap.1 member
  obtain ⟨key, read, rfl⟩ := Option.map_eq_some_iff.1 found
  exact plain named given key read

/-- The merged settings hold the winners. -/
theorem find?_merge {sources : Sources} (plain : sources.Plain) (setting : Setting) :
    (merge sources.file sources.environment sources.overrides).find? setting.name =
      some (sources.winner setting) := by
  rw [merge, find?_apply plain_overrides, find?_apply (plain_environmentLayer plain.environment),
    find?_apply plain.file, find?_apply plain_default, last?_overrides, last?_environmentLayer,
    last?_default, Sources.winner]
  cases sources.overrides.given? setting <;>
    cases variableText? sources.environment setting <;>
    cases sources.file.last? setting.name <;> rfl

/-! ## Connections -/

section Connections

variable {settings others : Settings} {connection : Connection}

theorem field_congr {α : Type} {name : String} {read : Value → Except Mismatch α}
    (same : settings.find? name = others.find? name) :
    settings.field name read = others.field name read := by
  rw [field, same, ← field]

/-- Nothing but the six settings matters. -/
theorem toConnection_congr
    (same : ∀ setting : Setting, settings.find? setting.name = others.find? setting.name) :
    settings.toConnection = others.toConnection := by
  have text (setting : Setting) : settings.field setting.name Value.toText =
      others.field setting.name Value.toText := field_congr (same setting)
  have number : settings.field "port" Value.toNumber = others.field "port" Value.toNumber :=
    field_congr (same .port)
  have hostname := text .hostname
  have database := text .database
  have username := text .username
  have password := text .password
  have schema := text .schema
  simp only [Setting.name] at hostname database username password schema
  rw [toConnection, hostname, number, database, username, password, schema, ← toConnection]

theorem field_eq_ok_iff {α : Type} {name : String} {read : Value → Except Mismatch α}
    {entry : Entry} {value : α} (found : settings.find? name = some entry) :
    settings.field name read = .ok value ↔ read entry.value = .ok value := by
  simp only [field, found, Except.mapError]
  cases read entry.value <;> simp

theorem toConnection_eq_ok_iff {entries : Setting → Entry}
    (found : ∀ setting : Setting, settings.find? setting.name = some (entries setting)) :
    settings.toConnection = .ok connection ↔
      ∀ setting, Converts (entries setting).value connection setting := by
  have readsText (setting : Setting) (text : String) :
      settings.field setting.name Value.toText = .ok text ↔
        (entries setting).value.toText = .ok text := field_eq_ok_iff (found setting)
  have readsNumber (number : Nat) :
      settings.field "port" Value.toNumber = .ok number ↔
        (entries .port).value.toNumber = .ok number := field_eq_ok_iff (found .port)
  have hostname := readsText .hostname
  have database := readsText .database
  have username := readsText .username
  have password := readsText .password
  have schema := readsText .schema
  simp only [Setting.name] at hostname database username password schema
  simp only [toConnection, bind_eq_ok_iff, hostname, readsNumber, database, username, password,
    schema, pure, Except.pure, Except.ok.injEq]
  constructor
  · rintro ⟨host, hostRead, port, portRead, base, baseRead, user, userRead, secret, secretRead,
      scheme, schemeRead, rfl⟩ setting
    cases setting <;> assumption
  · intro converts
    exact ⟨_, converts .hostname, _, converts .port, _, converts .database, _, converts .username,
      _, converts .password, _, converts .schema, rfl⟩

theorem exists_entry_of_field {α : Type} {name : String} {read : Value → Except Mismatch α}
    {value : α} (fieldRead : settings.field name read = .ok value) :
    ∃ entry, settings.find? name = some entry ∧ read entry.value = .ok value := by
  cases found : settings.find? name with
  | none =>
      rw [field, found] at fieldRead
      cases fieldRead
  | some entry => exact ⟨entry, rfl, (field_eq_ok_iff found).1 fieldRead⟩

/-- Every part of a connection is made of what the settings hold for it. -/
theorem exists_converts_of_toConnection (loaded : settings.toConnection = .ok connection)
    (setting : Setting) :
    ∃ entry, settings.find? setting.name = some entry ∧
      Converts entry.value connection setting := by
  simp only [toConnection, bind_eq_ok_iff, pure, Except.pure, Except.ok.injEq] at loaded
  obtain ⟨hostname, hostnameRead, port, portRead, database, databaseRead, username, usernameRead,
    password, passwordRead, schema, schemaRead, rfl⟩ := loaded
  cases setting with
  | hostname => exact exists_entry_of_field hostnameRead
  | port => exact exists_entry_of_field portRead
  | database => exact exists_entry_of_field databaseRead
  | username => exact exists_entry_of_field usernameRead
  | password => exact exists_entry_of_field passwordRead
  | schema => exact exists_entry_of_field schemaRead

theorem exists_converts_iff {values : Setting → Value} :
    (∃ connection, ∀ setting, Converts (values setting) connection setting) ↔
      ∀ setting, Fits (values setting) setting := by
  constructor
  · rintro ⟨connection, converts⟩ setting
    have convertsSetting := converts setting
    cases setting <;> exact ⟨_, convertsSetting⟩
  · intro fits
    obtain ⟨hostname, hostnameRead⟩ := fits .hostname
    obtain ⟨port, portRead⟩ := fits .port
    obtain ⟨database, databaseRead⟩ := fits .database
    obtain ⟨username, usernameRead⟩ := fits .username
    obtain ⟨password, passwordRead⟩ := fits .password
    obtain ⟨schema, schemaRead⟩ := fits .schema
    refine ⟨⟨hostname, port, database, username, password, schema⟩, ?_⟩
    intro setting
    cases setting <;> assumption

end Connections

/-! ## Loading -/

section Reading

variable {formats : List Format} {files : FileTree} {environment : List (String × String)}
  {path : Option Path} {overrides : Overrides}

theorem load_of_entriesAt {layer : Layer} (read : entriesAt formats files path = .ok layer) :
    load files environment path overrides formats =
      (merge layer environment overrides).toConnection := by
  cases path with
  | none =>
      cases read
      rfl
  | some path =>
      rw [entriesAt] at read
      simp only [load, Option.map_some, read]

theorem load_of_fault {fault : FileFault} (unread : entriesAt formats files path = .error fault) :
    load files environment path overrides formats = .error (.file fault) := by
  cases path with
  | none => cases unread
  | some path =>
      rw [entriesAt] at unread
      simp only [load, Option.map_some, unread]

end Reading

theorem winner_of_agreeAbove {sources others : Sources} {setting : Setting}
    (agree : sources.AgreeAbove others setting) :
    others.winner setting = sources.winner setting := by
  obtain ⟨sameOverride, sameVariable, sameFile⟩ := agree
  rw [Sources.winner, Sources.winner, sameOverride]
  cases override : sources.overrides.given? setting with
  | some _ => rfl
  | none =>
      rw [sameVariable override]
      cases text : variableText? sources.environment setting with
      | some _ => rfl
      | none => rw [sameFile override text]

end RemoteRecords.Settings
