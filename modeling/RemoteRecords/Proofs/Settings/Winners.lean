import RemoteRecords.Proofs.Settings.Layers

/-!
# Winners under any keys

A key that leads into a setting leaves a collection there, which no setting takes. So whatever the
keys of the sources, a connection that is loaded is made of the winning values
(`converts_winner_of_load`).
-/

namespace RemoteRecords.Settings

/-! ## Keys with steps -/

theorem stepsOf?_ne_nil {fuel : Nat} {first : Char} {rest : List Char} :
    stepsOf? fuel (first :: rest) ≠ some [] := by
  intro found
  rw [stepsOf?.eq_def] at found
  split at found
  · simp_all
  · simp_all
  · split at found <;> simp at found
  · split at found <;> simp at found
  · cases found

/-- Without a step into it, a key is the name itself. -/
theorem name_of_splitKey {key name : String} (found : splitKey key = (name, [])) : name = key := by
  have joined : key.toList.takeWhile isNameChar ++ key.toList.dropWhile isNameChar = key.toList :=
    List.takeWhile_append_dropWhile
  rw [splitKey, List.span_eq_takeWhile_dropWhile] at found
  dsimp only at found
  split at found
  · next steps _ read =>
      obtain ⟨named, none⟩ := Prod.mk.inj found
      subst none
      cases remaining : key.toList.dropWhile isNameChar with
      | nil =>
          rw [remaining, List.append_nil] at joined
          rw [← named, joined, String.ofList_toList]
      | cons first rest =>
          rw [remaining] at read
          exact absurd read stepsOf?_ne_nil
  · exact (Prod.mk.inj found).1.symm

theorem value_graft (step : Step) (entry : Option Entry) :
    (graft step entry).value =
      match step with
      | .key => .map
      | .index => .sequence := by
  cases entry with
  | none => rfl
  | some held =>
      cases step <;> simp only [graft] <;> split
      · next same => exact same
      · rfl
      · next same => exact same
      · rfl

/-! ## Values that are no collection -/

/-- The value is no collection. -/
def Value.Single (value : Value) : Prop := value ≠ .map ∧ value ≠ .sequence

theorem single_of_converts {value : Value} {connection : Connection} {setting : Setting}
    (converts : Converts value connection setting) : value.Single := by
  constructor <;> rintro rfl <;> cases setting <;> cases converts

theorem not_single_graft (step : Step) (entry : Option Entry) :
    ¬ (graft step entry).value.Single := by
  rw [value_graft]
  rintro ⟨notMap, notSequence⟩
  cases step with
  | key => exact notMap rfl
  | index => exact notSequence rfl

theorem find?_of_set {settings : Settings} {key name : String} {entry held : Entry}
    (plain : PlainKey name) (found : (settings.set key entry).find? name = some held)
    (single : held.value.Single) :
    (if key = name then some entry else settings.find? name) = some held := by
  rw [Settings.set] at found
  rcases parts : splitKey key with ⟨target, steps⟩
  rw [parts] at found
  cases steps with
  | nil =>
      dsimp only at found
      rwa [Fields.find?_insert, name_of_splitKey parts] at found
  | cons step steps =>
      have different : key ≠ name := by
        rintro rfl
        rw [splitKey_of_plain plain] at parts
        cases parts
      dsimp only at found
      rw [Fields.find?_insert] at found
      rw [if_neg different]
      split at found
      · cases found
        exact absurd single (not_single_graft step _)
      · exact found

/-- What is found after a layer and is no collection is the last entry of the layer or was there
before. -/
theorem find?_of_apply {settings : Settings} {layer : Layer} {name : String} {held : Entry}
    (plain : PlainKey name) (found : (settings.apply layer).find? name = some held)
    (single : held.value.Single) :
    (layer.last? name).or (settings.find? name) = some held := by
  induction layer using List.reverseRecOn with
  | nil => exact found
  | append_singleton layer entry inductionHypothesis =>
      rw [apply_concat] at found
      have before := find?_of_set plain found single
      rw [Layer.last?_concat]
      split
      · next same => rwa [if_pos same] at before
      · next different =>
          rw [if_neg different] at before
          exact inductionHypothesis before

/-! ## Loading -/

/-- What the merged settings hold is the winner, if it is no collection. -/
theorem winner_of_find?_merge {sources : Sources} {setting : Setting} {held : Entry}
    (found : (merge sources.file sources.environment sources.overrides).find? setting.name =
      some held)
    (single : held.value.Single) : sources.winner setting = held := by
  have plain := plain_name setting
  have chosen := find?_of_apply plain found single
  rw [last?_overrides] at chosen
  rw [Sources.winner]
  cases override : sources.overrides.given? setting with
  | some entry =>
      rw [override] at chosen
      exact Option.some.inj chosen
  | none =>
      rw [override, Option.none_or] at chosen
      have below := find?_of_apply plain chosen single
      rw [last?_environmentLayer] at below
      cases inEnvironment : variableText? sources.environment setting with
      | some text =>
          rw [inEnvironment] at below
          exact Option.some.inj below
      | none =>
          rw [inEnvironment, Option.map_none, Option.none_or] at below
          have last := find?_of_apply plain below single
          rw [find?_apply plain_default, last?_default] at last
          cases inFile : sources.file.last? setting.name with
          | some entry =>
              rw [inFile] at last
              exact Option.some.inj last
          | none =>
              rw [inFile] at last
              exact Option.some.inj last

/-- A connection is made of the winners, also where some keys lead into the settings. -/
theorem converts_winner_of_load {formats : List Format} {files : FileTree} {path : Option Path}
    {sources : Sources} {connection : Connection}
    (read : entriesAt formats files path = .ok sources.file)
    (loaded : load files sources.environment path sources.overrides formats = .ok connection)
    (setting : Setting) : Converts (sources.winner setting).value connection setting := by
  rw [load_of_entriesAt read] at loaded
  obtain ⟨held, found, converts⟩ := exists_converts_of_toConnection loaded setting
  rw [winner_of_find?_merge found (single_of_converts converts)]
  exact converts

end RemoteRecords.Settings
