/-!
# Steps that may fail

Two steps in a row succeed when both do (`bind_eq_ok_iff`), and fail with the failure of the first
that does (`bind_eq_error_iff`); a function of the value changes neither (`map_eq_ok_iff`,
`map_eq_error_iff`). Two results agree when both are one failure or both are values in
relation; this carries over from step to step (`Agree.bind`).
-/

namespace RemoteRecords

/-! ## Results of two steps -/

section Bind

variable {ε α β : Type} {step : Except ε α} {next : α → Except ε β}

theorem bind_eq_ok_iff {result : β} :
    step >>= next = .ok result ↔ ∃ value, step = .ok value ∧ next value = .ok result := by
  cases step with
  | error failure =>
      constructor
      · intro run
        cases run
      · rintro ⟨_, absent, -⟩
        cases absent
  | ok value =>
      constructor
      · intro run
        exact ⟨value, rfl, run⟩
      · rintro ⟨_, same, run⟩
        cases same
        exact run

theorem bind_eq_error_iff {failure : ε} :
    step >>= next = .error failure ↔
      step = .error failure ∨ ∃ value, step = .ok value ∧ next value = .error failure := by
  cases step with
  | error other =>
      constructor
      · intro failed
        cases failed
        exact Or.inl rfl
      · rintro (failed | ⟨_, absent, -⟩)
        · cases failed
          rfl
        · cases absent
  | ok value =>
      constructor
      · intro failed
        exact Or.inr ⟨value, rfl, failed⟩
      · rintro (absent | ⟨_, same, failed⟩)
        · cases absent
        · cases same
          exact failed

theorem map_eq_ok_iff {f : α → β} {result : β} :
    step.map f = .ok result ↔ ∃ value, step = .ok value ∧ f value = result := by
  cases step with
  | error failure => simp [Except.map]
  | ok value => simp [Except.map]

theorem map_eq_error_iff {f : α → β} {failure : ε} :
    step.map f = .error failure ↔ step = .error failure := by
  cases step with
  | error other => simp [Except.map]
  | ok value => simp [Except.map]

theorem toOption_eq_some_iff {value : α} : step.toOption = some value ↔ step = .ok value := by
  cases step <;> simp [Except.toOption]

end Bind

/-! ## Results side by side -/

/-- The same failure on both sides, or values in relation. -/
inductive Agree {ε α β : Type} (gives : α → β → Prop) : Except ε α → Except ε β → Prop where
  | error (failure : ε) : Agree gives (.error failure) (.error failure)
  | ok {value : α} {twin : β} (given : gives value twin) : Agree gives (.ok value) (.ok twin)

namespace Agree

variable {ε φ α β γ δ : Type} {gives : α → β → Prop} {ends : γ → δ → Prop}
  {result : Except ε α} {twin : Except ε β}

theorem refl (result : Except ε α) : Agree Eq result result := by
  cases result with
  | error failure => exact .error failure
  | ok value => exact .ok rfl

theorem of_eq {twin : Except ε α} (same : twin = result) : Agree Eq result twin := by
  rw [same]
  exact refl result

theorem imp {further : α → β → Prop} (agree : Agree gives result twin)
    (go : ∀ value other, result = .ok value → twin = .ok other → gives value other →
      further value other) : Agree further result twin := by
  cases agree with
  | error failure => exact .error failure
  | ok given => exact .ok (go _ _ rfl rfl given)

theorem bind {next : α → Except ε γ} {nextTwin : β → Except ε δ}
    (agree : Agree gives result twin)
    (go : ∀ value other, gives value other → Agree ends (next value) (nextTwin other)) :
    Agree ends (result >>= next) (twin >>= nextTwin) := by
  cases agree with
  | error failure => exact .error failure
  | ok given => exact go _ _ given

theorem mapError (agree : Agree gives result twin) (f : ε → φ) :
    Agree gives (result.mapError f) (twin.mapError f) := by
  cases agree with
  | error failure => exact .error (f failure)
  | ok given => exact .ok given

end Agree

end RemoteRecords
