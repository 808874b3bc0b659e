/-!
# Steps that may fail

A sequence of steps has a result exactly if each of its steps has one.  What goes
through a list item by item and cannot fail is a map.
-/

namespace ItemTable

variable {ε δ α β : Type}

theorem ok_bind (value : α) (next : α → Except ε β) :
    (Except.ok value >>= next) = next value :=
  rfl

theorem bind_eq_ok
    {first : Except ε α}
    {next : α → Except ε β}
    {result : β} :
    (first >>= next) = .ok result ↔ ∃ value, first = .ok value ∧ next value = .ok result := by
  constructor
  · intro succeeded
    cases first with
    | error error => cases succeeded
    | ok value => exact ⟨value, rfl, succeeded⟩
  · rintro ⟨value, rfl, succeeded⟩
    exact succeeded

/-- What comes after a step matters only for the step's result. -/
theorem bind_congr_of_ok
    {first : Except ε α}
    {next other : α → Except ε β}
    (same : ∀ value, first = .ok value → next value = other value) :
    (first >>= next) = (first >>= other) := by
  cases first with
  | error error => rfl
  | ok value => exact same value rfl

theorem bind_unit_eq_ok
    {first second : Except ε Unit} :
    (do first; second) = .ok () ↔ first = .ok () ∧ second = .ok () := by
  rw [bind_eq_ok]
  constructor
  · rintro ⟨_, done, succeeded⟩
    exact ⟨done, succeeded⟩
  · rintro ⟨done, succeeded⟩
    exact ⟨(), done, succeeded⟩

theorem forM_eq_ok_iff
    {step : α → Except ε Unit}
    {values : List α} :
    values.forM step = .ok () ↔ ∀ value ∈ values, step value = .ok () := by
  induction values with
  | nil => exact ⟨nofun, fun _ => rfl⟩
  | cons value values ih =>
      change (do step value; values.forM step) = .ok () ↔ _
      rw [bind_unit_eq_ok, ih, List.forall_mem_cons]

/-- A sequence fails with the error of its first step that fails. -/
theorem bind_eq_error
    {first : Except ε α}
    {next : α → Except ε β}
    {error : ε} :
    (first >>= next) = .error error ↔
      first = .error error ∨ ∃ value, first = .ok value ∧ next value = .error error := by
  cases first with
  | error found =>
      constructor
      · rintro ⟨⟩
        exact .inl rfl
      · rintro (⟨⟨⟩⟩ | ⟨value, ⟨⟩, -⟩)
        rfl
  | ok value =>
      constructor
      · intro failed
        exact .inr ⟨value, rfl, failed⟩
      · rintro (⟨⟨⟩⟩ | ⟨_, ⟨⟩, failed⟩)
        exact failed

/-! ## Errors put in other words -/

@[simp]
theorem mapError_eq_ok
    {change : ε → δ}
    {attempt : Except ε α}
    {value : α} :
    attempt.mapError change = .ok value ↔ attempt = .ok value := by
  cases attempt with
  | error error => exact ⟨nofun, nofun⟩
  | ok found =>
      constructor <;>
        · rintro ⟨⟩
          rfl

@[simp]
theorem mapError_eq_error
    {change : ε → δ}
    {attempt : Except ε α}
    {error : δ} :
    attempt.mapError change = .error error ↔
      ∃ cause, attempt = .error cause ∧ change cause = error := by
  cases attempt with
  | error cause =>
      constructor
      · rintro ⟨⟩
        exact ⟨cause, rfl, rfl⟩
      · rintro ⟨_, ⟨⟩, rfl⟩
        rfl
  | ok found => exact ⟨nofun, nofun⟩

/-- What is made of an optional value is there if the value is. -/
theorem isNone_of_mapM
    {ε α β : Type}
    {attempt : α → Except ε β}
    {value : Option α}
    {result : Option β}
    (succeeded : value.mapM attempt = .ok result) :
    result.isNone = value.isNone := by
  cases value with
  | none =>
      cases succeeded
      rfl
  | some value =>
      rcases bind_eq_ok.mp succeeded with ⟨found, -, isSome⟩
      cases isSome
      rfl

/-- What goes through a list item by item is a map. -/
theorem eq_map_of_cons
    {α β : Type}
    {whole : List α → List β}
    {each : α → β}
    (nil : whole [] = [])
    (cons : ∀ item items, whole (item :: items) = each item :: whole items)
    (items : List α) :
    whole items = items.map each := by
  induction items with
  | nil => exact nil
  | cons item items ih => rw [cons, ih, List.map_cons]

end ItemTable
