/-!
# Attempts

Facts about computations that may fail, used wherever one step follows another.

* `ok_bind`, `error_bind`, `pure_eq_ok` — what follows a success, and what follows a failure;
* `mapError_ok`, `mapError_error` — a failure told in another way;
* `bind_eq_ok` — a success of two steps is a success of each;
* `mapM_eq_ok` — a step that always succeeds succeeds for a whole list;
* `exists_ok_of_map_toOption` — where something is seen of the result, there is a result.
-/

namespace SchemaCompletion

@[simp] theorem ok_bind {ε α β : Type} (a : α) (f : α → Except ε β) : (.ok a >>= f) = f a := rfl

@[simp] theorem error_bind {ε α β : Type} (e : ε) (f : α → Except ε β) :
    (.error e >>= f) = .error e := rfl

@[simp] theorem pure_eq_ok {ε α : Type} (a : α) : (pure a : Except ε α) = .ok a := rfl

@[simp] theorem mapError_ok {ε δ α : Type} (f : ε → δ) (a : α) :
    (Except.ok a).mapError f = .ok a := rfl

@[simp] theorem mapError_error {ε δ α : Type} (f : ε → δ) (e : ε) :
    (Except.error e : Except ε α).mapError f = .error (f e) := rfl

/-- A successful computation in two steps had a successful first step. -/
theorem bind_eq_ok {ε α β : Type} {x : Except ε α} {f : α → Except ε β} {b : β}
    (h : (x >>= f) = .ok b) : ∃ a, x = .ok a ∧ f a = .ok b := by
  cases x with
  | error e => cases h
  | ok a => exact ⟨a, rfl, h⟩

theorem mapM_eq_ok {ε α β : Type} {step : α → Except ε β} {value : α → β}
    (each : ∀ a, step a = .ok (value a)) (items : List α) :
    items.mapM step = .ok (items.map value) := by
  obtain rfl : step = fun a => pure (value a) := funext each
  rw [List.mapM_pure, pure_eq_ok]

/-- An attempt whose result shows something has a result, and it shows that. -/
theorem exists_ok_of_map_toOption {ε α β : Type} {x : Except ε α} {f : α → β} {b : β}
    (shows : x.toOption.map f = some b) : ∃ a, x = .ok a ∧ f a = b := by
  cases x with
  | error e => cases shows
  | ok a => exact ⟨a, rfl, Option.some.inj shows⟩

end SchemaCompletion
