import Mathlib.Tactic

/-!
# Results of computations that may fail

What a chain of computations returned, taken apart into the results of its links.
-/

namespace EquationPractice

variable {ε δ α β : Type}

/-- A chain returns a value when its first link does and the rest does on that value. -/
theorem bind_eq_ok {first : Except ε α} {next : α → Except ε β} {result : β} :
    first >>= next = .ok result ↔ ∃ value, first = .ok value ∧ next value = .ok result := by
  cases first with
  | error e => simp [bind, Except.bind]
  | ok value => simp [bind, Except.bind]

@[simp] theorem ok_bind (value : α) (next : α → Except ε β) :
    (Except.ok value : Except ε α) >>= next = next value := rfl

@[simp] theorem error_bind (e : ε) (next : α → Except ε β) :
    (Except.error e : Except ε α) >>= next = .error e := rfl

@[simp] theorem pure_eq_ok (value : α) : (pure value : Except ε α) = .ok value := rfl

@[simp] theorem throw_eq_error (e : ε) : (throw e : Except ε α) = .error e := rfl

@[simp] theorem map_eq_ok {f : α → β} {first : Except ε α} {result : β} :
    first.map f = .ok result ↔ ∃ value, first = .ok value ∧ f value = result := by
  cases first with
  | error e => simp [Except.map]
  | ok value => simp [Except.map]

@[simp] theorem mapError_eq_ok {f : ε → δ} {first : Except ε α} {result : α} :
    first.mapError f = .ok result ↔ first = .ok result := by
  cases first with
  | error e => simp [Except.mapError]
  | ok value => simp [Except.mapError]

end EquationPractice
