import Mathlib

/-!
# Peeling fallible computations

Rules that take a successful computation in `Except` apart into its successful parts.
-/

namespace Reticulum

universe u

variable {α β : Type u} {ε ε' : Type*}

@[simp] theorem ok_bind (a : α) (f : α → Except ε β) : (Except.ok a >>= f) = f a := rfl

@[simp] theorem mapError_ok (a : α) (g : ε → ε') :
    (Except.ok a : Except ε α).mapError g = .ok a := rfl

variable {x : Except ε α}

theorem bind_eq_ok {f : α → Except ε β} {b : β} :
    x >>= f = .ok b ↔ ∃ a, x = .ok a ∧ f a = .ok b := by
  cases x with
  | error e => simp [bind, Except.bind]
  | ok a => simp [bind, Except.bind]

theorem mapError_eq_ok {g : ε → ε'} {a : α} : x.mapError g = .ok a ↔ x = .ok a := by
  cases x with
  | error e => simp [Except.mapError]
  | ok a => simp [Except.mapError]

theorem pure_eq_ok {a b : α} : (pure a : Except ε α) = .ok b ↔ a = b :=
  Except.ok.injEq a b ▸ Iff.rfl

theorem toOption_eq_some {a : α} : x.toOption = some a ↔ x = .ok a := by
  cases x with
  | error e => simp [Except.toOption]
  | ok a => simp [Except.toOption]

/-- A result that can be evaluated. -/
theorem exists_ok_of_any {x : Except ε (α × β)} {p : α → Prop} [DecidablePred p]
    (h : x.toOption.any (fun r => p r.1) = true) : ∃ a b, x = .ok (a, b) ∧ p a := by
  obtain ⟨⟨a, b⟩, hx, hp⟩ := (Option.any_eq_true _ _).mp h
  exact ⟨a, b, toOption_eq_some.mp hx, of_decide_eq_true hp⟩

/-- A check that fails with an error was passed. -/
theorem ite_error_eq_ok {c : Prop} [Decidable c] {e : ε} {a : α} :
    (if c then .error e else x) = .ok a ↔ ¬ c ∧ x = .ok a := by
  by_cases h : c
  · simp [h]
  · simp [h]

end Reticulum
