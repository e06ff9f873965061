import Mathlib.Tactic.Basic

/-! # Computations that can fail

How a sequence of `Except` steps returns a value. -/

namespace DDFramework

universe u v

variable {ε : Type u} {α β : Type v}

@[simp] theorem ok_bind (a : α) (f : α → Except ε β) : (Except.ok a >>= f) = f a := rfl

@[simp] theorem error_bind (e : ε) (f : α → Except ε β) :
    ((Except.error e : Except ε α) >>= f) = .error e := rfl

/-- A sequence returns exactly when both parts return. -/
theorem bind_eq_ok_iff {x : Except ε α} {f : α → Except ε β} {b : β} :
    (x >>= f) = .ok b ↔ ∃ a, x = .ok a ∧ f a = .ok b := by
  cases x with
  | error e => simp
  | ok a => simp

theorem bind_ok_eq_map (x : Except ε α) (f : α → β) : (x >>= fun a => .ok (f a)) = x.map f := by
  cases x with
  | error e => rfl
  | ok a => rfl

theorem toOption_eq_some {x : Except ε α} {a : α} : x.toOption = some a ↔ x = .ok a := by
  cases x with
  | error e => simp [Except.toOption]
  | ok b => simp [Except.toOption]

/-- What every step keeps holds after a sequence of steps. -/
theorem foldlM_invariant {γ : Type*} {f : α → γ → Except ε α} {P : α → Prop}
    (hstep : ∀ {a b : α} {c : γ}, P a → f a c = .ok b → P b) {cs : List γ} {a b : α} (h : P a)
    (hfold : cs.foldlM f a = .ok b) : P b := by
  induction cs generalizing a with
  | nil => exact Except.ok.inj hfold ▸ h
  | cons c cs ih =>
      obtain ⟨a', ha', hfold⟩ := bind_eq_ok_iff.mp hfold
      exact ih (hstep h ha') hfold

end DDFramework
