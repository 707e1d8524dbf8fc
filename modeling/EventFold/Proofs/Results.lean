/-!
# Results taken apart

A sequence of steps succeeds as a whole when every step does. Results are equal if they fail or succeed alike.
-/

namespace EventFold

variable {ε α β : Type} {x : Except ε α} {a : α} {b : β}

instance decidableEqExcept [DecidableEq ε] [DecidableEq α] : DecidableEq (Except ε α)
  | .error e, .error f => decidable_of_iff (e = f) (by simp)
  | .ok a, .ok b => decidable_of_iff (a = b) (by simp)
  | .error _, .ok _ => isFalse (by simp)
  | .ok _, .error _ => isFalse (by simp)

theorem bind_eq_ok_iff {f : α → Except ε β} : x.bind f = .ok b ↔ ∃ a, x = .ok a ∧ f a = .ok b := by
  cases x <;> simp [Except.bind]

theorem map_eq_ok_iff {f : α → β} : x.map f = .ok b ↔ ∃ a, x = .ok a ∧ f a = b := by
  cases x <;> simp [Except.map]

theorem bind_eq_error_iff {f : α → Except ε β} {e : ε} :
    x.bind f = .error e ↔ x = .error e ∨ ∃ a, x = .ok a ∧ f a = .error e := by
  cases x <;> simp [Except.bind]

theorem map_eq_error_iff {f : α → β} {e : ε} : x.map f = .error e ↔ x = .error e := by
  cases x <;> simp [Except.map]

theorem ite_error_eq_ok_iff {c : Prop} [Decidable c] {e : ε} {a' : α} :
    (if c then .error e else .ok a : Except ε α) = .ok a' ↔ ¬ c ∧ a = a' := by
  split <;> simp_all

theorem ite_error_eq_error_iff {c : Prop} [Decidable c] {e e' : ε} :
    (if c then .error e else .ok a : Except ε α) = .error e' ↔ c ∧ e = e' := by
  split <;> simp_all

theorem isOk_iff : (∃ a, x = .ok a) ↔ ∀ e, x ≠ .error e := by
  cases x <;> simp

theorem eq_ok_of_toOption (h : x.toOption = some a) : x = .ok a := by
  cases x with
  | error e => cases h
  | ok a' => rw [Option.some.inj h]

end EventFold
