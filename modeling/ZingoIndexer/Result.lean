import Mathlib

/-!
# Rust results

A Rust `Result<T, E>` is an `Except E T`, and `?` is `>>=`. These are the rewriting lemmas the
models' `do` blocks reduce by, the inversions of a bind that succeeds or fails, and `Option::ok_or_else`.
-/

namespace ZingoIndexer

section Except

variable {ε α β : Type}

@[simp] theorem ok_bind (a : α) (f : α → Except ε β) : (Except.ok a >>= f) = f a := rfl
@[simp] theorem error_bind (e : ε) (f : α → Except ε β) : (Except.error e >>= f) = .error e := rfl
@[simp] theorem pure_eq_ok (a : α) : (pure a : Except ε α) = .ok a := rfl
@[simp] theorem throw_eq_error (e : ε) : (throw e : Except ε α) = .error e := rfl

theorem bind_eq_ok {x : Except ε α} {f : α → Except ε β} {b : β} (h : (x >>= f) = .ok b) :
    ∃ a, x = .ok a ∧ f a = .ok b := by
  cases x with
  | error e => cases h
  | ok a => exact ⟨a, rfl, h⟩

theorem bind_eq_error {x : Except ε α} {f : α → Except ε β} {e : ε} (h : (x >>= f) = .error e) :
    x = .error e ∨ ∃ a, x = .ok a ∧ f a = .error e := by
  cases x with
  | error e' => cases h; exact .inl rfl
  | ok a => exact .inr ⟨a, rfl, h⟩

theorem map_eq_ok {x : Except ε α} {f : α → β} {b : β} (h : x.map f = .ok b) :
    ∃ a, x = .ok a ∧ f a = b := by
  cases x with
  | error e => cases h
  | ok a => cases h; exact ⟨a, rfl, rfl⟩

/-- `Option::ok_or_else`. -/
def okOr : Option α → ε → Except ε α
  | some a, _ => .ok a
  | none, e => .error e

@[simp] theorem okOr_some (a : α) (e : ε) : okOr (some a) e = .ok a := rfl
@[simp] theorem okOr_none (e : ε) : okOr (none : Option α) e = .error e := rfl

theorem okOr_eq_ok {o : Option α} {e : ε} {a : α} (h : okOr o e = .ok a) : o = some a := by
  cases o <;> cases h
  rfl

theorem okOr_eq_error {o : Option α} {e e' : ε} (h : okOr o e = .error e') : o = none ∧ e' = e := by
  cases o <;> cases h
  exact ⟨rfl, rfl⟩

end Except

end ZingoIndexer
