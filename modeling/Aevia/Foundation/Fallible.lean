import Mathlib.Tactic.Common

/-!
# Inversion of fallible computations

A chain of checks followed by a result succeeds exactly when every check lets
it through. The three rules below turn such a chain into its conditions.
-/

set_option autoImplicit false

namespace Aevia.Fallible

universe u v
variable {ε : Type u} {α β : Type v}

/-- The state after a step that takes effect only when it succeeds. -/
def commit (s : α) : Except ε α → α
  | .ok s' => s'
  | .error _ => s

@[simp] theorem commit_ok (s s' : α) : commit s (.ok s' : Except ε α) = s' := rfl

@[simp] theorem commit_error (s : α) (e : ε) : commit s (.error e) = s := rfl

theorem committed (P : α → Prop) (s : α) (x : Except ε α) (hs : P s)
    (h : ∀ s', x = .ok s' → P s') : P (commit s x) := by
  cases x with
  | ok s' => exact h s' rfl
  | error e => exact hs

theorem attempted {β : Type*} (P : α → Prop) (s : α) (o : Option β) (f : β → α) (hs : P s)
    (h : ∀ b, o = some b → P (f b)) : P (o.elim s f) := by
  cases o with
  | none => exact hs
  | some b => exact h b rfl

theorem exists_ok (x : Except ε α) (h : x.isOk = true) : ∃ a, x = .ok a := by
  cases x with
  | error e => cases h
  | ok a => exact ⟨a,rfl⟩

@[simp] theorem bind_ok (x : Except ε α) (f : α → Except ε β) (b : β) :
    (x >>= f) = .ok b ↔ ∃ a, x = .ok a ∧ f a = .ok b := by
  cases x with
  | error e => simp [bind, Except.bind]
  | ok a => simp [bind, Except.bind]

theorem bind_error (x : Except ε α) (f : α → Except ε β) (e : ε) :
    (x >>= f) = .error e ↔ x = .error e ∨ ∃ a, x = .ok a ∧ f a = .error e := by
  cases x with
  | error e => simp [bind, Except.bind]
  | ok a => simp [bind, Except.bind]

@[simp] theorem map_ok (x : Except ε α) (f : α → β) (b : β) :
    x.map f = .ok b ↔ ∃ a, x = .ok a ∧ f a = b := by
  cases x <;> simp [Except.map]

@[simp] theorem guard_ok (c : Prop) [Decidable c] (e : ε) (x : Except ε α) (b : α) :
    (if c then .error e else x) = .ok b ↔ ¬c ∧ x = .ok b := by
  by_cases h : c <;> simp [h]

@[simp] theorem require_ok (c : Prop) [Decidable c] (e : ε) (x : Except ε α) (b : α) :
    (if c then x else .error e) = .ok b ↔ c ∧ x = .ok b := by
  by_cases h : c <;> simp [h]

end Aevia.Fallible
