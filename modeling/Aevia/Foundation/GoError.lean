import Aevia.Foundation.Bytes

/-!
# Error values

An error is a fixed text, a format with its arguments, or a format that wraps
the error that caused it. Tests for a sentinel look through the wrapping.
-/

set_option autoImplicit false

namespace Aevia

inductive Arg where
  | text (s : Bytes)
  | int (n : ℤ)
  deriving DecidableEq

inductive GoError where
  | new (text : String)
  | errorf (format : String) (args : List Arg)
  | wrap (format : String) (args : List Arg) (cause : GoError)
  deriving DecidableEq

namespace GoError

/-- `errors.Is`: the error or something it wraps is the target. -/
def is : GoError → GoError → Bool
  | .wrap format args cause, target => decide (.wrap format args cause = target) || cause.is target
  | e, target => decide (e = target)

@[simp] theorem wrap_is (format : String) (args : List Arg) (cause target : GoError) :
    (GoError.wrap format args cause).is target =
      (decide (.wrap format args cause = target) || cause.is target) := rfl

/-- A failed step under the caller's format. -/
def context {α : Type} (format : String) : Except GoError α → Except GoError α
  | .ok a => .ok a
  | .error e => .error (.wrap format [] e)

@[simp] theorem context_ok {α : Type} (format : String) (x : Except GoError α) (a : α) :
    context format x = .ok a ↔ x = .ok a := by
  cases x <;> simp [context]

theorem context_error {α : Type} (format : String) (x : Except GoError α) (e : GoError)
    (h : context format x = .error e) : ∃ cause, e = .wrap format [] cause := by
  cases x with
  | ok a => cases h
  | error cause => exact ⟨cause,(Except.error.inj h).symm⟩

end GoError

end Aevia
