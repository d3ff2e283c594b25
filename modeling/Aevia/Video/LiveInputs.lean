import Aevia.Foundation.Bytes
import Aevia.Foundation.MergeWrite

/-!
# Live inputs of the stream service

A live input carries a record of strings. The service answers a GET with the
whole live input and a PUT replaces what its body names, the whole record of
strings included; both are atomic. An update is a GET and then a PUT.
-/

set_option autoImplicit false

namespace Aevia.Lives
open Aevia.Bytes Aevia.MergeWrite Aevia.Run

abbrev Meta := Record Bytes Bytes

/-- `recording` is passed on as it is. -/
structure LiveInput where
  metaRecord : Option Meta
  defaultCreator : Option Bytes
  recording : Bytes

/-- `live.meta ?? {}`. -/
def LiveInput.metaOf (live : LiveInput) : Meta := live.metaRecord.getD (fun _ => none)

structure LivePatch where
  metaRecord : Option Meta
  defaultCreator : Option Bytes

def LivePatch.metaOf (patch : LivePatch) : Meta := patch.metaRecord.getD (fun _ => none)

def object (entries : List (Bytes × Bytes)) : Meta := fun k => entries.lookup k

structure PutBody where
  metaRecord : Meta
  defaultCreator : Option Bytes
  recording : Bytes

/-- The body that `updateLiveInput` sends after it has read the live input. -/
def putBody (current : LiveInput) (patch : LivePatch) : PutBody where
  metaRecord := merge current.metaOf patch.metaOf
  defaultCreator := patch.defaultCreator
  recording := current.recording

def LiveInput.put (live : LiveInput) (body : PutBody) : LiveInput where
  metaRecord := some body.metaRecord
  defaultCreator := body.defaultCreator.or live.defaultCreator
  recording := body.recording

/-- A live input and the calls of `updateLiveInput` on it: what their GET has
returned, and which have returned. -/
structure Updates (calls : List LivePatch) where
  live : LiveInput
  current : Fin calls.length → Option LiveInput
  returned : Fin calls.length → Bool

variable (calls : List LivePatch)

def untouched (live : LiveInput) : Updates calls := ⟨live, fun _ => none, fun _ => false⟩

def update (s : Updates calls) : Event (Fin calls.length) → Updates calls
  | .read i =>
    if s.returned i then s
    else { s with current := Function.update s.current i (some s.live) }
  | .write i => match s.current i with
    | none => s
    | some current => {
        live := s.live.put (putBody current (calls.get i))
        current := Function.update s.current i none
        returned := Function.update s.returned i true }

def patchOf (i : Fin calls.length) : Meta := (calls.get i).metaOf

/-- The updates as a shared record that is read, merged and written back. -/
def Updates.view {calls : List LivePatch} (s : Updates calls) :
    Shared (Fin calls.length) Bytes Bytes where
  stored := s.live.metaOf
  held := fun i => (s.current i).map LiveInput.metaOf
  done := s.returned

theorem view_untouched (live : LiveInput) : (untouched calls live).view = start live.metaOf := rfl

theorem view_update (s : Updates calls) (e : Event (Fin calls.length)) :
    (update calls s e).view = next (patchOf calls) s.view e := by
  cases e with
  | read i =>
    by_cases hreturned : s.returned i = true
    · simp [update, next, Updates.view, hreturned]
    · simp only [update, next, Updates.view, hreturned, Bool.false_eq_true, if_false]
      congr 1
      funext j
      exact Function.apply_update (fun _ => Option.map LiveInput.metaOf) s.current i _ j
  | write i =>
    cases hcurrent : s.current i with
    | none => simp [update, next, Updates.view, hcurrent]
    | some current =>
      simp only [update, next, Updates.view, hcurrent, Option.map_some]
      congr 1
      funext j
      exact Function.apply_update (fun _ => Option.map LiveInput.metaOf) s.current i _ j

end Aevia.Lives
