import Aevia.Foundation.Bytes
import Aevia.Foundation.KeyValue
import Mathlib.Logic.Function.Basic

/-!
# Viewers of live sessions

A viewer is bound to the session it asked for, under a key made of the session's
identifier and its own. What closes a viewer first takes it from the map and
then closes its peer connection, in two steps.
-/

set_option autoImplicit false

namespace Aevia.Whep
open Aevia.Bytes Aevia.KeyValue

structure ViewerBinding where
  sessionID : Bytes
  viewerID : Bytes

def viewerKey (sessionID viewerID : Bytes) : Bytes := sessionID++0x3A::viewerID

def ViewerBinding.key (b : ViewerBinding) : Bytes := viewerKey b.sessionID b.viewerID

/-- The hexadecimal form of sixteen random bytes. -/
def newViewerID (buf : {b : Bytes // b.length = 16}) : Bytes := hexEncode buf.1

/-- The bindings by the order in which they are made, those in the map, and the
peer connections that are closed. -/
structure Server where
  made : ℕ
  binding : ℕ → ViewerBinding
  viewers : Map Bytes ℕ
  pcClosed : ℕ → Bool

def newServer : Server := ⟨0, fun _ => ⟨[], []⟩, Map.empty, fun _ => false⟩

namespace Server
variable (s : Server)

/-- What `handleWhep` does under the lock. -/
def bind (b : ViewerBinding) : Server :=
  { s with
    made := s.made+1
    binding := Function.update s.binding s.made b
    viewers := s.viewers.put b.key s.made }

/-- What `closeViewer` does under the lock. -/
def detach (v : ℕ) : Server :=
  if s.viewers.get (s.binding v).key = some v then
    { s with viewers := s.viewers.delete (s.binding v).key }
  else s

def closePC (v : ℕ) : Server := { s with pcClosed := Function.update s.pcClosed v true }

/-- What `handleWhepDelete` does under the lock, and the viewer it has to close. -/
def deleteViewer (sessionID viewerID : Bytes) : Server × Option ℕ :=
  if sessionID = [] ∨ viewerID = [] then (s, none)
  else match s.viewers.get (viewerKey sessionID viewerID) with
    | none => (s, none)
    | some v => ({ s with viewers := s.viewers.delete (viewerKey sessionID viewerID) }, some v)

def activeViewers (sessionID : Bytes) : ℕ :=
  (s.viewers.entries.filter (fun e => (s.binding e.2).sessionID = sessionID)).length

section Lemmas

@[simp] theorem detach_made (v : ℕ) : (s.detach v).made = s.made := by
  unfold detach
  split_ifs <;> rfl

@[simp] theorem detach_binding (v : ℕ) : (s.detach v).binding = s.binding := by
  unfold detach
  split_ifs <;> rfl

@[simp] theorem detach_pcClosed (v : ℕ) : (s.detach v).pcClosed = s.pcClosed := by
  unfold detach
  split_ifs <;> rfl

theorem bind_binding (b : ViewerBinding) (v : ℕ) :
    (s.bind b).binding v = if v = s.made then b else s.binding v :=
  Function.update_apply _ _ _ _

theorem closePC_pcClosed (v w : ℕ) :
    (s.closePC v).pcClosed w = if w = v then true else s.pcClosed w :=
  Function.update_apply _ _ _ _

theorem bind_get (b : ViewerBinding) (key : Bytes) :
    (s.bind b).viewers.get key = if key = b.key then some s.made else s.viewers.get key := by
  show (s.viewers.put b.key s.made).get key = _
  rw [Map.get_put]
  split_ifs <;> rfl

theorem delete_get (key key' : Bytes) :
    (s.viewers.delete key).get key' = if key' = key then none else s.viewers.get key' := by
  rw [Map.get_delete]
  split_ifs <;> rfl

theorem deleteViewer_found (sessionID viewerID : Bytes) (v : ℕ)
    (h : (s.deleteViewer sessionID viewerID).2 = some v) :
    s.viewers.get (viewerKey sessionID viewerID) = some v ∧
    (s.deleteViewer sessionID viewerID).1 =
      { s with viewers := s.viewers.delete (viewerKey sessionID viewerID) } := by
  unfold deleteViewer at h ⊢
  split_ifs at h ⊢ with hempty
  cases hget : s.viewers.get (viewerKey sessionID viewerID) with
  | none =>
    rw [hget] at h
    cases h
  | some w =>
    rw [hget] at h
    exact ⟨h,rfl⟩

end Lemmas

end Server

section Keys

theorem colon_not_hex (bs : Bytes) : (0x3A : UInt8) ∉ hexEncode bs := by
  have hdigit : ∀ d < 16, hexDigit d ≠ 0x3A := by decide
  induction bs with
  | nil => nofun
  | cons b bs ih =>
    have hlt := b.toNat_lt
    rw [hexEncode, List.mem_cons, List.mem_cons]
    rintro (h | h | h)
    · exact hdigit _ (by omega) h.symm
    · exact hdigit _ (by omega) h.symm
    · exact ih h

theorem viewerKey_inj (s t v w : Bytes) (hv : 0x3A ∉ v) (hw : 0x3A ∉ w)
    (h : viewerKey s v = viewerKey t w) : v = w :=
  (separator_append_inj 0x3A s t v w hv hw h).2

theorem viewerKey_suffix (s t v w : Bytes) (hv : 0x3A ∉ v) (h : viewerKey s v = viewerKey t w) :
    v <:+ w := by
  have hleft : 0x3A::v <:+ viewerKey t w := ⟨s,h⟩
  have hright : 0x3A::w <:+ viewerKey t w := ⟨t,rfl⟩
  rcases List.suffix_or_suffix_of_suffix hleft hright with hvw | hwv
  · exact (List.suffix_cons_iff.mp hvw).elim (fun heq => by rw [List.tail_eq_of_cons_eq heq])
      (fun hsuffix => (List.suffix_cons _ v).trans hsuffix)
  · rcases List.suffix_cons_iff.mp hwv with heq | hsuffix
    · rw [List.tail_eq_of_cons_eq heq]
    · exact absurd (hsuffix.subset List.mem_cons_self) hv

end Keys

end Aevia.Whep
