import Aevia.Foundation.GoError
import Aevia.Foundation.KeyValue
import Mathlib.Logic.Function.Basic

/-!
# The registry of sessions

Sessions are made by the ingest handler and for mirror streams, and found by
their identifiers. The ingest handler registers what it has made without a look
at what is registered; a mirror stream is refused an identifier that is taken.
-/

set_option autoImplicit false

namespace Aevia.Whip
open Aevia.Bytes Aevia.KeyValue

/-- A session, without its hubs and sinks. A mirror session has no peer connection. -/
structure Session where
  id : Bytes
  peerConn : Bool
  done : Bool

/-- The sessions that have been made, by the order of making, and the registered ones. -/
structure Server where
  made : ℕ
  session : ℕ → Session
  sessions : Map Bytes ℕ

def newServer : Server := ⟨0, fun _ => ⟨[], false, false⟩, Map.empty⟩

namespace Server
variable (s : Server)

def newSession (id : Bytes) (peerConn : Bool) : Server :=
  { s with
    made := s.made+1
    session := Function.update s.session s.made ⟨id, peerConn, false⟩ }

/-- `Session.Close`; a second call changes nothing. -/
def close (j : ℕ) : Server :=
  { s with session := Function.update s.session j ⟨(s.session j).id, false, true⟩ }

/-- What `handleIngest` does under the lock. -/
def register (j : ℕ) : Server := { s with sessions := s.sessions.put (s.session j).id j }

def errSessionNotFound : GoError := .new "whip: session not found"

def getSession (id : Bytes) : Except GoError ℕ :=
  match s.sessions.get id with
  | none => .error errSessionNotFound
  | some j => .ok j

def activeSessions : List Bytes := s.sessions.keys

def activeSessionCount : ℕ := s.sessions.entries.length

def injectSession (sess : Option ℕ) : Except GoError Server :=
  match sess with
  | none => .error (.new "whip: InjectSession requires non-nil session")
  | some j =>
    if (s.sessions.get (s.session j).id).isSome then
      .error (.errorf "whip: session %s already registered" [.text (s.session j).id])
    else .ok (s.register j)

/-- What `RemoveSession` does under the lock, and the session that it has to close. -/
def detach (id : Bytes) : Server × Option ℕ :=
  match s.sessions.get id with
  | none => (s, none)
  | some j => ({ s with sessions := s.sessions.delete id }, some j)

def closeFound (found : Option ℕ) : Server :=
  match found with
  | none => s
  | some j => s.close j

def removeSession (id : Bytes) : Server := (s.detach id).1.closeFound (s.detach id).2

section Lemmas

@[simp] theorem newSession_sessions (id : Bytes) (peerConn : Bool) :
    (s.newSession id peerConn).sessions = s.sessions := rfl

@[simp] theorem newSession_made (id : Bytes) (peerConn : Bool) :
    (s.newSession id peerConn).made = s.made+1 := rfl

@[simp] theorem close_sessions (j : ℕ) : (s.close j).sessions = s.sessions := rfl

@[simp] theorem close_made (j : ℕ) : (s.close j).made = s.made := rfl

theorem close_session (j k : ℕ) : (s.close j).session k =
    if k = j then ⟨(s.session j).id, false, true⟩ else s.session k :=
  Function.update_apply _ _ _ _

@[simp] theorem close_id (j k : ℕ) : ((s.close j).session k).id = (s.session k).id := by
  rw [close_session]
  split_ifs with h
  · rw [h]
  · rfl

theorem newSession_session (id : Bytes) (peerConn : Bool) (k : ℕ) :
    (s.newSession id peerConn).session k =
      if k = s.made then ⟨id, peerConn, false⟩ else s.session k :=
  Function.update_apply _ _ _ _

@[simp] theorem register_session (j : ℕ) : (s.register j).session = s.session := rfl

@[simp] theorem register_made (j : ℕ) : (s.register j).made = s.made := rfl

theorem register_get (j : ℕ) (k : Bytes) : (s.register j).sessions.get k =
    if k = (s.session j).id then some j else s.sessions.get k := by
  rw [register, Map.get_put]
  split_ifs <;> rfl

@[simp] theorem detach_session (id : Bytes) : (s.detach id).1.session = s.session := by
  unfold detach
  split <;> rfl

@[simp] theorem detach_made (id : Bytes) : (s.detach id).1.made = s.made := by
  unfold detach
  split <;> rfl

theorem detach_found (id : Bytes) : (s.detach id).2 = s.sessions.get id := by
  unfold detach
  split <;> rename_i h <;> exact h.symm

theorem detach_get (id k : Bytes) :
    (s.detach id).1.sessions.get k = if k = id then none else s.sessions.get k := by
  unfold detach
  split
  · rename_i h
    split_ifs with hk
    · rw [hk, h]
    · rfl
  · show (s.sessions.delete id).get k = _
    rw [Map.get_delete]
    split_ifs <;> rfl

@[simp] theorem closeFound_sessions (found : Option ℕ) :
    (s.closeFound found).sessions = s.sessions := by
  cases found <;> rfl

@[simp] theorem closeFound_made (found : Option ℕ) : (s.closeFound found).made = s.made := by
  cases found <;> rfl

@[simp] theorem closeFound_id (found : Option ℕ) (k : ℕ) :
    ((s.closeFound found).session k).id = (s.session k).id := by
  cases found with
  | none => rfl
  | some j => exact s.close_id j k

theorem getSession_ok (id : Bytes) (j : ℕ) :
    s.getSession id = .ok j ↔ s.sessions.get id = some j := by
  unfold getSession
  cases s.sessions.get id <;> simp

theorem injectSession_ok (j : ℕ) (t : Server) (h : s.injectSession (some j) = .ok t) :
    s.sessions.get (s.session j).id = none ∧ t = s.register j := by
  simp only [injectSession] at h
  split_ifs at h with htaken
  exact ⟨Option.not_isSome_iff_eq_none.mp htaken,(Except.ok.inj h).symm⟩

theorem injectSession_error (j : ℕ) (e : GoError) (h : s.injectSession (some j) = .error e) :
    s.sessions.get (s.session j).id ≠ none := by
  intro hfree
  simp only [injectSession, hfree, Option.isSome_none, Bool.false_eq_true, if_false] at h
  cases h

end Lemmas

end Server

end Aevia.Whip
