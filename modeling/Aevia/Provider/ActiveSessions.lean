import Aevia.Foundation.Run
import Aevia.Provider.SessionRegistry
import Mathlib.Data.Finset.Card

/-!
# The view of the active sessions

The registry is read as the set of the open sessions. `RemoveSession` keeps the
two in step; a session that is closed in another way stays in the registry.
-/

set_option autoImplicit false

namespace Aevia.Whip.Active
open Aevia.Bytes Aevia.KeyValue Aevia.Run

/-- The calls of a node. A session is named once it has been made. -/
inductive Call where
  | newSession (id : Bytes) (peerConn : Bool)
  | register (j : ℕ)
  | injectSession (j : ℕ)
  | removeSession (id : Bytes)
  | close (j : ℕ)
  deriving DecidableEq

def call (s : Server) : Call → Server
  | .newSession id peerConn => s.newSession id peerConn
  | .register j => if j < s.made then s.register j else s
  | .injectSession j =>
    if j < s.made then
      match s.injectSession (some j) with
      | .error _ => s
      | .ok t => t
    else s
  | .removeSession id => s.removeSession id
  | .close j => if j < s.made then s.close j else s

def established (s : Server) : Call → List ℕ
  | .register j => if j < s.made then [j] else []
  | .injectSession j =>
    if j < s.made ∧ s.sessions.get (s.session j).id = none then [j] else []
  | _ => []

abbrev History := Logged Server ℕ

def newHistory : History := ⟨newServer, []⟩

def openIDs (s : History) : Finset Bytes :=
  ((s.log.filter (fun j => !(s.state.session j).done)).map (fun j => (s.state.session j).id)).toFinset

structure Exact (s : History) : Prop where
  nodup : s.state.activeSessions.Nodup
  active : s.state.activeSessions.toFinset = openIDs s
  count : s.state.activeSessionCount = (openIDs s).card

/-- Only an open session is established, an ingest under a free identifier, and
an established session is closed by `RemoveSession` only. -/
def Proper (s : History) : Call → Prop
  | .register j =>
    (s.state.session j).done = false ∧ s.state.sessions.get (s.state.session j).id = none
  | .injectSession j => (s.state.session j).done = false
  | .close j => j ∈ s.log → (s.state.session j).done = true
  | _ => True

instance (s : History) : ∀ c, Decidable (Proper s c)
  | .register _ => inferInstanceAs (Decidable (_ ∧ _))
  | .injectSession _ => inferInstanceAs (Decidable (_ = _))
  | .close _ => inferInstanceAs (Decidable (_ → _))
  | .newSession _ _ => isTrue trivial
  | .removeSession _ => isTrue trivial

section Invariant

/-- What is registered is what is established and open. -/
structure Viewed (s : History) : Prop where
  made : ∀ j ∈ s.log, j < s.state.made
  viewed : ∀ id j, s.state.sessions.get id = some j ↔
    j ∈ s.log ∧ (s.state.session j).id = id ∧ (s.state.session j).done = false

theorem newHistory_viewed : Viewed newHistory where
  made := nofun
  viewed := by
    intro id j
    constructor
    · intro h
      cases h
    · rintro ⟨h, -⟩
      cases h

variable {s : History}

theorem Viewed.of_same (h : Viewed s) (t : Server) (hmade : s.state.made ≤ t.made)
    (hsessions : t.sessions = s.state.sessions) (hid : ∀ j ∈ s.log, (t.session j).id = (s.state.session j).id)
    (hdone : ∀ j ∈ s.log, (t.session j).done = (s.state.session j).done) : Viewed ⟨t, s.log⟩ where
  made := fun j hj => (h.made j hj).trans_le hmade
  viewed := by
    intro id j
    show t.sessions.get id = some j ↔ j ∈ s.log ∧ (t.session j).id = id ∧ (t.session j).done = false
    rw [hsessions, h.viewed]
    constructor
    · rintro ⟨hj, hrest⟩
      rw [hid j hj, hdone j hj]
      exact ⟨hj,hrest⟩
    · rintro ⟨hj, hrest⟩
      rw [hid j hj, hdone j hj] at hrest
      exact ⟨hj,hrest⟩

theorem Viewed.started (h : Viewed s) (id : Bytes) (peerConn : Bool) :
    Viewed ⟨s.state.newSession id peerConn, s.log⟩ := by
  have hsame : ∀ j ∈ s.log, (s.state.newSession id peerConn).session j = s.state.session j := by
    intro j hj
    rw [s.state.newSession_session, if_neg (h.made j hj).ne]
  refine h.of_same _ (Nat.le_succ _) rfl ?_ ?_
  · intro j hj
    rw [hsame j hj]
  · intro j hj
    rw [hsame j hj]

theorem Viewed.registered (h : Viewed s) (j : ℕ) (hj : j < s.state.made)
    (hopen : (s.state.session j).done = false)
    (hfree : s.state.sessions.get (s.state.session j).id = none) :
    Viewed ⟨s.state.register j, s.log++[j]⟩ where
  made := by
    intro k hk
    rcases List.mem_append.mp hk with hk | hk
    · exact h.made k hk
    · rw [List.mem_singleton.mp hk]
      exact hj
  viewed := by
    intro id k
    show (s.state.register j).sessions.get id = some k ↔ k ∈ s.log++[j] ∧
      (s.state.session k).id = id ∧ (s.state.session k).done = false
    rw [s.state.register_get, List.mem_append, List.mem_singleton]
    split_ifs with hid
    · rw [Option.some.injEq, hid]
      constructor
      · rintro rfl
        exact ⟨.inr rfl,rfl,hopen⟩
      · rintro ⟨hk | hk, hsame, hdone⟩
        · -- an open session under the identifier would have been found
          have hget := (h.viewed _ k).mpr ⟨hk,hsame,hdone⟩
          rw [hfree] at hget
          cases hget
        · exact hk.symm
    · rw [h.viewed]
      constructor
      · rintro ⟨hk, hrest⟩
        exact ⟨.inl hk,hrest⟩
      · rintro ⟨hk | rfl, hsame, hdone⟩
        · exact ⟨hk,hsame,hdone⟩
        · exact absurd hsame.symm hid

theorem Viewed.removed (h : Viewed s) (id : Bytes) : Viewed ⟨s.state.removeSession id, s.log⟩ := by
  unfold Server.removeSession
  rw [s.state.detach_found]
  cases hfound : s.state.sessions.get id with
  | none =>
    have hsame : (s.state.detach id).1 = s.state := by rw [Server.detach, hfound]
    rw [hsame]
    exact h
  | some j =>
    obtain ⟨hj, hid, hopen⟩ := (h.viewed id j).mp hfound
    refine ⟨fun k hk => ?_, ?_⟩
    · show k < (s.state.detach id).1.made
      rw [s.state.detach_made]
      exact h.made k hk
    · intro i k
      show (s.state.detach id).1.sessions.get i = some k ↔ k ∈ s.log ∧
        (((s.state.detach id).1.close j).session k).id = i ∧
        (((s.state.detach id).1.close j).session k).done = false
      rw [Server.close_id, Server.close_session, s.state.detach_get, s.state.detach_session]
      by_cases hk : k = j
      · rw [if_pos hk, hk]
        constructor
        · intro hget
          split_ifs at hget with hi
          exact absurd (((h.viewed i j).mp hget).2.1.symm.trans hid) hi
        · rintro ⟨-, -, hdone⟩
          cases hdone
      · rw [if_neg hk, ← h.viewed]
        split_ifs with hi
        · rw [hi, hfound, Option.some.injEq]
          exact ⟨nofun,fun hjk => hk hjk.symm⟩
        · rfl

theorem Viewed.closed (h : Viewed s) (j : ℕ) (hj : j ∈ s.log → (s.state.session j).done = true) :
    Viewed ⟨s.state.close j, s.log⟩ := by
  refine h.of_same _ le_rfl rfl (fun k _ => s.state.close_id j k) ?_
  intro k hk
  rw [s.state.close_session]
  split_ifs with hkj
  · exact (hj (hkj ▸ hk)).symm.trans (by rw [hkj])
  · rfl

theorem call_viewed (s : History) (c : Call) (h : Viewed s) (hc : Proper s c) :
    Viewed (logged call established s c) := by
  have hstay : Viewed ⟨s.state, s.log++[]⟩ := by rwa [List.append_nil]
  unfold logged
  cases c with
  | newSession id peerConn =>
    show Viewed ⟨s.state.newSession id peerConn, s.log++[]⟩
    rw [List.append_nil]
    exact h.started id peerConn
  | register j =>
    simp only [call, established]
    split_ifs with hj
    · exact h.registered j hj hc.1 hc.2
    · exact hstay
  | injectSession j =>
    simp only [call, established]
    by_cases hj : j < s.state.made
    · cases hinject : s.state.injectSession (some j) with
      | error e =>
        have htaken := s.state.injectSession_error j e hinject
        rw [if_pos hj, if_neg (fun h => htaken h.2)]
        exact hstay
      | ok t =>
        obtain ⟨hfree, rfl⟩ := s.state.injectSession_ok j t hinject
        rw [if_pos hj, if_pos ⟨hj,hfree⟩]
        exact h.registered j hj hc hfree
    · rw [if_neg hj, if_neg (fun h => hj h.1)]
      exact hstay
  | removeSession id =>
    show Viewed ⟨s.state.removeSession id, s.log++[]⟩
    rw [List.append_nil]
    exact h.removed id
  | close j =>
    simp only [call, established]
    rw [List.append_nil]
    split_ifs
    · exact h.closed j hc
    · exact h

theorem Viewed.mem_openIDs (h : Viewed s) (id : Bytes) :
    id ∈ openIDs s ↔ id ∈ s.state.activeSessions := by
  rw [openIDs, List.mem_toFinset, List.mem_map, Server.activeSessions, Map.mem_keys,
    Option.isSome_iff_exists]
  refine exists_congr (fun j => ?_)
  rw [h.viewed, List.mem_filter, Bool.not_eq_true']
  tauto

theorem viewed_exact (h : Viewed s) : Exact s := by
  have hnodup : s.state.activeSessions.Nodup := s.state.sessions.keys_nodup
  have hactive : s.state.activeSessions.toFinset = openIDs s := by
    ext id
    rw [List.mem_toFinset, h.mem_openIDs]
  refine ⟨hnodup, hactive, ?_⟩
  rw [← hactive, List.toFinset_card_of_nodup hnodup]
  exact (List.length_map _).symm

end Invariant

/-- In a run of proper calls the view is exact at every moment. -/
theorem view_exact (calls : List Call)
    (hcalls : Along (logged call established) Proper newHistory calls) :
    ∀ before, before <+: calls → Exact (run (logged call established) newHistory before) := by
  rintro before ⟨after, rfl⟩
  rw [along_append] at hcalls
  exact viewed_exact
    (along_invariant _ _ Viewed call_viewed newHistory before newHistory_viewed hcalls.1)

def properCalls : List Call :=
  [.newSession [1] false, .injectSession 0, .newSession [2] true, .register 1, .newSession [3] false,
    .injectSession 2, .removeSession [1], .close 0]

theorem properCalls_exact : Exact (run (logged call established) newHistory properCalls) :=
  view_exact properCalls (by decide) properCalls List.prefix_rfl

def endedIngest : List Call := [.newSession [1] true, .register 0, .close 0]

theorem endedIngest_inexact : ¬∀ before, before <+: endedIngest →
    Exact (run (logged call established) newHistory before) := by
  intro h
  have hcount := (h endedIngest List.prefix_rfl).count
  revert hcount
  decide

theorem no_load (s : History) (hs : Exact s) (hended : ∀ j ∈ s.log, (s.state.session j).done = true) :
    s.state.activeSessionCount = 0 := by
  have hnone : s.log.filter (fun j => !(s.state.session j).done) = [] := by
    rw [List.filter_eq_nil_iff]
    intro j hj
    rw [hended j hj]
    exact Bool.false_ne_true
  rw [hs.count, openIDs, hnone]
  rfl

end Aevia.Whip.Active
