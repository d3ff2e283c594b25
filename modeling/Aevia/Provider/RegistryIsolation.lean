import Aevia.Foundation.Run
import Aevia.Provider.SessionRegistry

/-!
# Isolation of the registered sessions

Ingest handlers and mirror streams share the registry, each with a session of
its own. A stream that ends removes whatever is registered under its identifier,
and closes it in a step of its own.
-/

set_option autoImplicit false

namespace Aevia.Whip.Registry
open Aevia.Bytes Aevia.KeyValue Aevia.Run

/-- Where the handler of a session is: an ingest that negotiates, serves or has
failed; a mirror stream before `InjectSession`, in its loop, refused, between
the two steps of `RemoveSession`, or at the end. -/
inductive Stage where
  | negotiating
  | serving
  | failed
  | joining
  | mirroring
  | refused
  | leaving (found : Option ℕ)
  | left
  deriving DecidableEq

structure Node where
  server : Server
  stage : ℕ → Stage

def newNode : Node := ⟨newServer, fun _ => .left⟩

/-- The steps of the handlers and of the callbacks of peer connections. A handler
goes by the session it has made, under an identifier that `sessionID` gives or
that the remote node has chosen. -/
inductive Event where
  | offer (id : Bytes)
  | negotiationFailed (j : ℕ)
  | register (j : ℕ)
  | connectionLost (j : ℕ)
  | stream (id : Bytes)
  | inject (j : ℕ)
  | endStream (j : ℕ)
  | closeFound (j : ℕ)

def Event.handler : Event → Option ℕ
  | offer _ | stream _ => none
  | negotiationFailed j | register j | connectionLost j | inject j | endStream j | closeFound j =>
    some j

section Step
variable (n : Node)

def start (id : Bytes) (peerConn : Bool) (stage : Stage) : Node :=
  ⟨n.server.newSession id peerConn, Function.update n.stage n.server.made stage⟩

def advance (server : Server) (j : ℕ) (stage : Stage) : Node :=
  ⟨server, Function.update n.stage j stage⟩

def next : Event → Node
  | .offer id => start n id true .negotiating
  | .negotiationFailed j =>
    if n.stage j = .negotiating then advance n (n.server.close j) j .failed else n
  | .register j =>
    if n.stage j = .negotiating then advance n (n.server.register j) j .serving else n
  | .connectionLost j =>
    if n.stage j = .negotiating ∨ n.stage j = .serving then { n with server := n.server.close j }
    else n
  | .stream id => if id = [] then n else start n id false .joining
  | .inject j =>
    if n.stage j = .joining then
      match n.server.injectSession (some j) with
      | .error _ => advance n (n.server.close j) j .refused
      | .ok server => advance n server j .mirroring
    else n
  | .endStream j =>
    if n.stage j = .mirroring then
      let out := n.server.detach (n.server.session j).id
      advance n out.1 j (.leaving out.2)
    else n
  | .closeFound j => match n.stage j with
    | .leaving found => advance n (n.server.closeFound found) j .left
    | _ => n

end Step

/-- A registered session stays retrievable until its own stream ends, and a
session is closed in a step of its own handler. -/
def Isolated (n : Node) (e : Event) : Prop :=
  (∀ id j, n.server.getSession id = .ok j →
    (next n e).server.getSession id = .ok j ∨ e = .endStream j) ∧
  ∀ j, (n.server.session j).done = false → ((next n e).server.session j).done = true →
    e.handler = some j

/-- The ingest handler registers under an identifier that is free. -/
def FreshID (n : Node) (e : Event) : Prop :=
  ∀ j, e = .register j → n.stage j = .negotiating →
    n.server.sessions.get (n.server.session j).id = none

section Invariants

def Registered (stage : Stage) : Prop := stage = .serving ∨ stage = .mirroring

/-- What is registered is so under its own identifier, by a handler that has
registered it and not yet removed it. -/
structure Placed (n : Node) : Prop where
  unmade : ∀ j, n.server.made ≤ j → n.stage j = .left
  placed : ∀ id j, n.server.sessions.get id = some j →
    id = (n.server.session j).id ∧ Registered (n.stage j)

/-- What a handler has registered is still there, and a stream that ends has
found its own. -/
structure Kept (n : Node) : Prop where
  kept : ∀ j, Registered (n.stage j) → n.server.sessions.get (n.server.session j).id = some j
  own : ∀ j found, n.stage j = .leaving found → found = some j

theorem newNode_placed : Placed newNode where
  unmade := fun _ _ => rfl
  placed := fun _ _ h => by cases h

theorem newNode_kept : Kept newNode where
  kept := by
    rintro j (h | h) <;> cases h
  own := nofun

variable {n : Node}

theorem Placed.started (h : Placed n) (id : Bytes) (peerConn : Bool) (stage : Stage) :
    Placed (start n id peerConn stage) where
  unmade := by
    intro j hj
    have hmade : n.server.made+1 ≤ j := hj
    show Function.update n.stage n.server.made stage j = .left
    rw [Function.update_of_ne (by omega)]
    exact h.unmade j (by omega)
  placed := by
    intro k j hget
    obtain ⟨hid, hstage⟩ := h.placed k j hget
    have hne : j ≠ n.server.made := by
      rintro rfl
      rw [h.unmade _ le_rfl] at hstage
      rcases hstage with hstage | hstage <;> cases hstage
    show k = ((n.server.newSession id peerConn).session j).id ∧
      Registered (Function.update n.stage n.server.made stage j)
    rw [n.server.newSession_session, if_neg hne, Function.update_of_ne hne]
    exact ⟨hid,hstage⟩

theorem Placed.advanced (h : Placed n) (server : Server) (j : ℕ) (stage : Stage)
    (hj : n.stage j ≠ .left) (hmade : server.made = n.server.made)
    (hid : ∀ k, (server.session k).id = (n.server.session k).id)
    (hget : ∀ id k, server.sessions.get id = some k →
      n.server.sessions.get id = some k ∧ k ≠ j ∨
        k = j ∧ id = (n.server.session j).id ∧ Registered stage) :
    Placed (advance n server j stage) where
  unmade := by
    intro k hk
    have hunmade : n.server.made ≤ k := by
      rw [← hmade]
      exact hk
    have hne : k ≠ j := by
      rintro rfl
      exact hj (h.unmade k hunmade)
    show Function.update n.stage j stage k = .left
    rw [Function.update_of_ne hne]
    exact h.unmade k hunmade
  placed := by
    intro id k hk
    show id = (server.session k).id ∧ Registered (Function.update n.stage j stage k)
    rw [hid]
    rcases hget id k hk with ⟨hk, hne⟩ | ⟨rfl, rfl, hstage⟩
    · rw [Function.update_of_ne hne]
      exact h.placed id k hk
    · rw [Function.update_self]
      exact ⟨rfl,hstage⟩

theorem Placed.other (h : Placed n) (j : ℕ) (hj : ¬Registered (n.stage j)) (id : Bytes) (k : ℕ)
    (hget : n.server.sessions.get id = some k) : k ≠ j := by
  rintro rfl
  exact hj (h.placed id k hget).2

theorem Placed.closes (h : Placed n) (server : Server) (j : ℕ) (stage : Stage)
    (hj : n.stage j ≠ .left) (hregistered : ¬Registered (n.stage j))
    (hmade : server.made = n.server.made) (hsessions : server.sessions = n.server.sessions)
    (hid : ∀ k, (server.session k).id = (n.server.session k).id) :
    Placed (advance n server j stage) := by
  apply h.advanced server j stage hj hmade hid
  rw [hsessions]
  exact fun id k hget => .inl ⟨hget,h.other j hregistered id k hget⟩

theorem Placed.registers (h : Placed n) (j : ℕ) (stage : Stage) (hj : n.stage j ≠ .left)
    (hregistered : ¬Registered (n.stage j)) (hstage : Registered stage) :
    Placed (advance n (n.server.register j) j stage) := by
  apply h.advanced (n.server.register j) j stage hj rfl (fun _ => rfl)
  intro id k hget
  rw [n.server.register_get] at hget
  split_ifs at hget with hid
  · exact .inr ⟨(Option.some.inj hget).symm,hid,hstage⟩
  · exact .inl ⟨hget,h.other j hregistered id k hget⟩

theorem Placed.detaches (h : Placed n) (j : ℕ) (stage : Stage) (hj : n.stage j ≠ .left) :
    Placed (advance n (n.server.detach (n.server.session j).id).1 j stage) := by
  apply h.advanced _ j stage hj (n.server.detach_made _) (fun k => by rw [n.server.detach_session])
  intro id k hget
  rw [n.server.detach_get] at hget
  split_ifs at hget with hid
  refine .inl ⟨hget, ?_⟩
  rintro rfl
  exact hid (h.placed id k hget).1

theorem next_placed (e : Event) (h : Placed n) : Placed (next n e) := by
  fun_cases next n e
  case case1 id => exact h.started id true .negotiating
  case case2 j hj =>
    exact h.closes (n.server.close j) j .failed (by simp [hj]) (by simp [Registered, hj]) rfl rfl
      (n.server.close_id j)
  case case4 j hj => exact h.registers j .serving (by simp [hj]) (by simp [Registered, hj]) (.inl rfl)
  case case6 j hj =>
    refine ⟨h.unmade, ?_⟩
    intro id k hget
    rw [n.server.close_id]
    exact h.placed id k hget
  case case9 id hid => exact h.started id false .joining
  case case10 j hj e he =>
    exact h.closes (n.server.close j) j .refused (by simp [hj]) (by simp [Registered, hj]) rfl rfl
      (n.server.close_id j)
  case case11 j hj server hok =>
    rw [(n.server.injectSession_ok j server hok).2]
    exact h.registers j .mirroring (by simp [hj]) (by simp [Registered, hj]) (.inr rfl)
  case case13 j hj out => exact h.detaches j _ (by simp [hj])
  case case15 j found hj =>
    exact h.closes _ j .left (by simp [hj]) (by simp [Registered, hj])
      (n.server.closeFound_made found) (n.server.closeFound_sessions found)
      (n.server.closeFound_id found)
  all_goals exact h

theorem Kept.started (h : Kept n) (id : Bytes) (peerConn : Bool) (stage : Stage)
    (hstage : stage = .negotiating ∨ stage = .joining) : Kept (start n id peerConn stage) where
  kept := by
    intro j hj
    have hne : j ≠ n.server.made := by
      rintro rfl
      change Registered (Function.update n.stage _ stage _) at hj
      rw [Function.update_self] at hj
      rcases hstage with rfl | rfl <;> rcases hj with hj | hj <;> cases hj
    change Registered (Function.update n.stage _ stage j) at hj
    rw [Function.update_of_ne hne] at hj
    show n.server.sessions.get ((n.server.newSession id peerConn).session j).id = some j
    rw [n.server.newSession_session, if_neg hne]
    exact h.kept j hj
  own := by
    intro j found hj
    change Function.update n.stage _ stage j = _ at hj
    rw [Function.update_apply] at hj
    split_ifs at hj
    · rcases hstage with rfl | rfl <;> cases hj
    · exact h.own j found hj

theorem Kept.advanced (h : Kept n) (server : Server) (j : ℕ) (stage : Stage)
    (hid : ∀ k, (server.session k).id = (n.server.session k).id)
    (hget : ∀ k, k ≠ j → n.server.sessions.get (n.server.session k).id = some k →
      server.sessions.get (n.server.session k).id = some k)
    (hj : Registered stage → server.sessions.get (n.server.session j).id = some j)
    (hown : ∀ found, stage = .leaving found → found = some j) : Kept (advance n server j stage) where
  kept := by
    intro k hk
    change Registered (Function.update n.stage j stage k) at hk
    show server.sessions.get (server.session k).id = some k
    rw [hid]
    by_cases hne : k = j
    · rw [hne, Function.update_self] at hk
      rw [hne]
      exact hj hk
    · rw [Function.update_of_ne hne] at hk
      exact hget k hne (h.kept k hk)
  own := by
    intro k found hk
    change Function.update n.stage j stage k = _ at hk
    by_cases hne : k = j
    · rw [hne, Function.update_self] at hk
      rw [hne]
      exact hown found hk
    · rw [Function.update_of_ne hne] at hk
      exact h.own k found hk

theorem Kept.closes (h : Kept n) (server : Server) (j : ℕ) (stage : Stage)
    (hstage : ¬Registered stage) (hown : ∀ found, stage ≠ .leaving found)
    (hsessions : server.sessions = n.server.sessions)
    (hid : ∀ k, (server.session k).id = (n.server.session k).id) :
    Kept (advance n server j stage) := by
  refine h.advanced server j stage hid ?_ (fun hj => absurd hj hstage)
    (fun found hj => absurd hj (hown found))
  rw [hsessions]
  exact fun k _ hk => hk

theorem Kept.registers (h : Kept n) (j : ℕ) (stage : Stage) (hown : ∀ found, stage ≠ .leaving found)
    (hfree : n.server.sessions.get (n.server.session j).id = none) :
    Kept (advance n (n.server.register j) j stage) := by
  refine h.advanced (n.server.register j) j stage (fun _ => rfl) ?_ ?_
    (fun found hj => absurd hj (hown found))
  · intro k _ hk
    rw [n.server.register_get, if_neg]
    · exact hk
    · intro hid
      rw [hid, hfree] at hk
      cases hk
  · intro _
    rw [n.server.register_get, if_pos rfl]

theorem Kept.detaches (h : Kept n) (j : ℕ) (hj : Registered (n.stage j)) :
    Kept (advance n (n.server.detach (n.server.session j).id).1 j
      (.leaving (n.server.detach (n.server.session j).id).2)) := by
  have hmine := h.kept j hj
  refine h.advanced _ j _ (fun k => by rw [n.server.detach_session]) ?_ ?_ ?_
  · intro k hne hk
    rw [n.server.detach_get, if_neg]
    · exact hk
    · intro hid
      rw [hid, hmine] at hk
      exact hne (Option.some.inj hk).symm
  · rintro (hstage | hstage) <;> cases hstage
  · intro found hfound
    rw [← Stage.leaving.inj hfound, n.server.detach_found]
    exact hmine

theorem next_kept (e : Event) (h : Kept n) (hfresh : FreshID n e) :
    Kept (next n e) := by
  fun_cases next n e
  case case1 id => exact h.started id true .negotiating (.inl rfl)
  case case2 j hj =>
    exact h.closes (n.server.close j) j .failed (by simp [Registered]) nofun rfl (n.server.close_id j)
  case case4 j hj => exact h.registers j .serving nofun (hfresh j rfl hj)
  case case6 j hj =>
    refine ⟨?_, h.own⟩
    intro k hk
    show n.server.sessions.get ((n.server.close j).session k).id = some k
    rw [n.server.close_id]
    exact h.kept k hk
  case case9 id hid => exact h.started id false .joining (.inr rfl)
  case case10 j hj e he =>
    exact h.closes (n.server.close j) j .refused (by simp [Registered]) nofun rfl (n.server.close_id j)
  case case11 j hj server hok =>
    obtain ⟨hfree, rfl⟩ := n.server.injectSession_ok j server hok
    exact h.registers j .mirroring nofun hfree
  case case13 j hj out => exact h.detaches j (.inr hj)
  case case15 j found hj =>
    exact h.closes _ j .left (by simp [Registered]) nofun (n.server.closeFound_sessions found)
      (n.server.closeFound_id found)
  all_goals exact h

end Invariants

section Steps
variable {n : Node}

theorem isolated_of_closes (e : Event) (server : Server) (hserver : (next n e).server = server)
    (hsessions : server.sessions = n.server.sessions)
    (hdone : ∀ k, (n.server.session k).done = false → (server.session k).done = true →
      e.handler = some k) : Isolated n e := by
  unfold Isolated
  rw [hserver]
  refine ⟨?_, hdone⟩
  intro id j hj
  rw [n.server.getSession_ok] at hj
  rw [server.getSession_ok, hsessions]
  exact .inl hj

theorem isolated_of_same (e : Event) (h : (next n e).server = n.server) : Isolated n e := by
  refine isolated_of_closes e n.server h rfl ?_
  intro k hopen hdone
  rw [hopen] at hdone
  cases hdone

theorem close_own (e : Event) (j : ℕ) (he : e.handler = some j) (k : ℕ)
    (hopen : (n.server.session k).done = false) (hdone : ((n.server.close j).session k).done = true) :
    e.handler = some k := by
  rw [n.server.close_session] at hdone
  split_ifs at hdone with hk
  · rw [he, hk]
  · rw [hopen] at hdone
    cases hdone

theorem start_open (id : Bytes) (peerConn : Bool) (k : ℕ)
    (hopen : (n.server.session k).done = false) :
    ((n.server.newSession id peerConn).session k).done = false := by
  rw [n.server.newSession_session]
  split_ifs
  · rfl
  · exact hopen

theorem isolated_of_registers (e : Event) (j : ℕ) (hserver : (next n e).server = n.server.register j)
    (hfree : n.server.sessions.get (n.server.session j).id = none) : Isolated n e := by
  unfold Isolated
  rw [hserver]
  constructor
  · intro id k hk
    rw [n.server.getSession_ok] at hk
    left
    rw [Server.getSession_ok, n.server.register_get, if_neg]
    · exact hk
    · intro hid
      rw [hid, hfree] at hk
      cases hk
  · intro k hopen hdone
    rw [n.server.register_session, hopen] at hdone
    cases hdone

theorem isolated_of_starts (e : Event) (id : Bytes) (peerConn : Bool)
    (hserver : (next n e).server = n.server.newSession id peerConn) : Isolated n e := by
  refine isolated_of_closes e _ hserver rfl ?_
  intro k hopen hdone
  rw [start_open id peerConn k hopen] at hdone
  cases hdone

theorem endStream_isolated (hn : Kept n) (j : ℕ) (hj : n.stage j = .mirroring) :
    Isolated n (.endStream j) := by
  have hserver : (next n (.endStream j)).server =
      (n.server.detach (n.server.session j).id).1 := by
    simp only [next, if_pos hj]
    rfl
  have hmine := hn.kept j (.inr hj)
  unfold Isolated
  rw [hserver]
  constructor
  · intro id k hk
    rw [n.server.getSession_ok] at hk
    by_cases hid : id = (n.server.session j).id
    · right
      rw [hid, hmine] at hk
      rw [Option.some.inj hk]
    · left
      rwa [Server.getSession_ok, n.server.detach_get, if_neg hid]
  · intro k hopen hdone
    rw [n.server.detach_session, hopen] at hdone
    cases hdone

theorem next_isolated (e : Event) (hn : Kept n) (hfresh : FreshID n e) : Isolated n e := by
  cases e with
  | offer id => exact isolated_of_starts _ id true rfl
  | negotiationFailed j =>
    by_cases hj : n.stage j = .negotiating
    · exact isolated_of_closes _ (n.server.close j) (by simp only [next, if_pos hj]; rfl) rfl
        (close_own _ j rfl)
    · exact isolated_of_same _ (by simp only [next, if_neg hj])
  | register j =>
    by_cases hj : n.stage j = .negotiating
    · exact isolated_of_registers _ j (by simp only [next, if_pos hj]; rfl) (hfresh j rfl hj)
    · exact isolated_of_same _ (by simp only [next, if_neg hj])
  | connectionLost j =>
    by_cases hj : n.stage j = .negotiating ∨ n.stage j = .serving
    · exact isolated_of_closes _ (n.server.close j) (by simp only [next, if_pos hj]) rfl
        (close_own _ j rfl)
    · exact isolated_of_same _ (by simp only [next, if_neg hj])
  | stream id =>
    by_cases hid : id = []
    · exact isolated_of_same _ (by simp only [next, if_pos hid])
    · exact isolated_of_starts _ id false (by simp only [next, if_neg hid]; rfl)
  | inject j =>
    by_cases hj : n.stage j = .joining
    · cases hinject : n.server.injectSession (some j) with
      | error err =>
        exact isolated_of_closes _ (n.server.close j)
          (by simp only [next, if_pos hj, hinject]; rfl) rfl (close_own _ j rfl)
      | ok server =>
        obtain ⟨hfree, rfl⟩ := n.server.injectSession_ok j server hinject
        exact isolated_of_registers _ j (by simp only [next, if_pos hj, hinject]; rfl) hfree
    · exact isolated_of_same _ (by simp only [next, if_neg hj])
  | endStream j =>
    by_cases hj : n.stage j = .mirroring
    · exact endStream_isolated hn j hj
    · exact isolated_of_same _ (by simp only [next, if_neg hj])
  | closeFound j =>
    cases hj : n.stage j with
    | leaving found =>
      obtain rfl := hn.own j found hj
      exact isolated_of_closes _ (n.server.close j) (by simp only [next, hj]; rfl) rfl
        (close_own _ j rfl)
    | _ => exact isolated_of_same _ (by simp only [next, hj])

theorem fresh_of_isolated (e : Event) (hn : Placed n) (he : Isolated n e) : FreshID n e := by
  rintro j rfl hj
  by_contra hne
  obtain ⟨k, hk⟩ := Option.ne_none_iff_exists'.mp hne
  have hother : k ≠ j := hn.other j (by simp [Registered, hj]) _ k hk
  rcases he.1 _ k ((n.server.getSession_ok _ k).mpr hk) with hget | hend
  · have hserver : (next n (.register j)).server = n.server.register j := by
      simp only [next, if_pos hj]
      rfl
    rw [hserver, Server.getSession_ok, n.server.register_get, if_pos rfl] at hget
    exact hother (Option.some.inj hget).symm
  · cases hend

end Steps

/-- Whatever the handlers do in which order, the sessions are isolated if and only
if no ingest is registered under an identifier that is taken. -/
theorem isolated_iff (es : List Event) :
    Along next Isolated newNode es ↔ Along next FreshID newNode es := by
  constructor
  · exact along_imp next Isolated FreshID Placed (fun n e hn _ => next_placed e hn)
      (fun n e hn he => fresh_of_isolated e hn he) newNode es newNode_placed
  · exact along_imp next FreshID Isolated Kept (fun n e hn he => next_kept e hn he)
      (fun n e hn he => next_isolated e hn he) newNode es newNode_kept

/-- A remote node has chosen the identifier that the next ingest gets; its stream
then ends. -/
def collision : List Event :=
  [.stream [0x73, 0x5F, 0x31], .inject 0, .offer [0x73, 0x5F, 0x31], .register 1, .endStream 0,
    .closeFound 0]

theorem collision_not_isolated : ¬Along next Isolated newNode collision := by
  rintro ⟨-, -, -, hregister, -⟩
  rcases hregister.1 [0x73, 0x5F, 0x31] 0 rfl with hget | hend
  · have hother : (.ok 1 : Except GoError ℕ) = .ok 0 := hget
    cases hother
  · cases hend

end Aevia.Whip.Registry
