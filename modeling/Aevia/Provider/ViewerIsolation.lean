import Aevia.Foundation.Run
import Aevia.Provider.Viewers
import Mathlib.Data.List.Infix

/-!
# Isolation of the viewers

A viewer can be torn down by a DELETE, by its peer connection, by its failed
negotiation and by the end of its session, and by several of them at a time. To
close a peer connection fires its own callback, which tears down once more.
-/

set_option autoImplicit false

namespace Aevia.Whep
open Aevia.Bytes Aevia.KeyValue Aevia.Run

/-- The states whose callback closes the viewer. -/
inductive ConnectionState where
  | failed
  | closed
  | disconnected
  deriving DecidableEq

/-- Who closes a viewer: a DELETE with the identifier in its path, or for a viewer
its negotiation, its callback or the goroutine that waits for its session. -/
inductive Closer where
  | deleteHandler (viewerID : Bytes)
  | negotiation (v : ℕ)
  | stateCallback (v : ℕ) (state : ConnectionState)
  | sessionGoroutine (v : ℕ)
  deriving DecidableEq

structure Closing where
  viewer : ℕ
  closer : Closer
  deriving DecidableEq

/-- A server with the sessions of its viewers, those that still negotiate, the
sessions that have ended and what has begun to close a viewer. -/
structure Node where
  server : Server
  session : ℕ → ℕ
  negotiating : ℕ → Bool
  ended : ℕ → Bool
  begun : List Closing

def newNode : Node := ⟨newServer, fun _ => 0, fun _ => false, fun _ => false, []⟩

inductive Event where
  | bind (sessionID : Bytes) (buf : {b : Bytes // b.length = 16}) (session : ℕ)
  | negotiated (v : ℕ)
  | negotiationFailed (v : ℕ)
  | delete (sessionID viewerID : Bytes)
  | stateChange (v : ℕ) (state : ConnectionState)
  | endSession (session : ℕ)
  | sessionDone (v : ℕ)
  | closePC (c : Closing)

def Event.viewerID : Event → Option Bytes
  | bind _ buf _ => some (newViewerID buf)
  | _ => none

section Step
variable (n : Node)

def bindViewer (b : ViewerBinding) (session : ℕ) : Node :=
  { n with
    server := n.server.bind b
    session := Function.update n.session n.server.made session
    negotiating := Function.update n.negotiating n.server.made true }

/-- `closeViewer` up to the call of `Close`. -/
def closeViewer (v : ℕ) (closer : Closer) : Node :=
  { n with server := n.server.detach v, begun := n.begun++[⟨v, closer⟩] }

def next : Event → Node
  | .bind sessionID buf session =>
    if sessionID = [] then n else bindViewer n ⟨sessionID, newViewerID buf⟩ session
  | .negotiated v => { n with negotiating := Function.update n.negotiating v false }
  | .negotiationFailed v =>
    if n.negotiating v = true ∧ v < n.server.made then
      closeViewer { n with negotiating := Function.update n.negotiating v false } v (.negotiation v)
    else n
  | .delete sessionID viewerID =>
    match (n.server.deleteViewer sessionID viewerID).2 with
    | none => n
    | some v => { n with
        server := (n.server.deleteViewer sessionID viewerID).1
        begun := n.begun++[⟨v, .deleteHandler viewerID⟩] }
  | .stateChange v state =>
    -- the package reports a connection as closed once it is
    if v < n.server.made ∧ (state = .closed → n.server.pcClosed v = true) then
      closeViewer n v (.stateCallback v state)
    else n
  | .endSession session => { n with ended := Function.update n.ended session true }
  | .sessionDone v =>
    if v < n.server.made ∧ n.ended (n.session v) = true then closeViewer n v (.sessionGoroutine v)
    else n
  | .closePC c => if c ∈ n.begun then { n with server := n.server.closePC c.viewer } else n

end Step

section New
variable (n : Node) (b : ViewerBinding) (session : ℕ)

theorem bindViewer_new : (bindViewer n b session).server.binding n.server.made = b :=
  Function.update_self _ _ _

theorem bindViewer_old (v : ℕ) (hv : v < n.server.made) :
    (bindViewer n b session).server.binding v = n.server.binding v :=
  Function.update_of_ne hv.ne _ _

theorem bindViewer_session (v : ℕ) (hv : v < n.server.made) :
    (bindViewer n b session).session v = n.session v :=
  Function.update_of_ne hv.ne _ _

end New

/-- What may close the viewer: a DELETE with a path that ends in its identifier,
its failed negotiation, a failed or lost connection, the end of its session. -/
def Own (n : Node) (c : Closing) : Prop :=
  match c.closer with
  | .deleteHandler viewerID => (n.server.binding c.viewer).viewerID <:+ viewerID
  | .negotiation v => v = c.viewer
  | .stateCallback v state => v = c.viewer ∧ state ≠ .closed
  | .sessionGoroutine v => v = c.viewer ∧ n.ended (n.session v) = true

instance (n : Node) (c : Closing) : Decidable (Own n c) := by
  unfold Own
  cases c.closer <;> infer_instance

def TornDown (n : Node) (v : ℕ) : Prop := ∃ c ∈ n.begun, c.viewer = v ∧ Own n c

instance (n : Node) (v : ℕ) : Decidable (TornDown n v) :=
  inferInstanceAs (Decidable (∃ c ∈ n.begun, _))

/-- A peer connection is closed by one of these. -/
def Isolated (n : Node) (e : Event) : Prop :=
  ∀ v, n.server.pcClosed v = false → (next n e).server.pcClosed v = true →
    ∃ c ∈ n.begun, e = .closePC c ∧ c.viewer = v ∧ Own n c

def remaining (n : Node) (sessionID : Bytes) : List ℕ :=
  (List.range n.server.made).filter
    (fun v => (n.server.binding v).sessionID = sessionID ∧ ¬TornDown n v)

def Counted (n : Node) : Prop :=
  ∀ sessionID, n.server.activeViewers sessionID = (remaining n sessionID).length

def Fresh (n : Node) (e : Event) : Prop :=
  ∀ id ∈ e.viewerID, ∀ v < n.server.made, (n.server.binding v).viewerID ≠ id

section Invariant

/-- The map holds the viewers that nothing has begun to close. -/
structure Bound (n : Node) : Prop where
  viewers : ∀ key v, n.server.viewers.get key = some v ↔
    v < n.server.made ∧ (n.server.binding v).key = key ∧ ∀ c ∈ n.begun, c.viewer ≠ v
  hex : ∀ v < n.server.made, 0x3A ∉ (n.server.binding v).viewerID
  distinct : ∀ v < n.server.made, ∀ w < n.server.made,
    (n.server.binding v).viewerID = (n.server.binding w).viewerID → v = w
  targets : ∀ c ∈ n.begun, c.viewer < n.server.made
  legit : ∀ c ∈ n.begun, Own n c ∨ n.server.pcClosed c.viewer = true
  torn : ∀ v, n.server.pcClosed v = true → TornDown n v

theorem newNode_bound : Bound newNode where
  viewers := by
    intro key v
    constructor
    · intro h
      cases h
    · rintro ⟨h, -⟩
      cases h
  hex := nofun
  distinct := nofun
  targets := nofun
  legit := nofun
  torn := nofun

variable {n : Node}

/-- What may close a viewer may do so ever after. -/
theorem Own.later {c : Closing} (h : Own n c) (t : Node) (hc : c.viewer < n.server.made)
    (hbinding : ∀ v < n.server.made, t.server.binding v = n.server.binding v)
    (hsession : ∀ v < n.server.made, t.session v = n.session v)
    (hended : ∀ session, n.ended session = true → t.ended session = true) : Own t c := by
  obtain ⟨viewer, closer⟩ := c
  cases closer with
  | deleteHandler viewerID =>
    show (t.server.binding viewer).viewerID <:+ viewerID
    rw [hbinding viewer hc]
    exact h
  | negotiation v => exact h
  | stateCallback v state => exact h
  | sessionGoroutine v =>
    obtain ⟨rfl, h⟩ := h
    refine ⟨rfl, ?_⟩
    rw [hsession v hc]
    exact hended _ h

theorem TornDown.later {v : ℕ} (h : TornDown n v) (hn : Bound n) (t : Node)
    (hbegun : n.begun ⊆ t.begun)
    (hbinding : ∀ v < n.server.made, t.server.binding v = n.server.binding v)
    (hsession : ∀ v < n.server.made, t.session v = n.session v)
    (hended : ∀ session, n.ended session = true → t.ended session = true) : TornDown t v := by
  obtain ⟨c, hc, hv, hown⟩ := h
  exact ⟨c,hbegun hc,hv,hown.later t (hn.targets c hc) hbinding hsession hended⟩

theorem Bound.tornDown_iff (h : Bound n) (v : ℕ) : TornDown n v ↔ ∃ c ∈ n.begun, c.viewer = v := by
  constructor
  · rintro ⟨c, hc, hv, -⟩
    exact ⟨c,hc,hv⟩
  · rintro ⟨c, hc, rfl⟩
    rcases h.legit c hc with hown | hclosed
    · exact ⟨c,hc,rfl,hown⟩
    · exact h.torn _ hclosed

theorem Bound.detach_get (h : Bound n) (v : ℕ) (key : Bytes) (w : ℕ) :
    (n.server.detach v).viewers.get key = some w ↔ n.server.viewers.get key = some w ∧ w ≠ v := by
  unfold Server.detach
  split_ifs with hmine
  · show (n.server.viewers.delete _).get key = some w ↔ _
    rw [n.server.delete_get]
    split_ifs with hkey
    · rw [hkey, hmine]
      constructor
      · nofun
      · rintro ⟨hw, hne⟩
        exact absurd (Option.some.inj hw).symm hne
    · constructor
      · intro hw
        refine ⟨hw, ?_⟩
        rintro rfl
        exact hkey ((h.viewers key w).mp hw).2.1.symm
      · exact And.left
  · constructor
    · intro hw
      refine ⟨hw, ?_⟩
      rintro rfl
      rw [((h.viewers key w).mp hw).2.1] at hmine
      exact hmine hw
    · exact And.left

theorem Bound.begins (h : Bound n) (v : ℕ) (closer : Closer) (hv : v < n.server.made)
    (hown : Own n ⟨v, closer⟩ ∨ n.server.pcClosed v = true) : Bound (closeViewer n v closer) := by
  have hmade : (closeViewer n v closer).server.made = n.server.made := n.server.detach_made v
  have hbinding : (closeViewer n v closer).server.binding = n.server.binding :=
    n.server.detach_binding v
  have hclosed : (closeViewer n v closer).server.pcClosed = n.server.pcClosed :=
    n.server.detach_pcClosed v
  have hlater : ∀ c : Closing, c.viewer < n.server.made → Own n c → Own (closeViewer n v closer) c :=
    fun c hc hown => hown.later _ hc (fun _ _ => by rw [hbinding]) (fun _ _ => rfl) (fun _ h => h)
  have hbegun : (closeViewer n v closer).begun = n.begun++[⟨v, closer⟩] := rfl
  constructor
  · intro key w
    rw [hmade, hbinding, hbegun, List.forall_mem_append, List.forall_mem_singleton]
    refine (h.detach_get v key w).trans ?_
    rw [h.viewers]
    constructor
    · rintro ⟨⟨hw, hkey, hnone⟩, hne⟩
      exact ⟨hw,hkey,hnone,hne.symm⟩
    · rintro ⟨hw, hkey, hnone, hne⟩
      exact ⟨⟨hw,hkey,hnone⟩,hne.symm⟩
  · rw [hmade, hbinding]
    exact h.hex
  · rw [hmade, hbinding]
    exact h.distinct
  · rw [hmade, hbegun, List.forall_mem_append, List.forall_mem_singleton]
    exact ⟨h.targets,hv⟩
  · rw [hclosed, hbegun, List.forall_mem_append, List.forall_mem_singleton]
    constructor
    · intro c hc
      exact (h.legit c hc).imp (hlater c (h.targets c hc)) id
    · exact hown.imp (hlater _ hv) id
  · rw [hclosed]
    intro w hw
    exact (h.torn w hw).later h _ (List.subset_append_left _ _) (fun _ _ => by rw [hbinding])
      (fun _ _ => rfl) (fun _ h => h)

theorem Bound.binds (h : Bound n) (sessionID : Bytes) (buf : {b : Bytes // b.length = 16})
    (session : ℕ) (hfresh : ∀ v < n.server.made, (n.server.binding v).viewerID ≠ newViewerID buf) :
    Bound (bindViewer n ⟨sessionID, newViewerID buf⟩ session) := by
  have hcolon : (0x3A : UInt8) ∉ newViewerID buf := colon_not_hex buf.1
  have hnew := bindViewer_new n ⟨sessionID, newViewerID buf⟩ session
  have hold := bindViewer_old n ⟨sessionID, newViewerID buf⟩ session
  have hsession := bindViewer_session n ⟨sessionID, newViewerID buf⟩ session
  have hlater : ∀ c ∈ n.begun, Own n c → Own (bindViewer n ⟨sessionID, newViewerID buf⟩ session) c :=
    fun c hc hown => hown.later _ (h.targets c hc) hold hsession (fun _ h => h)
  -- a viewer of the new node is the new one or one of before
  have hcases : ∀ v, v < n.server.made+1 → v = n.server.made ∨ v < n.server.made :=
    fun v hv => (Nat.lt_succ_iff_lt_or_eq.mp hv).symm
  constructor
  · intro key v
    show (n.server.bind _).viewers.get key = some v ↔ v < n.server.made+1 ∧ _ ∧ _
    rw [n.server.bind_get]
    split_ifs with hkey
    · rw [Option.some.injEq]
      constructor
      · rintro rfl
        rw [hnew]
        exact ⟨Nat.lt_succ_self _,hkey.symm,fun c hc => (h.targets c hc).ne⟩
      · rintro ⟨hv, hvkey, -⟩
        rcases hcases v hv with rfl | hv
        · rfl
        · rw [hold v hv, hkey] at hvkey
          exact absurd (viewerKey_inj _ _ _ _ (h.hex v hv) hcolon hvkey) (hfresh v hv)
    · rw [h.viewers]
      constructor
      · rintro ⟨hv, hvkey, hnone⟩
        rw [hold v hv]
        exact ⟨hv.trans (Nat.lt_succ_self _),hvkey,hnone⟩
      · rintro ⟨hv, hvkey, hnone⟩
        rcases hcases v hv with rfl | hv
        · rw [hnew] at hvkey
          exact absurd hvkey.symm hkey
        · rw [hold v hv] at hvkey
          exact ⟨hv,hvkey,hnone⟩
  · intro v hv
    rcases hcases v hv with rfl | hv
    · rw [hnew]
      exact hcolon
    · rw [hold v hv]
      exact h.hex v hv
  · intro v hv w hw hid
    rcases hcases v hv with rfl | hv <;> rcases hcases w hw with rfl | hw
    · rfl
    · rw [hnew, hold w hw] at hid
      exact absurd hid.symm (hfresh w hw)
    · rw [hnew, hold v hv] at hid
      exact absurd hid (hfresh v hv)
    · rw [hold v hv, hold w hw] at hid
      exact h.distinct v hv w hw hid
  · exact fun c hc => (h.targets c hc).trans (Nat.lt_succ_self _)
  · exact fun c hc => (h.legit c hc).imp (hlater c hc) id
  · exact fun v hv => (h.torn v hv).later h _ (fun _ hc => hc) hold hsession (fun _ h => h)

theorem Bound.deletes (h : Bound n) (sessionID viewerID : Bytes) (v : ℕ)
    (hfound : (n.server.deleteViewer sessionID viewerID).2 = some v) :
    Bound { n with
      server := (n.server.deleteViewer sessionID viewerID).1
      begun := n.begun++[⟨v, .deleteHandler viewerID⟩] } := by
  obtain ⟨hget, hserver⟩ := n.server.deleteViewer_found sessionID viewerID v hfound
  obtain ⟨hv, hkey, -⟩ := (h.viewers _ v).mp hget
  have hdetach : (n.server.deleteViewer sessionID viewerID).1 = n.server.detach v := by
    rw [hserver, Server.detach, hkey, if_pos hget]
  rw [hdetach]
  refine h.begins v (.deleteHandler viewerID) hv (.inl ?_)
  exact viewerKey_suffix _ _ _ _ (h.hex v hv) hkey

theorem Bound.closesPC (h : Bound n) (c : Closing) (hc : c ∈ n.begun) :
    Bound { n with server := n.server.closePC c.viewer } := by
  have htorn : ∀ v, TornDown n v → TornDown { n with server := n.server.closePC c.viewer } v :=
    fun v hv => hv
  refine ⟨h.viewers, h.hex, h.distinct, h.targets, ?_, ?_⟩
  · intro c' hc'
    refine (h.legit c' hc').imp (fun hown => hown) (fun hclosed => ?_)
    rw [n.server.closePC_pcClosed, hclosed]
    split_ifs <;> rfl
  · intro v hv
    apply htorn
    rw [n.server.closePC_pcClosed] at hv
    split_ifs at hv with hcv
    · exact (h.tornDown_iff v).mpr ⟨c,hc,hcv.symm⟩
    · exact h.torn v hv

theorem Bound.ends (h : Bound n) (session : ℕ) :
    Bound { n with ended := Function.update n.ended session true } := by
  have hended : ∀ session', n.ended session' = true →
      Function.update n.ended session true session' = true := by
    intro session' hs
    rw [Function.update_apply]
    split_ifs
    · rfl
    · exact hs
  refine ⟨h.viewers, h.hex, h.distinct, h.targets, ?_, ?_⟩
  · intro c hc
    exact (h.legit c hc).imp
      (fun hown => hown.later _ (h.targets c hc) (fun _ _ => rfl) (fun _ _ => rfl) hended) id
  · intro v hv
    exact (h.torn v hv).later h _ (fun _ hc => hc) (fun _ _ => rfl) (fun _ _ => rfl) hended

theorem next_bound (e : Event) (h : Bound n) (hfresh : Fresh n e) : Bound (next n e) := by
  have hquiet : ∀ negotiating, Bound { n with negotiating := negotiating } :=
    fun _ => ⟨h.viewers,h.hex,h.distinct,h.targets,h.legit,h.torn⟩
  fun_cases next n e
  case case2 sessionID buf session hid => exact h.binds sessionID buf session (hfresh _ rfl)
  case case3 v => exact hquiet _
  case case4 v hv => exact (hquiet _).begins v _ hv.2 (.inl rfl)
  case case7 sessionID viewerID v hfound => exact h.deletes sessionID viewerID v hfound
  case case8 v state hv =>
    refine h.begins v _ hv.1 ?_
    by_cases hstate : state = .closed
    · exact .inr (hv.2 hstate)
    · exact .inl ⟨rfl,hstate⟩
  case case10 session => exact h.ends session
  case case11 v hv => exact h.begins v _ hv.1 (.inl ⟨rfl,hv.2⟩)
  case case13 c hc => exact h.closesPC c hc
  all_goals exact h

theorem next_pcClosed (e : Event) (he : ¬∃ c ∈ n.begun, e = .closePC c) :
    (next n e).server.pcClosed = n.server.pcClosed := by
  fun_cases next n e
  case case4 v hv => exact n.server.detach_pcClosed v
  case case7 sessionID viewerID v hfound =>
    show (n.server.deleteViewer sessionID viewerID).1.pcClosed = n.server.pcClosed
    rw [(n.server.deleteViewer_found sessionID viewerID v hfound).2]
  case case8 v state hv => exact n.server.detach_pcClosed v
  case case11 v hv => exact n.server.detach_pcClosed v
  case case13 c hc => exact absurd ⟨c,hc,rfl⟩ he
  all_goals rfl

theorem next_isolated (e : Event) (h : Bound n) : Isolated n e := by
  intro v hopen hclosed
  by_cases hclose : ∃ c ∈ n.begun, e = .closePC c
  · obtain ⟨c, hc, rfl⟩ := hclose
    simp only [next, if_pos hc] at hclosed
    rw [n.server.closePC_pcClosed] at hclosed
    split_ifs at hclosed with hv
    · refine ⟨c, hc, rfl, hv.symm, ?_⟩
      -- a callback that a closed connection fires has nothing to close
      rcases h.legit c hc with hown | hgone
      · exact hown
      · rw [← hv, hopen] at hgone
        cases hgone
    · rw [hopen] at hclosed
      cases hclosed
  · exfalso
    rw [next_pcClosed e hclose, hopen] at hclosed
    cases hclosed

theorem Bound.counted (h : Bound n) : Counted n := by
  intro sessionID
  have hkey : ∀ e ∈ n.server.viewers.entries, (n.server.binding e.2).key = e.1 := by
    intro e he
    exact ((h.viewers e.1 e.2).mp ((n.server.viewers.mem_entries e.1 e.2).mp he)).2.1
  have hnodup : (n.server.viewers.entries.map Prod.snd).Nodup := by
    refine List.Nodup.map_on ?_ (n.server.viewers.sorted.imp (fun hlt heq => ?_))
    · intro e he e' he' hsame
      refine Prod.ext ?_ hsame
      rw [← hkey e he, ← hkey e' he', hsame]
    · rw [heq] at hlt
      exact lt_irrefl _ hlt
  have hmem : ∀ v, v ∈ n.server.viewers.entries.map Prod.snd ↔
      v < n.server.made ∧ ¬TornDown n v := by
    intro v
    rw [h.tornDown_iff, List.mem_map]
    constructor
    · rintro ⟨e, he, rfl⟩
      obtain ⟨hv, -, hnone⟩ := (h.viewers e.1 e.2).mp ((n.server.viewers.mem_entries _ _).mp he)
      exact ⟨hv,fun ⟨c, hc, hcv⟩ => hnone c hc hcv⟩
    · rintro ⟨hv, hnone⟩
      refine ⟨((n.server.binding v).key, v), ?_, rfl⟩
      rw [n.server.viewers.mem_entries, h.viewers]
      exact ⟨hv,rfl,fun c hc hcv => hnone ⟨c,hc,hcv⟩⟩
  have hperm : ((n.server.viewers.entries.map Prod.snd).filter
      (fun v => (n.server.binding v).sessionID = sessionID)).Perm (remaining n sessionID) := by
    unfold remaining
    rw [List.perm_ext_iff_of_nodup (hnodup.filter _) (List.nodup_range.filter _)]
    intro v
    simp only [List.mem_filter, hmem, List.mem_range, decide_eq_true_eq, Bool.decide_and,
      Bool.and_eq_true]
    tauto
  rw [← hperm.length_eq, List.filter_map, List.length_map]
  rfl

end Invariant

section Runs

theorem next_viewer (n : Node) (e : Event) (v : ℕ) (hv : v < (next n e).server.made) :
    v < n.server.made ∧ (next n e).server.binding v = n.server.binding v ∨
      e.viewerID = some ((next n e).server.binding v).viewerID := by
  have hcloses : ∀ (m : Node) w closer, v < (closeViewer m w closer).server.made →
      v < m.server.made ∧ (closeViewer m w closer).server.binding v = m.server.binding v := by
    intro m w closer hv
    change v < (m.server.detach w).made at hv
    show v < m.server.made ∧ (m.server.detach w).binding v = m.server.binding v
    rw [m.server.detach_made] at hv
    rw [m.server.detach_binding]
    exact ⟨hv,rfl⟩
  revert hv
  fun_cases next n e
  case case2 sessionID buf session hid =>
    intro hv
    show _ ∧ (n.server.bind _).binding v = _ ∨ some (newViewerID buf) = some ((n.server.bind _).binding v).viewerID
    rw [n.server.bind_binding]
    split_ifs with hmade
    · exact .inr rfl
    · have hlt : v < n.server.made+1 := hv
      exact .inl ⟨by omega,rfl⟩
  case case7 sessionID viewerID w hfound =>
    intro hv
    left
    change v < (n.server.deleteViewer sessionID viewerID).1.made at hv
    show v < n.server.made ∧ (n.server.deleteViewer sessionID viewerID).1.binding v = _
    rw [(n.server.deleteViewer_found sessionID viewerID w hfound).2] at hv ⊢
    exact ⟨hv,rfl⟩
  case case4 w hw => exact fun hv => .inl (hcloses _ w (.negotiation w) hv)
  case case8 w state hw => exact fun hv => .inl (hcloses n w (.stateCallback w state) hv)
  case case11 w hw => exact fun hv => .inl (hcloses n w (.sessionGoroutine w) hv)
  all_goals exact fun hv => .inl ⟨hv,rfl⟩

theorem along_fresh (es : List Event) (n : Node) (hids : (es.filterMap Event.viewerID).Nodup)
    (hnew : ∀ id ∈ es.filterMap Event.viewerID, ∀ v < n.server.made,
      (n.server.binding v).viewerID ≠ id) : Along next Fresh n es := by
  induction es generalizing n with
  | nil => trivial
  | cons e es ih =>
    have hnow : Fresh n e := by
      intro id hid
      exact hnew id (List.mem_filterMap.mpr ⟨e,List.mem_cons_self,hid⟩)
    have hrest : es.filterMap Event.viewerID <:+ (e::es).filterMap Event.viewerID :=
      (List.suffix_cons e es).filterMap _
    refine ⟨hnow, ih (next n e) (hids.sublist hrest.sublist) ?_⟩
    intro id hid v hv
    rcases next_viewer n e v hv with ⟨hv, hsame⟩ | hself
    · rw [hsame]
      exact hnew id (hrest.subset hid) v hv
    · rw [List.filterMap_cons_some hself, List.nodup_cons] at hids
      rintro rfl
      exact hids.1 hid

/-- Whatever happens in which order, a viewer is closed by what may close it only,
and the viewers that are counted are those that nothing has torn down. -/
theorem viewers_isolated (es : List Event) (hids : (es.filterMap Event.viewerID).Nodup) :
    Along next Isolated newNode es ∧
    ∀ before, before <+: es → Counted (run next newNode before) := by
  have hfresh : Along next Fresh newNode es := along_fresh es newNode hids (fun _ _ => nofun)
  constructor
  · exact along_imp next Fresh Isolated Bound (fun _ e h he => next_bound e h he)
      (fun _ e h _ => next_isolated e h) newNode es newNode_bound hfresh
  · rintro before ⟨after, rfl⟩
    rw [along_append] at hfresh
    exact (along_invariant next Fresh Bound (fun _ e h he => next_bound e h he) newNode before
      newNode_bound hfresh.1).counted

/-- Two viewers of a session and one of a session that has ended; a DELETE with a
colon in its path closes the first, whose callback fires. -/
def threeViewers : List Event :=
  [.endSession 1, .bind [0x61, 0x3A, 0x62] ⟨List.replicate 16 1, rfl⟩ 0,
    .bind [0x61, 0x3A, 0x62] ⟨List.replicate 16 2, rfl⟩ 0, .bind [0x63] ⟨List.replicate 16 3, rfl⟩ 1,
    .negotiated 0, .sessionDone 2,
    .delete [0x61] (0x62::0x3A::newViewerID ⟨List.replicate 16 1, rfl⟩),
    .closePC ⟨0, .deleteHandler (0x62::0x3A::newViewerID ⟨List.replicate 16 1, rfl⟩)⟩,
    .stateChange 0 .closed, .negotiationFailed 1]

theorem threeViewers_isolated : Along next Isolated newNode threeViewers ∧
    ∀ before, before <+: threeViewers → Counted (run next newNode before) :=
  viewers_isolated threeViewers (by decide)

end Runs

end Aevia.Whep
