import Aevia.Provider.Probes
import Mathlib.Algebra.Order.Group.Multiset

/-!
# Every probe is counted once

The sinks of one peer share the counter of identifiers and the metrics. What
has been sent is, at any time, what is outstanding or has been removed, by one
echo or one sweep, and what has been removed is in the metrics or on its way.
-/

set_option autoImplicit false

namespace Aevia.Mirror.Probes
open Aevia.KeyValue Aevia.Run Aevia.Totals

section Sink

/-- The identifier that `sendProbe` has drawn and not yet noted. -/
def Writer.held : Writer → List ℕ
  | drawn id => [id]
  | _ => []

/-- Losses that are not in the metrics yet. -/
def Writer.pending : Writer → ℕ
  | losing left _ => left.toNat
  | _ => 0

/-- Echoes that are not in the metrics yet. -/
def Reader.pending : Reader → ℕ
  | matched => 1
  | _ => 0

/-- What a step takes from one place it puts in another. -/
structure Balanced (s t : StreamSink) (notes : List Note) : Prop where
  ids : (t.outstanding.keys++(echoedIDs notes++expiredIDs notes)).Perm
    (s.outstanding.keys++sentIDs notes)
  held : (t.writer.held++sentIDs notes).Perm (s.writer.held++drawnIDs notes)
  echoes : t.reader.pending+notes.count .echoCounted = s.reader.pending+(echoedIDs notes).length
  losses : (t.writer.pending+notes.count .lossCounted)%2^32 =
    (s.writer.pending+(expiredIDs notes).length)%2^32

variable (nextID : ℕ) (s : StreamSink)

theorem balanced_still (t : StreamSink) (notes : List Note)
    (hids : echoedIDs notes = [] ∧ expiredIDs notes = [] ∧ sentIDs notes = [])
    (houtstanding : t.outstanding = s.outstanding)
    (hheld : t.writer.held = s.writer.held++drawnIDs notes)
    (hechoes : t.reader.pending+notes.count .echoCounted = s.reader.pending)
    (hlosses : t.writer.pending+notes.count .lossCounted = s.writer.pending) : Balanced s t notes := by
  obtain ⟨hechoed, hexpired, hsent⟩ := hids
  refine ⟨?_, ?_, ?_, ?_⟩
  · rw [hechoed, hexpired, hsent, houtstanding]
    exact List.Perm.refl _
  · rw [hsent, hheld, List.append_nil]
  · rw [hechoed, hechoes]
    rfl
  · rw [hexpired, hlosses]
    rfl

theorem sweep_balanced (now : ℤ) (hw : s.writer = .idle) :
    Balanced s (step nextID s (.sweep now)).1 (step nextID s (.sweep now)).2 := by
  have hkeys := s.outstanding.keys_filter (isExpired now)
  obtain ⟨hexpired, hechoed, hsent, hdrawn, hechoes, hlosses⟩ :=
    sweep_notes (s.outstanding.filter (isExpired now)).keys
  simp only [step, hw]
  constructor
  · rw [hexpired, hechoed, hsent, List.nil_append, List.append_nil]
    exact List.perm_append_comm.trans hkeys
  · rw [hsent, hdrawn, hw]
    split <;> exact List.Perm.refl _
  · rw [hechoed, hechoes]
    rfl
  · have hpending : ∀ lost : UInt32,
        (if lost = 0 then Writer.idle else Writer.losing lost lost).pending = lost.toNat := by
      intro lost
      split_ifs with hlost
      · rw [hlost]
        rfl
      · rfl
    rw [hexpired, hlosses, hpending, hw, UInt32.toNat_ofNat']
    simp [Writer.pending]

theorem echo_balanced (id : ℕ) (sentAt : ℤ) (hr : s.reader = .idle)
    (hid : s.outstanding.get id = some sentAt) :
    Balanced s (step nextID s (.echo id)).1 (step nextID s (.echo id)).2 := by
  have hkeys := s.outstanding.keys_delete id sentAt hid
  simp only [step, hr, hid]
  constructor
  · show ((s.outstanding.delete id).keys++[id]).Perm (s.outstanding.keys++[])
    rw [List.append_nil]
    exact List.perm_append_comm.trans hkeys.symm
  · exact List.Perm.refl _
  · rw [hr]
    rfl
  · rfl

theorem insert_balanced (now : ℤ) (id : ℕ) (hw : s.writer = .drawn id)
    (hfresh : s.outstanding.get id = none) :
    Balanced s (step nextID s (.insert now)).1 (step nextID s (.insert now)).2 := by
  have hkeys := s.outstanding.keys_put id now hfresh
  simp only [step, hw]
  constructor
  · show ((s.outstanding.put id now).keys++[]).Perm (s.outstanding.keys++[id])
    rw [List.append_nil]
    exact hkeys.trans (List.perm_append_singleton id _).symm
  · rw [hw]
    exact List.Perm.refl _
  · rfl
  · rw [hw]
    rfl

theorem pred_toNat (left : UInt32) (h : left ≠ 0) : (left-1).toNat+1 = left.toNat := by
  have hpos : left.toNat ≠ 0 := fun h0 => h (UInt32.toNat_inj.mp h0)
  rw [UInt32.toNat_sub_of_le _ _ (by rw [UInt32.le_iff_toNat_le]; exact Nat.pos_of_ne_zero hpos)]
  show left.toNat-1+1 = left.toNat
  omega

theorem step_balanced (a : Action) (hfresh : ∀ id, s.writer = .drawn id → s.outstanding.get id = none) :
    Balanced s (step nextID s a).1 (step nextID s a).2 := by
  have hstill : Balanced s s [] := by
    apply balanced_still s s [] ⟨rfl,rfl,rfl⟩ rfl (List.append_nil _).symm rfl rfl
  fun_cases step nextID s a
  case case1 hw => exact balanced_still s _ _ ⟨rfl,rfl,rfl⟩ rfl (by rw [hw]; rfl) rfl (by rw [hw]; rfl)
  case case3 now id hw =>
    have h := insert_balanced nextID s now id hw (hfresh id hw)
    simpa only [step, hw] using h
  case case5 now hw expired lost =>
    have h := sweep_balanced nextID s now hw
    simpa only [step, hw] using h
  case case8 left lost hw hleft =>
    exact balanced_still s _ _ ⟨rfl,rfl,rfl⟩ rfl (by rw [hw]; rfl) rfl
      (by rw [hw]; exact pred_toNat left hleft)
  case case10 lost cl hdrop hw =>
    exact balanced_still s _ _ ⟨rfl,rfl,rfl⟩ rfl (by rw [hw]; rfl) rfl (by rw [hw]; rfl)
  case case11 lost cl hdrop hw =>
    exact balanced_still s _ _ ⟨rfl,rfl,rfl⟩ rfl (by rw [hw]; rfl) rfl (by rw [hw]; rfl)
  case case14 hw =>
    exact balanced_still s _ _ ⟨rfl,rfl,rfl⟩ rfl (List.append_nil _).symm rfl rfl
  case case16 id sentAt hid hr =>
    have h := echo_balanced nextID s id sentAt hr hid
    simpa only [step, hr, hid] using h
  case case18 hr =>
    exact balanced_still s _ _ ⟨rfl,rfl,rfl⟩ rfl (List.append_nil _).symm (by rw [hr]; rfl) rfl
  case case20 hr =>
    exact balanced_still s _ _ ⟨rfl,rfl,rfl⟩ rfl (List.append_nil _).symm (by rw [hr]; rfl) rfl
  all_goals exact hstill

end Sink

section Peer

/-- What the sinks of a peer share, and the sinks, also those that have ended. -/
structure Peer where
  probeIDCounter : ℕ
  probeIdx : ℕ
  probeLoss : UInt32
  sinks : List StreamSink

def Peer.start : Peer := ⟨0, 0, 0, []⟩

def Peer.probeCount (s : Peer) : ℕ := s.probeIdx

inductive Event where
  | openStream
  | sink (k : ℕ) (a : Action)
  deriving DecidableEq

def Peer.advance (s : Peer) (k : ℕ) (moved : StreamSink × List Note) : Peer where
  probeIDCounter := s.probeIDCounter+(drawnIDs moved.2).length
  probeIdx := s.probeIdx+moved.2.count .echoCounted
  probeLoss := s.probeLoss+UInt32.ofNat (moved.2.count .lossCounted)
  sinks := s.sinks.set k moved.1

def next (s : Peer) : Event → Peer
  | .openStream => { s with sinks := s.sinks++[newStreamSink] }
  | .sink k a => (s.sinks[k]?).elim s (fun sink => s.advance k (step (s.probeIDCounter+1) sink a))

def notes (s : Peer) : Event → List Note
  | .openStream => []
  | .sink k a => (s.sinks[k]?).elim [] (fun sink => (step (s.probeIDCounter+1) sink a).2)

def history (events : List Event) : Logged Peer Note := run (logged next notes) ⟨Peer.start, []⟩ events

def Peer.outstanding (s : Peer) : Multiset ℕ :=
  total (fun sink => (sink.outstanding.keys : Multiset ℕ)) s.sinks

def Peer.held (s : Peer) : Multiset ℕ := total (fun sink => (sink.writer.held : Multiset ℕ)) s.sinks

def Peer.Quiet (s : Peer) : Prop :=
  ∀ sink ∈ s.sinks, sink.reader.pending = 0 ∧ sink.writer.pending = 0

structure Accounted (s : Peer) (log : List Note) : Prop where
  ids : s.outstanding+(echoedIDs log+expiredIDs log : Multiset ℕ) = sentIDs log
  fresh : (s.held+(sentIDs log : Multiset ℕ)).Nodup
  bounded : ∀ id ∈ s.held+(sentIDs log : Multiset ℕ), id ≤ s.probeIDCounter
  echoes : total (fun sink => sink.reader.pending) s.sinks+s.probeIdx = (echoedIDs log).length
  losses : (total (fun sink => sink.writer.pending) s.sinks+s.probeLoss.toNat)%2^32 =
    (expiredIDs log).length%2^32

theorem start_accounted : Accounted Peer.start [] where
  ids := rfl
  fresh := Multiset.nodup_zero
  bounded := fun _ h => (Multiset.notMem_zero _ h).elim
  echoes := rfl
  losses := rfl

theorem open_accounted (s : Peer) (log : List Note) (h : Accounted s log) :
    Accounted { s with sinks := s.sinks++[newStreamSink] } log := by
  have houtstanding : Peer.outstanding { s with sinks := s.sinks++[newStreamSink] } = s.outstanding := by
    rw [Peer.outstanding, total_concat]
    exact add_zero _
  have hheld : Peer.held { s with sinks := s.sinks++[newStreamSink] } = s.held := by
    rw [Peer.held, total_concat]
    exact add_zero _
  constructor
  · rw [houtstanding]
    exact h.ids
  · rw [hheld]
    exact h.fresh
  · rw [hheld]
    exact h.bounded
  · rw [total_concat]
    exact h.echoes
  · rw [total_concat]
    exact h.losses

theorem drawn_new (given : Multiset ℕ) (counter : ℕ) (drawn : List ℕ) (hgiven : given.Nodup)
    (hle : ∀ id ∈ given, id ≤ counter) (hdrawn : drawn = [] ∨ drawn = [counter+1]) :
    (given+(drawn : Multiset ℕ)).Nodup ∧ ∀ id ∈ given+(drawn : Multiset ℕ), id ≤ counter+drawn.length := by
  rcases hdrawn with rfl | rfl
  · rw [Multiset.coe_nil, add_zero]
    exact ⟨hgiven,hle⟩
  · constructor
    · refine Multiset.nodup_add.mpr ⟨hgiven, Multiset.nodup_singleton _, ?_⟩
      rw [Multiset.disjoint_left]
      intro id hid hnew
      have hbound := hle id hid
      rw [Multiset.mem_coe, List.mem_singleton] at hnew
      omega
    · intro id hid
      rcases Multiset.mem_add.mp hid with hid | hid
      · exact (hle id hid).trans (Nat.le_succ _)
      · rw [List.mem_singleton.mp hid]
        rfl

section Steps
variable (s : Peer) (log : List Note) (k : ℕ) (sink : StreamSink) (hk : s.sinks[k]? = some sink)
  (h : Accounted s log)

include hk h in
theorem drawn_fresh (id : ℕ) (hw : sink.writer = .drawn id) : sink.outstanding.get id = none := by
  have hmem := List.mem_of_getElem? hk
  have hheld : id ∈ s.held :=
    (mem_total _ _ _).mpr ⟨sink,hmem,by rw [hw]; exact List.mem_singleton_self id⟩
  by_contra hget
  have hkey : id ∈ s.outstanding :=
    (mem_total _ _ _).mpr
      ⟨sink,hmem,(sink.outstanding.mem_keys id).mpr (Option.isSome_iff_ne_none.mpr hget)⟩
  have hsent : id ∈ (sentIDs log : Multiset ℕ) := by
    rw [← h.ids]
    exact Multiset.mem_add.mpr (.inl hkey)
  exact Multiset.disjoint_left.mp (Multiset.nodup_add.mp h.fresh).2.2 hheld hsent

include hk h in
theorem advance_accounted (a : Action) :
    Accounted (s.advance k (step (s.probeIDCounter+1) sink a))
      (log++(step (s.probeIDCounter+1) sink a).2) := by
  have hbalanced := step_balanced (s.probeIDCounter+1) sink a (drawn_fresh s log k sink hk h)
  have hdrawn := drawn_notes (s.probeIDCounter+1) sink a
  generalize step (s.probeIDCounter+1) sink a = moved at hbalanced hdrawn ⊢
  obtain ⟨t, notes⟩ := moved
  change Balanced sink t notes at hbalanced
  change drawnIDs notes = [] ∨ drawnIDs notes = [s.probeIDCounter+1] at hdrawn
  have hsent : (sentIDs (log++notes) : Multiset ℕ) = sentIDs log+sentIDs notes := by
    rw [sentIDs_append, Multiset.coe_add]
  have hremoved : (echoedIDs (log++notes)+expiredIDs (log++notes) : Multiset ℕ) =
      echoedIDs log+expiredIDs log+(echoedIDs notes+expiredIDs notes) := by
    rw [echoedIDs_append, expiredIDs_append, ← Multiset.coe_add, ← Multiset.coe_add]
    exact add_add_add_comm _ _ _ _
  have hheld : (s.advance k (t, notes)).held+(sentIDs (log++notes) : Multiset ℕ) =
      s.held+sentIDs log+drawnIDs notes := by
    have hmember : (t.writer.held : Multiset ℕ)+sentIDs notes = sink.writer.held+drawnIDs notes :=
      Multiset.coe_eq_coe.mpr hbalanced.held
    rw [hsent]
    exact total_balance (fun sink : StreamSink => (sink.writer.held : Multiset ℕ)) s.sinks k sink t hk
      _ _ _ _ hmember rfl
  have hnew := drawn_new _ s.probeIDCounter (drawnIDs notes) h.fresh h.bounded hdrawn
  constructor
  · have hmember : (t.outstanding.keys : Multiset ℕ)+(echoedIDs notes+expiredIDs notes) =
        sink.outstanding.keys+sentIDs notes := Multiset.coe_eq_coe.mpr hbalanced.ids
    rw [hremoved, hsent]
    exact total_balance (fun sink : StreamSink => (sink.outstanding.keys : Multiset ℕ)) s.sinks k sink
      t hk _ _ _ _ hmember h.ids
  · rw [hheld]
    exact hnew.1
  · rw [hheld]
    exact hnew.2
  · rw [echoedIDs_append, List.length_append]
    exact total_balance (fun sink : StreamSink => sink.reader.pending) s.sinks k sink t hk _ _ _ _
      hbalanced.echoes h.echoes
  · have htotal : total (fun sink : StreamSink => sink.writer.pending) (s.sinks.set k t)+
        sink.writer.pending = total (fun sink => sink.writer.pending) s.sinks+t.writer.pending :=
      total_set _ s.sinks k sink t hk
    have hmember := hbalanced.losses
    have hlosses := h.losses
    show (total _ (s.sinks.set k t)+(s.probeLoss+UInt32.ofNat (notes.count .lossCounted)).toNat)%2^32 =
      (expiredIDs (log++notes)).length%2^32
    rw [expiredIDs_append, List.length_append, UInt32.toNat_add, UInt32.toNat_ofNat']
    omega

end Steps

theorem next_accounted (s : Logged Peer Note) (e : Event) (h : Accounted s.state s.log) :
    Accounted (logged next notes s e).state (logged next notes s e).log := by
  cases e with
  | openStream =>
    show Accounted _ (s.log++[])
    rw [List.append_nil]
    exact open_accounted s.state s.log h
  | sink k a =>
    cases hk : s.state.sinks[k]? with
    | none =>
      simp only [logged, next, notes, hk, Option.elim_none, List.append_nil]
      exact h
    | some sink =>
      simp only [logged, next, notes, hk, Option.elim_some]
      exact advance_accounted s.state s.log k sink hk h a

theorem history_accounted (events : List Event) :
    Accounted (history events).state (history events).log :=
  run_invariant (logged next notes) (fun s => Accounted s.state s.log) next_accounted
    ⟨Peer.start, []⟩ events start_accounted

end Peer

/-- In every run no identifier is removed twice, be it by echoes or sweeps, and
with no handler in between the probes sent are those outstanding, those counted
as echoed and those counted as lost. -/
theorem probes_accounted (events : List Event) :
    ((echoedIDs (history events).log++expiredIDs (history events).log)).Nodup ∧
    ((history events).state.Quiet → (expiredIDs (history events).log).length < 2^32 →
      (sentIDs (history events).log).length = (history events).state.outstanding.card+
        (history events).state.probeCount+(history events).state.probeLoss.toNat) := by
  have h := history_accounted events
  constructor
  · have hsent : (sentIDs (history events).log : Multiset ℕ).Nodup :=
      (Multiset.nodup_add.mp h.fresh).2.1
    rw [← h.ids] at hsent
    exact Multiset.coe_nodup.mp (Multiset.nodup_add.mp hsent).2.1
  · intro hquiet hfew
    have hids := congrArg Multiset.card h.ids
    rw [Multiset.card_add, Multiset.card_add, Multiset.coe_card, Multiset.coe_card,
      Multiset.coe_card] at hids
    have hechoes := h.echoes
    have hlosses := h.losses
    rw [total_zero _ _ (fun sink hsink => (hquiet sink hsink).1), Nat.zero_add] at hechoes
    have hlt := (history events).state.probeLoss.toNat_lt
    rw [total_zero _ _ (fun sink hsink => (hquiet sink hsink).2), Nat.zero_add, Nat.mod_eq_of_lt hlt,
      Nat.mod_eq_of_lt hfew] at hlosses
    rw [Peer.probeCount]
    omega

def sampleEvents : List Event :=
  [.openStream, .openStream, .sink 0 .draw, .sink 1 .draw, .sink 1 (.insert 0), .sink 0 (.insert 0),
    .sink 0 (.echo 1), .sink 0 .recordEcho, .sink 0 .resetConsecutiveLoss, .sink 0 (.echo 1),
    .sink 1 (.sweep (10*second)), .sink 1 .incProbeLoss, .sink 1 .addConsecutiveLoss]

theorem sample_accounted : (sentIDs (history sampleEvents).log).length =
    (history sampleEvents).state.outstanding.card+(history sampleEvents).state.probeCount+
      (history sampleEvents).state.probeLoss.toNat ∧
    (history sampleEvents).state.probeCount = 1 ∧ (history sampleEvents).state.probeLoss = 1 := by
  have hquiet : (history sampleEvents).state.Quiet := by
    unfold Peer.Quiet
    decide
  exact ⟨(probes_accounted sampleEvents).2 hquiet (by decide),by decide,by decide⟩

end Aevia.Mirror.Probes
