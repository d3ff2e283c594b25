import Aevia.Foundation.LazyExpiry
import Aevia.Foundation.Run
import Mathlib.Data.Int.Notation
import Mathlib.Data.List.Induction
import Mathlib.Logic.Function.Basic

/-!
# Cooldowns of dropped mirror peers

A dropped peer is kept out until its latest expiry. Readers remove what is
over, so the map forgets, and the loops that open mirror streams read it peer
by peer while other calls go on. Instants and durations are in nanoseconds.
-/

set_option autoImplicit false

namespace Aevia.Mirror.Cooldowns
open Aevia.LazyExpiry Aevia.Run

variable {PeerId : Type} [DecidableEq PeerId]

def second : ℤ := 1000000000

def defaultCooldownDuration : ℤ := 60*second

structure Client (PeerId : Type) where
  hostId : PeerId
  cooldowns : PeerId → Option ℤ

def newClient (hostId : PeerId) : Client PeerId := ⟨hostId, fun _ => none⟩

def effective (duration : ℤ) : ℤ := if duration = 0 then defaultCooldownDuration else duration

namespace Client
variable (c : Client PeerId) (now : ℤ)

def enterCooldown (p : PeerId) (duration : ℤ) : Client PeerId :=
  let expiry := now+effective duration
  match c.cooldowns p with
  | none => { c with cooldowns := Function.update c.cooldowns p (some expiry) }
  | some existing =>
    if existing < expiry then
      { c with cooldowns := Function.update c.cooldowns p (some expiry) }
    else c

def isInCooldown (p : PeerId) : Client PeerId × Bool :=
  match c.cooldowns p with
  | none => (c, false)
  | some expiry =>
    if expiry < now then
      ({ c with cooldowns := Function.update c.cooldowns p none }, false)
    else (c, true)

/-- The range over the map: expired entries are deleted, the others copied. -/
def cooldownSnapshot : Client PeerId × (PeerId → Option ℤ) :=
  let active := fun p => match c.cooldowns p with
    | none => none
    | some expiry => if expiry < now then none else some expiry
  ({ c with cooldowns := active }, active)

/-- One pass of the loop of `StartMirroringWithPeers`, and whether it goes on
to open a stream to the peer. -/
def tryPeer (p : PeerId) : Client PeerId × Bool :=
  if p = c.hostId then (c, false)
  else
    let (c, cooling) := c.isInCooldown now p
    (c, !cooling)

theorem enterCooldown_cooldowns (p q : PeerId) (duration : ℤ) :
    (c.enterCooldown now p duration).cooldowns q =
      if q = p then extend (c.cooldowns p) (now+effective duration) else c.cooldowns q := by
  unfold enterCooldown extend
  cases hentry : c.cooldowns p with
  | none => exact Function.update_apply _ _ _ _
  | some existing =>
    dsimp only
    by_cases hlater : existing < now+effective duration
    · rw [if_pos hlater, if_pos hlater]
      exact Function.update_apply _ _ _ _
    · rw [if_neg hlater, if_neg hlater]
      split_ifs with hq
      · rw [hq, hentry]
      · rfl

theorem enterCooldown_hostId (p : PeerId) (duration : ℤ) :
    (c.enterCooldown now p duration).hostId = c.hostId := by
  unfold enterCooldown
  dsimp only
  split <;> try split_ifs
  all_goals rfl

theorem isInCooldown_cooldowns (p q : PeerId) : (c.isInCooldown now p).1.cooldowns q =
    if q = p then prune now (c.cooldowns p) else c.cooldowns q := by
  unfold isInCooldown prune
  cases hentry : c.cooldowns p with
  | none =>
    split_ifs with hq
    · rw [hq, hentry]
    · rfl
  | some expiry =>
    dsimp only
    by_cases hover : expiry < now
    · rw [if_pos hover, if_pos hover]
      exact Function.update_apply _ _ _ _
    · rw [if_neg hover, if_neg hover]
      split_ifs with hq
      · rw [hq, hentry]
      · rfl

theorem isInCooldown_kept (p q : PeerId) :
    (c.isInCooldown now p).1.cooldowns q = c.cooldowns q ∨
    (c.isInCooldown now p).1.cooldowns q = prune now (c.cooldowns q) := by
  rw [isInCooldown_cooldowns]
  split_ifs with hq
  · rw [hq]
    exact .inr rfl
  · exact .inl rfl

theorem isInCooldown_answer (p : PeerId) :
    (c.isInCooldown now p).2 = (prune now (c.cooldowns p)).isSome := by
  unfold isInCooldown prune
  cases c.cooldowns p with
  | none => rfl
  | some expiry =>
    dsimp only
    split_ifs <;> rfl

theorem isInCooldown_hostId (p : PeerId) : (c.isInCooldown now p).1.hostId = c.hostId := by
  unfold isInCooldown
  split <;> try split_ifs
  all_goals rfl

omit [DecidableEq PeerId] in
theorem cooldownSnapshot_answer (p : PeerId) :
    (c.cooldownSnapshot now).2 p = prune now (c.cooldowns p) := by
  show (match c.cooldowns p with
    | none => none
    | some expiry => if expiry < now then none else some expiry) = _
  unfold prune
  cases c.cooldowns p <;> rfl

omit [DecidableEq PeerId] in
theorem cooldownSnapshot_cooldowns (p : PeerId) :
    (c.cooldownSnapshot now).1.cooldowns p = prune now (c.cooldowns p) :=
  c.cooldownSnapshot_answer now p

theorem tryPeer_fst (p : PeerId) :
    (c.tryPeer now p).1 = c ∨ (c.tryPeer now p).1 = (c.isInCooldown now p).1 := by
  unfold tryPeer
  split_ifs
  · exact .inl rfl
  · exact .inr rfl

theorem tryPeer_hostId (p : PeerId) : (c.tryPeer now p).1.hostId = c.hostId := by
  rcases c.tryPeer_fst now p with h | h <;> rw [h]
  exact c.isInCooldown_hostId now p

theorem tryPeer_opens (p : PeerId) : (c.tryPeer now p).2 = true ↔
    p ≠ c.hostId ∧ (c.isInCooldown now p).2 = false := by
  unfold tryPeer
  split_ifs with hself
  · simp [hself]
  · simp [hself]

end Client

inductive Call (PeerId : Type) where
  | enterCooldown (p : PeerId) (duration : ℤ)
  | isInCooldown (p : PeerId)
  | cooldownSnapshot
  | startMirroringWithPeers (peers : List PeerId)
  /-- The loop of the call with that number goes on with its next peer. -/
  | nextPeer (i : ℕ)
  deriving DecidableEq

structure Event (PeerId : Type) where
  now : ℤ
  call : Call PeerId
  deriving DecidableEq

/-- A client, the peers that each call of `StartMirroringWithPeers` still has to
go through, and the streams it has opened. -/
structure System (PeerId : Type) where
  client : Client PeerId
  pending : List (List PeerId)
  opened : List PeerId

def start (hostId : PeerId) : System PeerId := ⟨newClient hostId, [], []⟩

def perform (s : System PeerId) (e : Event PeerId) : System PeerId :=
  match e.call with
  | .enterCooldown p duration => { s with client := s.client.enterCooldown e.now p duration }
  | .isInCooldown p => { s with client := (s.client.isInCooldown e.now p).1 }
  | .cooldownSnapshot => { s with client := (s.client.cooldownSnapshot e.now).1 }
  | .startMirroringWithPeers peers => { s with pending := s.pending++[peers] }
  | .nextPeer i =>
    match s.pending[i]? with
    | some (p::rest) =>
      let (client, opens) := s.client.tryPeer e.now p
      { client := client
        pending := s.pending.set i rest
        opened := if opens then s.opened++[p] else s.opened }
    | _ => s

def expiries (p : PeerId) (events : List (Event PeerId)) : List ℤ :=
  events.filterMap (fun e => match e.call with
    | .enterCooldown q duration => if q = p then some (e.now+effective duration) else none
    | _ => none)

def CoolingDown (events : List (Event PeerId)) (p : PeerId) (t : ℤ) : Prop :=
  Active (latest (expiries p events)) t

def Ascending (events : List (Event PeerId)) : Prop := events.Pairwise (fun e e' => e.now ≤ e'.now)

instance (events : List (Event PeerId)) : Decidable (Ascending events) :=
  inferInstanceAs (Decidable (List.Pairwise _ _))

theorem expiries_snoc (p : PeerId) (events : List (Event PeerId)) (e : Event PeerId) :
    expiries p (events++[e]) = expiries p events++expiries p [e] := List.filterMap_append

theorem expiries_idle (p : PeerId) (e : Event PeerId)
    (h : ∀ q duration, e.call = .enterCooldown q duration → q ≠ p) : expiries p [e] = [] := by
  obtain ⟨now, call⟩ := e
  cases call with
  | enterCooldown q duration => simp [expiries, h q duration rfl]
  | _ => rfl

theorem perform_hostId (s : System PeerId) (e : Event PeerId) :
    (perform s e).client.hostId = s.client.hostId := by
  obtain ⟨now, call⟩ := e
  cases call with
  | enterCooldown p duration => exact s.client.enterCooldown_hostId now p duration
  | isInCooldown p => exact s.client.isInCooldown_hostId now p
  | cooldownSnapshot => rfl
  | startMirroringWithPeers peers => rfl
  | nextPeer i =>
    dsimp only [perform]
    split
    · rename_i p rest hpending
      exact s.client.tryPeer_hostId now p
    · rfl

theorem perform_tracks (s : System PeerId) (e : Event PeerId) (p : PeerId)
    (events : List (Event PeerId)) (h : Tracks (expiries p events) e.now (s.client.cooldowns p)) :
    Tracks (expiries p (events++[e])) e.now ((perform s e).client.cooldowns p) := by
  have hkept : ∀ entry', entry' = s.client.cooldowns p ∨
      entry' = prune e.now (s.client.cooldowns p) → Tracks (expiries p events) e.now entry' := by
    rintro entry' (rfl | rfl)
    · exact h
    · exact h.prune
  rw [expiries_snoc]
  obtain ⟨now, call⟩ := e
  cases call with
  | enterCooldown q duration =>
    have hentry := s.client.enterCooldown_cooldowns now q p duration
    by_cases hq : p = q
    · subst hq
      rw [if_pos rfl] at hentry
      simpa [expiries, perform, hentry] using h.extend (now+effective duration)
    · rw [if_neg hq] at hentry
      rw [expiries_idle p, List.append_nil]
      · exact hkept _ (.inl hentry)
      · rintro q' d ⟨⟩
        exact Ne.symm hq
  | isInCooldown q =>
    exact (List.append_nil _).symm ▸ hkept _ (s.client.isInCooldown_kept now q p)
  | cooldownSnapshot =>
    exact (List.append_nil _).symm ▸ hkept _ (.inr (s.client.cooldownSnapshot_cooldowns now p))
  | startMirroringWithPeers peers => exact (List.append_nil _).symm ▸ h
  | nextPeer i =>
    refine (List.append_nil _).symm ▸ hkept _ ?_
    dsimp only [perform]
    split
    · rename_i q rest hpending
      rcases s.client.tryPeer_fst now q with hclient | hclient <;> dsimp only <;> rw [hclient]
      · exact .inl rfl
      · exact s.client.isInCooldown_kept now q p
    · exact .inl rfl

theorem run_tracks (hostId : PeerId) (events : List (Event PeerId)) (now : ℤ)
    (hclock : Ascending events) (hnow : ∀ e ∈ events, e.now ≤ now) (p : PeerId) :
    Tracks (expiries p events) now ((run perform (start hostId) events).client.cooldowns p) := by
  induction events using List.reverseRecOn generalizing now with
  | nil => exact tracks_nil now
  | append_singleton events e ih =>
    obtain ⟨hbefore, -, hle⟩ := List.pairwise_append.mp hclock
    have hstep := perform_tracks _ e p events
      (ih e.now hbefore (fun e' he' => hle e' he' e (List.mem_singleton_self e)))
    rw [run_append]
    exact hstep.later (hnow e (by simp))

theorem run_hostId (hostId : PeerId) (events : List (Event PeerId)) :
    (run perform (start hostId) events).client.hostId = hostId :=
  run_invariant perform (fun s => s.client.hostId = hostId)
    (fun s e h => (perform_hostId s e).trans h) _ events rfl

theorem run_inCooldown (hostId : PeerId) (events : List (Event PeerId)) (now : ℤ)
    (hclock : Ascending events) (hnow : ∀ e ∈ events, e.now ≤ now) (p : PeerId) :
    ((run perform (start hostId) events).client.isInCooldown now p).2 = true ↔
      CoolingDown events p now := by
  have h := run_tracks hostId events now hclock hnow p
  rw [Client.isInCooldown_answer, h.prune_latest, prune_isSome]
  rfl

theorem perform_opened (s : System PeerId) (e : Event PeerId) (h : (perform s e).opened ≠ s.opened) :
    ∃ p, (perform s e).opened = s.opened++[p] ∧ (s.client.tryPeer e.now p).2 = true := by
  obtain ⟨now, call⟩ := e
  cases call with
  | nextPeer i =>
    dsimp only [perform] at h ⊢
    split at h
    · rename_i p rest hpending
      by_cases hopens : (s.client.tryPeer now p).2 = true
      · exact ⟨p,if_pos hopens,hopens⟩
      · exact absurd (if_neg hopens) h
    · exact absurd rfl h
  | _ => exact absurd rfl h

/-- At every instant of every run: a peer is reported, by either reader, if and
only if the latest expiry it was given is not over, and the step that is taken
then opens a stream neither to the host nor to such a peer. -/
theorem cooldown_exclusion (hostId : PeerId) (events : List (Event PeerId)) (e : Event PeerId)
    (hclock : Ascending (events++[e])) :
    let s := run perform (start hostId) events
    (∀ p, (s.client.isInCooldown e.now p).2 = true ↔ CoolingDown events p e.now) ∧
    (∀ p, ((s.client.cooldownSnapshot e.now).2 p).isSome = true ↔ CoolingDown events p e.now) ∧
    (∀ p expiry, (s.client.cooldownSnapshot e.now).2 p = some expiry →
      latest (expiries p events) = some expiry) ∧
    ((perform s e).opened = s.opened ∨
      ∃ p, (perform s e).opened = s.opened++[p] ∧ p ≠ hostId ∧ ¬CoolingDown events p e.now) := by
  intro s
  obtain ⟨hbefore, -, hle⟩ := List.pairwise_append.mp hclock
  have hnow : ∀ e' ∈ events, e'.now ≤ e.now :=
    fun e' he' => hle e' he' e (List.mem_singleton_self e)
  have hread := run_inCooldown hostId events e.now hbefore hnow
  refine ⟨hread, ?_, ?_, ?_⟩
  · intro p
    rw [← hread p, Client.cooldownSnapshot_answer, Client.isInCooldown_answer]
  · intro p expiry h
    rw [Client.cooldownSnapshot_answer,
      (run_tracks hostId events e.now hbefore hnow p).prune_latest, prune_some] at h
    exact h.1
  · by_cases hopened : (perform s e).opened = s.opened
    · exact .inl hopened
    · obtain ⟨p, hp, hopens⟩ := perform_opened s e hopened
      obtain ⟨hself, hfree⟩ := (Client.tryPeer_opens _ _ _).mp hopens
      rw [run_hostId] at hself
      refine .inr ⟨p, hp, hself, ?_⟩
      rw [← hread p, hfree]
      exact Bool.false_ne_true

/-- A peer comes back after a read has removed it; a shorter cooldown inside the
second one changes nothing, and the loop passes over the host and over the peer. -/
theorem cooldown_exclusion_reentry :
    let events : List (Event ℕ) := [⟨0, .enterCooldown 3 100⟩, ⟨101, .isInCooldown 3⟩,
      ⟨200, .enterCooldown 3 100⟩, ⟨201, .enterCooldown 3 50⟩,
      ⟨220, .startMirroringWithPeers [1, 3, 4]⟩, ⟨230, .nextPeer 0⟩, ⟨260, .nextPeer 0⟩]
    ((run perform (start 1) events).client.isInCooldown 300 3).2 = true ∧
    CoolingDown events 3 300 ∧ (run perform (start 1) events).opened = [] ∧
    (perform (run perform (start 1) events) ⟨300, .nextPeer 0⟩).opened = [4] := by
  intro events
  have h := cooldown_exclusion 1 events ⟨300, .nextPeer 0⟩ (by decide)
  have hanswer : ((run perform (start 1) events).client.isInCooldown 300 3).2 = true := by decide
  exact ⟨hanswer,(h.1 3).mp hanswer,by decide,by decide⟩

end Aevia.Mirror.Cooldowns
