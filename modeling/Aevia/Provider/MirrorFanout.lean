import Aevia.Foundation.GoError
import Aevia.Foundation.TextFields
import Aevia.Provider.Cooldowns
import Aevia.Provider.MirrorSelection
import Mathlib.Data.List.Duplicate

/-!
# Streams of one fan-out

A call of `StartMirroringWithPeers` walks its list of peers and opens a stream
at every entry, while the sinks of the streams that are open write and end, and
the mirrors read headers, register the session and reset what they refuse. A
sink whose write fails puts its peer into cooldown.
-/

set_option autoImplicit false

namespace Aevia.Mirror.Fanout
open Aevia.Bytes Aevia.LazyExpiry Aevia.Run Aevia.TextFields

section Peers
variable {PeerId : Type}

def splitCSV (raw : Bytes) : List Bytes :=
  if trimSpace raw = [] then []
  else ((raw.splitOn 44).map trimSpace).filter (fun t => t ≠ [])

def addMirrorPeer (decode : Bytes → Except GoError PeerId) (out : List PeerId × List GoError)
    (s : Bytes) : List PeerId × List GoError :=
  match decode s with
  | .ok id => (out.1++[id], out.2)
  | .error err => (out.1, out.2++[.wrap "parse mirror peer %q: %w" [.text s] err])

def parseMirrorPeers (decode : Bytes → Except GoError PeerId) (raw : Bytes) :
    List PeerId × List GoError :=
  (splitCSV raw).foldl (addMirrorPeer decode) ([], [])

theorem addMirrorPeer_foldl (decode : Bytes → Except GoError PeerId) (items : List Bytes)
    (out : List PeerId × List GoError) : (items.foldl (addMirrorPeer decode) out).1 =
      out.1++items.filterMap (fun s => (decode s).toOption) := by
  induction items generalizing out with
  | nil => exact (List.append_nil _).symm
  | cons s items ih =>
    rw [List.foldl_cons, ih, addMirrorPeer]
    cases hs : decode s with
    | ok id => simp [hs, Except.toOption]
    | error err => simp [hs, Except.toOption]

theorem parseMirrorPeers_count [DecidableEq PeerId] (decode : Bytes → Except GoError PeerId)
    (raw : Bytes) (p : PeerId) : (parseMirrorPeers decode raw).1.count p =
      (splitCSV raw).countP (fun s => (decode s).toOption == some p) := by
  rw [parseMirrorPeers, addMirrorPeer_foldl, List.nil_append, List.count_filterMap]

end Peers

section Model

inductive Opening where
  | unreachable
  | headerFailed
  | started
  deriving DecidableEq

inductive Handler where
  | opened
  | serving
  | reset
  | closed
  deriving DecidableEq

/-- A stream to a peer: whether the sink of the origin still runs, and the handler. -/
structure Stream (PeerId : Type) where
  peer : PeerId
  running : Bool
  handler : Handler
  deriving DecidableEq

/-- What wakes the loop of a sink: the end of the session, a frame or a probe to
write, or the sweep. -/
inductive Wake where
  | done
  | write (breaks : Bool)
  | sweep (trips : Bool)
  deriving DecidableEq

/-- The call with the peers it has still to go through, its streams, the mirrors
that have the id of the session registered, and the peers its sinks put into cooldown. -/
structure System (PeerId : Type) where
  client : Cooldowns.Client PeerId
  pending : List PeerId
  started : ℕ
  streams : List (Stream PeerId)
  registered : PeerId → Bool
  cooled : List PeerId

inductive Action (PeerId : Type) where
  | nextPeer (outcome : Opening)
  | wake (i : ℕ) (w : Wake)
  | handleStream (i : ℕ) (refuses : Bool)
  | leave (i : ℕ)
  /-- Calls on the client that come from elsewhere. -/
  | enterCooldown (p : PeerId) (duration : ℤ)
  | isInCooldown (p : PeerId)
  | cooldownSnapshot
  deriving DecidableEq

structure Event (PeerId : Type) where
  now : ℤ
  action : Action PeerId
  deriving DecidableEq

variable {PeerId : Type} [DecidableEq PeerId]

def start (client : Cooldowns.Client PeerId) (peers : List PeerId) : System PeerId :=
  ⟨client, peers, 0, [], fun _ => false, []⟩

-- A healthy peer refuses only a session that it has already, serves a stream as long as
-- the sink runs, and takes every write and answers every probe on one it has not reset.
variable (healthy : PeerId → Bool)

namespace System
variable (s : System PeerId) (now : ℤ) (i : ℕ)

def openStream (p : PeerId) : Opening → System PeerId
  | .unreachable => s
  | .headerFailed => { s with streams := s.streams++[⟨p, false, .opened⟩] }
  | .started => { s with streams := s.streams++[⟨p, true, .opened⟩], started := s.started+1 }

def nextPeer (outcome : Opening) : System PeerId :=
  match s.pending with
  | [] => s
  | p::rest =>
    let (client, opens) := s.client.tryPeer now p
    let s := { s with client := client, pending := rest }
    if opens then s.openStream p outcome else s

/-- The deferred part of `run`. -/
def exit (t : Stream PeerId) (dropRequested : Bool) : System PeerId :=
  let s := { s with streams := s.streams.set i { t with running := false } }
  if dropRequested then
    { s with
      client := s.client.enterCooldown now t.peer Cooldowns.defaultCooldownDuration
      cooled := s.cooled++[t.peer] }
  else s

/-- A pass of the loop of `run`. A write fails on a stream that the mirror has reset,
and its probes stay without echoes. -/
def sinkRun (t : Stream PeerId) (w : Wake) : System PeerId :=
  if t.running = false then s
  else match w with
    | .done => s.exit now i t false
    | .write breaks =>
      if t.handler = .reset ∨ breaks ∧ healthy t.peer = false then s.exit now i t true else s
    | .sweep trips =>
      if trips ∧ (t.handler = .reset ∨ healthy t.peer = false) then s.exit now i t true else s

def handleStream (t : Stream PeerId) (refuses : Bool) : System PeerId :=
  if t.handler ≠ .opened then s
  else if refuses ∧ (t.running = false ∨ healthy t.peer = false) ∨ s.registered t.peer then
    { s with streams := s.streams.set i { t with handler := .reset } }
  else
    { s with
      streams := s.streams.set i { t with handler := .serving }
      registered := Function.update s.registered t.peer true }

def leave (t : Stream PeerId) : System PeerId :=
  if t.handler = .serving ∧ (t.running = false ∨ healthy t.peer = false) then
    { s with
      streams := s.streams.set i { t with handler := .closed }
      registered := Function.update s.registered t.peer false }
  else s

end System

def onStream (s : System PeerId) (i : ℕ) (step : Stream PeerId → System PeerId) : System PeerId :=
  match s.streams[i]? with
  | some t => step t
  | none => s

omit [DecidableEq PeerId] in
theorem onStream_some (s : System PeerId) (i : ℕ) (step : Stream PeerId → System PeerId)
    {t : Stream PeerId} (hi : s.streams[i]? = some t) : onStream s i step = step t := by
  rw [onStream, hi]

def perform (s : System PeerId) (e : Event PeerId) : System PeerId :=
  match e.action with
  | .nextPeer outcome => s.nextPeer e.now outcome
  | .wake i w => onStream s i (fun t => s.sinkRun healthy e.now i t w)
  | .handleStream i refuses => onStream s i (fun t => s.handleStream healthy i t refuses)
  | .leave i => onStream s i (fun t => s.leave healthy i t)
  | .enterCooldown p duration => { s with client := s.client.enterCooldown e.now p duration }
  | .isInCooldown p => { s with client := (s.client.isInCooldown e.now p).1 }
  | .cooldownSnapshot => { s with client := (s.client.cooldownSnapshot e.now).1 }

def Ascending (events : List (Event PeerId)) : Prop := events.Pairwise (fun e e' => e.now ≤ e'.now)

instance (events : List (Event PeerId)) : Decidable (Ascending events) :=
  inferInstanceAs (Decidable (List.Pairwise _ _))

def System.streamsTo (s : System PeerId) (p : PeerId) : List (Stream PeerId) :=
  s.streams.filter (fun t => t.peer = p)

/-- No run of the call opens a second stream to a peer. -/
def OpensOnce (client : Cooldowns.Client PeerId) (peers : List PeerId) : Prop :=
  ∀ events, Ascending events → ∀ p,
    ((run (perform healthy) (start client peers) events).streamsTo p).length ≤ 1

/-- No run of the call puts a healthy peer into cooldown. -/
def SparesHealthy (client : Cooldowns.Client PeerId) (peers : List PeerId) : Prop :=
  ∀ events, Ascending events → ∀ p, healthy p = true →
    p ∉ (run (perform healthy) (start client peers) events).cooled

end Model

section Safety
variable {PeerId : Type} [DecidableEq PeerId] (healthy : PeerId → Bool) (s : System PeerId)
  (p : PeerId)

def System.owed : ℕ := if p = s.client.hostId then 0 else s.pending.count p

/-- A stream that is the only one to its peer: the session is registered once its
header is read, and a reset follows the end of the sink. -/
structure Alone (registered : Bool) (t : Stream PeerId) : Prop where
  unread : t.handler = .opened → registered = false
  reset : t.handler = .reset → t.running = false

def AtMostOne (registered : Bool) : List (Stream PeerId) → Prop
  | [] => registered = false
  | [t] => Alone registered t
  | _ => True

structure Safe : Prop where
  once : s.owed p+(s.streamsTo p).length ≤ 1
  alone : healthy p = true → AtMostOne (s.registered p) (s.streamsTo p)
  spared : healthy p = true → p ∉ s.cooled

theorem streamsTo_set (streams : List (Stream PeerId)) (i : ℕ) (t t' : Stream PeerId)
    (hi : streams[i]? = some t) (hpeer : t'.peer = t.peer)
    (hone : (streams.filter (fun u => u.peer = p)).length ≤ 1) :
    (t.peer ≠ p ∧ (streams.set i t').filter (fun u => u.peer = p) =
      streams.filter (fun u => u.peer = p)) ∨
    (t.peer = p ∧ streams.filter (fun u => u.peer = p) = [t] ∧
      (streams.set i t').filter (fun u => u.peer = p) = [t']) := by
  obtain ⟨hlt, rfl⟩ := List.getElem?_eq_some_iff.mp hi
  obtain ⟨before, after, hsplit, -, hset⟩ : ∃ before after, streams = before++streams[i]::after ∧
      before.length = i ∧ streams.set i t' = before++t'::after := List.exists_of_set hlt
  generalize streams[i] = t at hpeer hsplit ⊢
  subst hsplit
  rw [hset]
  simp only [List.filter_append, List.filter_cons, hpeer, decide_eq_true_eq] at hone ⊢
  by_cases hp : t.peer = p
  · simp only [hp, if_true, List.length_append, List.length_cons] at hone ⊢
    have hbefore : before.filter (fun u => u.peer = p) = [] :=
      List.eq_nil_of_length_eq_zero (by omega)
    have hafter : after.filter (fun u => u.peer = p) = [] :=
      List.eq_nil_of_length_eq_zero (by omega)
    exact .inr ⟨trivial,by rw [hbefore, hafter]; rfl,by rw [hbefore, hafter]; rfl⟩
  · simp only [hp, if_false]
    exact .inl ⟨hp,trivial⟩

variable {healthy s p} (h : Safe healthy s p)

include h in
theorem Safe.client (client : Cooldowns.Client PeerId) (hhost : client.hostId = s.client.hostId) :
    Safe healthy { s with client := client } p where
  once := by
    have h1 := h.once
    simp only [System.owed, hhost] at h1 ⊢
    exact h1
  alone := h.alone
  spared := h.spared

include h in
theorem Safe.passed (q : PeerId) (rest : List PeerId) (hpending : s.pending = q::rest) :
    Safe healthy { s with pending := rest } p where
  once := by
    refine (Nat.add_le_add_right ?_ _).trans h.once
    unfold System.owed
    split_ifs
    · exact Nat.le_refl 0
    · rw [hpending]
      exact List.count_le_count_cons
  alone := h.alone
  spared := h.spared

include h in
theorem Safe.opened (q : PeerId) (rest : List PeerId) (hpending : s.pending = q::rest)
    (hq : q ≠ s.client.hostId) (running : Bool) (started : ℕ) :
    Safe healthy { s with
      pending := rest, started := started, streams := s.streams++[⟨q, running, .opened⟩] } p := by
  have hstreams : (s.streams++[Stream.mk q running .opened]).filter (fun t => t.peer = p) =
      s.streamsTo p++if q = p then [Stream.mk q running .opened] else [] := by
    simp only [System.streamsTo, List.filter_append, List.filter_cons, List.filter_nil,
      decide_eq_true_eq]
  by_cases hp : q = p
  · subst hp
    -- the entry of the list is the one stream that is owed
    have hcount := h.once
    rw [System.owed, if_neg hq, hpending, List.count_cons_self] at hcount
    have hnone : s.streamsTo q = [] := List.eq_nil_of_length_eq_zero (by omega)
    rw [hnone, if_pos rfl, List.nil_append] at hstreams
    refine ⟨?_, ?_, h.spared⟩
    · rw [System.owed, if_neg hq, System.streamsTo, hstreams]
      exact (Nat.le_add_right _ _).trans hcount
    · intro hhealthy
      have hunread := h.alone hhealthy
      rw [hnone] at hunread
      rw [System.streamsTo, hstreams]
      exact ⟨fun _ => hunread,nofun⟩
  · have hpassed := h.passed q rest hpending
    rw [if_neg hp, List.append_nil] at hstreams
    refine ⟨?_, ?_, h.spared⟩
    · rw [System.streamsTo, hstreams]
      exact hpassed.once
    · intro hhealthy
      rw [System.streamsTo, hstreams]
      exact h.alone hhealthy

include h in
theorem Safe.moved (i : ℕ) (t t' : Stream PeerId) (hi : s.streams[i]? = some t)
    (hpeer : t'.peer = t.peer) (client : Cooldowns.Client PeerId)
    (hhost : client.hostId = s.client.hostId) (registered : PeerId → Bool) (cooled : List PeerId)
    (hregistered : ∀ q, q ≠ t.peer → registered q = s.registered q)
    (hcooled : ∀ q, q ∈ cooled → q ≠ t.peer → q ∈ s.cooled)
    (halone : healthy t.peer = true → Alone (s.registered t.peer) t →
      Alone (registered t.peer) t' ∧ cooled = s.cooled) :
    Safe healthy { s with
      client := client, streams := s.streams.set i t', registered := registered
      cooled := cooled } p := by
  have howed : ∀ streams registered cooled,
      (System.mk client s.pending s.started streams registered cooled).owed p = s.owed p := by
    intro streams registered cooled
    simp only [System.owed, hhost]
  have hone : (s.streamsTo p).length ≤ 1 := (Nat.le_add_left _ _).trans h.once
  rcases streamsTo_set p s.streams i t t' hi hpeer hone with ⟨hp, hsame⟩ | ⟨rfl, hwas, hset⟩
  · refine ⟨?_, ?_, ?_⟩
    · rw [howed, System.streamsTo, hsame]
      exact h.once
    · intro hhealthy
      show AtMostOne (registered p) ((s.streams.set i t').filter (fun u => u.peer = p))
      rw [hsame, hregistered p (Ne.symm hp)]
      exact h.alone hhealthy
    · exact fun hhealthy hmem => h.spared hhealthy (hcooled p hmem (Ne.symm hp))
  · refine ⟨?_, ?_, ?_⟩
    · have hlength := h.once
      rw [System.streamsTo, hwas] at hlength
      rw [howed, System.streamsTo, hset]
      exact hlength
    · intro hhealthy
      have hbefore := h.alone hhealthy
      rw [System.streamsTo, hwas] at hbefore
      rw [System.streamsTo, hset]
      exact (halone hhealthy hbefore).1
    · intro hhealthy
      have hbefore := h.alone hhealthy
      rw [System.streamsTo, hwas] at hbefore
      rw [(halone hhealthy hbefore).2]
      exact h.spared hhealthy

include h in
theorem Safe.nextPeer (now : ℤ) (outcome : Opening) : Safe healthy (s.nextPeer now outcome) p := by
  unfold System.nextPeer
  split
  · exact h
  · rename_i q rest hpending
    have hhost := s.client.tryPeer_hostId now q
    have hclient := h.client _ hhost
    have hpassed := hclient.passed q rest hpending
    dsimp only
    split_ifs with hopens
    · have hq : q ≠ (s.client.tryPeer now q).1.hostId := by
        rw [hhost]
        exact ((s.client.tryPeer_opens now q).mp hopens).1
      cases outcome with
      | unreachable => exact hpassed
      | headerFailed => exact hclient.opened q rest hpending hq false s.started
      | started => exact hclient.opened q rest hpending hq true (s.started+1)
    · exact hpassed

section Stream
variable (i : ℕ) (t : Stream PeerId) (hi : s.streams[i]? = some t)

include h hi in
theorem Safe.exit (now : ℤ) (dropRequested : Bool) (hrunning : t.running = true)
    (hdrop : dropRequested = true → t.handler = .reset ∨ healthy t.peer = false) :
    Safe healthy (s.exit now i t dropRequested) p := by
  have hended : Alone (s.registered t.peer) t →
      Alone (s.registered t.peer) { t with running := false } :=
    fun halone => ⟨halone.unread,fun _ => rfl⟩
  cases dropRequested with
  | false =>
    exact h.moved i t { t with running := false } hi rfl _ rfl _ _ (fun _ _ => rfl)
      (fun _ hq _ => hq) (fun _ halone => ⟨hended halone,rfl⟩)
  | true =>
    refine h.moved i t { t with running := false } hi rfl _
      (s.client.enterCooldown_hostId now _ _) _ _ (fun _ _ => rfl) ?_ ?_
    · intro q hq hne
      exact (List.mem_append.mp hq).resolve_right (fun hlast => hne (List.mem_singleton.mp hlast))
    · intro hhealthy halone
      rcases hdrop rfl with hreset | hunhealthy
      · have hstopped := halone.reset hreset
        rw [hrunning] at hstopped
        cases hstopped
      · rw [hhealthy] at hunhealthy
        cases hunhealthy

include h hi in
theorem Safe.sinkRun (now : ℤ) (w : Wake) : Safe healthy (s.sinkRun healthy now i t w) p := by
  unfold System.sinkRun
  split_ifs with hrunning
  · exact h
  · rw [Bool.not_eq_false] at hrunning
    cases w with
    | done => exact h.exit i t hi now false hrunning (fun hdrop => by cases hdrop)
    | write breaks =>
      dsimp only
      split_ifs with hfails
      · exact h.exit i t hi now true hrunning (fun _ => hfails.imp_right And.right)
      · exact h
    | sweep trips =>
      dsimp only
      split_ifs with hfails
      · exact h.exit i t hi now true hrunning (fun _ => hfails.2)
      · exact h

include h hi in
theorem Safe.handleStream (refuses : Bool) :
    Safe healthy (s.handleStream healthy i t refuses) p := by
  unfold System.handleStream
  split_ifs with hopened hrefused
  · exact h
  · rw [not_not] at hopened
    refine h.moved i t { t with handler := .reset } hi rfl _ rfl _ _ (fun _ _ => rfl)
      (fun _ hq _ => hq) ?_
    intro hhealthy halone
    refine ⟨⟨nofun,fun _ => ?_⟩,rfl⟩
    rcases hrefused with ⟨-, hended | hunhealthy⟩ | hregistered
    · exact hended
    · rw [hhealthy] at hunhealthy
      cases hunhealthy
    · rw [halone.unread hopened] at hregistered
      cases hregistered
  · refine h.moved i t { t with handler := .serving } hi rfl _ rfl _ _ ?_ (fun _ hq _ => hq) ?_
    · exact fun q hq => Function.update_of_ne hq _ _
    · exact fun _ _ => ⟨⟨nofun,nofun⟩,rfl⟩

include h hi in
theorem Safe.leave : Safe healthy (s.leave healthy i t) p := by
  unfold System.leave
  split_ifs with hserving
  · refine h.moved i t { t with handler := .closed } hi rfl _ rfl _ _ ?_ (fun _ hq _ => hq) ?_
    · exact fun q hq => Function.update_of_ne hq _ _
    · exact fun _ _ => ⟨⟨nofun,nofun⟩,rfl⟩
  · exact h

end Stream

include h in
theorem Safe.onStream (i : ℕ) (step : Stream PeerId → System PeerId)
    (hstep : ∀ t, s.streams[i]? = some t → Safe healthy (step t) p) :
    Safe healthy (onStream s i step) p := by
  unfold Fanout.onStream
  split
  · rename_i t hi
    exact hstep t hi
  · exact h

include h in
theorem Safe.perform (e : Event PeerId) : Safe healthy (perform healthy s e) p := by
  obtain ⟨now, action⟩ := e
  cases action with
  | nextPeer outcome => exact h.nextPeer now outcome
  | wake i w => exact h.onStream i _ (fun t hi => h.sinkRun i t hi now w)
  | handleStream i refuses => exact h.onStream i _ (fun t hi => h.handleStream i t hi refuses)
  | leave i => exact h.onStream i _ (fun t hi => h.leave i t hi)
  | enterCooldown q duration => exact h.client _ (s.client.enterCooldown_hostId now q duration)
  | isInCooldown q => exact h.client _ (s.client.isInCooldown_hostId now q)
  | cooldownSnapshot => exact h.client _ rfl

end Safety

section Repeats
variable {PeerId : Type} [DecidableEq PeerId] (healthy : PeerId → Bool) (s : System PeerId)
  (p : PeerId) (now : ℤ)

def passes (n : ℕ) : List (Event PeerId) := List.replicate n ⟨now, .nextPeer .started⟩

/-- A pass at an instant when the peer is not cooling down leaves it so. -/
theorem tryPeer_free (q : PeerId) (h : prune now (s.client.cooldowns p) = none) :
    prune now ((s.client.tryPeer now q).1.cooldowns p) = none := by
  rcases s.client.tryPeer_fst now q with hclient | hclient <;> rw [hclient]
  · exact h
  · rcases s.client.isInCooldown_kept now q p with hkept | hkept <;> rw [hkept]
    · exact h
    · rw [h]
      rfl

theorem nextPeer_started (q : PeerId) (rest : List PeerId) (hpending : s.pending = q::rest) :
    let s' := s.nextPeer now .started
    s'.client = (s.client.tryPeer now q).1 ∧ s'.pending = rest ∧ s'.registered = s.registered ∧
      s'.streams = s.streams++if (s.client.tryPeer now q).2 then [⟨q, true, .opened⟩] else [] := by
  simp only [System.nextPeer, hpending]
  split_ifs
  · exact ⟨rfl,rfl,rfl,rfl⟩
  · exact ⟨rfl,rfl,rfl,(List.append_nil _).symm⟩

theorem nextPeer_streamsTo (q : PeerId) (rest : List PeerId) (hpending : s.pending = q::rest)
    (hp : p ≠ s.client.hostId) (hfree : prune now (s.client.cooldowns p) = none) :
    (s.nextPeer now .started).streamsTo p =
      s.streamsTo p++if q = p then [⟨p, true, .opened⟩] else [] := by
  obtain ⟨-, -, -, hstreams⟩ := nextPeer_started s now q rest hpending
  rw [System.streamsTo, hstreams, List.filter_append, System.streamsTo]
  congr 1
  by_cases hq : q = p
  · subst hq
    have hopens : (s.client.tryPeer now q).2 = true := by
      refine (s.client.tryPeer_opens now q).mpr ⟨hp,?_⟩
      rw [s.client.isInCooldown_answer, hfree]
      rfl
    simp [hopens]
  · split_ifs <;> simp [hq]

theorem passes_streamsTo (hp : p ≠ s.client.hostId)
    (hfree : prune now (s.client.cooldowns p) = none) :
    let s' := run (perform healthy) s (passes now s.pending.length)
    s'.streamsTo p = s.streamsTo p++List.replicate (s.pending.count p) ⟨p, true, .opened⟩ ∧
      s'.registered = s.registered := by
  generalize hpending : s.pending = peers
  induction peers generalizing s with
  | nil => exact ⟨(List.append_nil _).symm,rfl⟩
  | cons q peers ih =>
    obtain ⟨hclient, hrest, hregistered, -⟩ := nextPeer_started s now q peers hpending
    have hhost : p ≠ (s.nextPeer now .started).client.hostId := by
      rw [hclient, s.client.tryPeer_hostId now q]
      exact hp
    have hstill : prune now ((s.nextPeer now .started).client.cooldowns p) = none := by
      rw [hclient]
      exact tryPeer_free s p now q hfree
    obtain ⟨hstreams, hkept⟩ := ih _ hhost hstill hrest
    refine ⟨?_, hkept.trans hregistered⟩
    refine hstreams.trans ?_
    rw [nextPeer_streamsTo s p now q peers hpending hp hfree, List.append_assoc]
    congr 1
    by_cases hq : q = p
    · rw [hq, if_pos rfl, List.count_cons_self, List.replicate_succ]
      rfl
    · rw [if_neg hq, List.count_cons_of_ne hq]
      rfl

def clash (i j : ℕ) : List (Event PeerId) :=
  [⟨now, .handleStream i false⟩, ⟨now, .handleStream j false⟩, ⟨now, .wake j (.write false)⟩]

theorem clash_cooled (i j : ℕ) (hij : i ≠ j) (hi : s.streams[i]? = some ⟨p, true, .opened⟩)
    (hj : s.streams[j]? = some ⟨p, true, .opened⟩) (hregistered : s.registered p = false) :
    p ∈ (run (perform healthy) s (clash now i j)).cooled := by
  have hserved : perform healthy s ⟨now, .handleStream i false⟩ = { s with
      streams := s.streams.set i ⟨p, true, .serving⟩
      registered := Function.update s.registered p true } := by
    refine (onStream_some s i _ hi).trans ?_
    simp [System.handleStream, hregistered]
  obtain ⟨s₁, hs₁⟩ : ∃ s₁, perform healthy s ⟨now, .handleStream i false⟩ = s₁ := ⟨_,rfl⟩
  have hj₁ : s₁.streams[j]? = some ⟨p, true, .opened⟩ := by
    rw [← hs₁, hserved, List.getElem?_set_ne hij, hj]
  have htaken : s₁.registered p = true := by
    rw [← hs₁, hserved]
    exact Function.update_self _ _ _
  have hreset : perform healthy s₁ ⟨now, .handleStream j false⟩ =
      { s₁ with streams := s₁.streams.set j ⟨p, true, .reset⟩ } := by
    refine (onStream_some s₁ j _ hj₁).trans ?_
    simp [System.handleStream, htaken]
  obtain ⟨s₂, hs₂⟩ : ∃ s₂, perform healthy s₁ ⟨now, .handleStream j false⟩ = s₂ := ⟨_,rfl⟩
  have hj₂ : s₂.streams[j]? = some ⟨p, true, .reset⟩ := by
    rw [← hs₂, hreset]
    exact List.getElem?_set_self (List.getElem?_eq_some_iff.mp hj₁).1
  have hdropped : perform healthy s₂ ⟨now, .wake j (.write false)⟩ =
      s₂.exit now j ⟨p, true, .reset⟩ true := by
    refine (onStream_some s₂ j _ hj₂).trans ?_
    simp [System.sinkRun]
  rw [clash, run, hs₁, run, hs₂, run, hdropped]
  exact List.mem_append_right _ (List.mem_singleton_self p)

omit [DecidableEq PeerId] in
theorem exists_free (client : Cooldowns.Client PeerId) :
    ∃ now, prune now (client.cooldowns p) = none := by
  cases hentry : client.cooldowns p with
  | none => exact ⟨0,rfl⟩
  | some expiry => exact ⟨expiry+1,if_pos (Int.lt_succ expiry)⟩

omit [DecidableEq PeerId] in
theorem ascending_of_now (events : List (Event PeerId)) (h : ∀ e ∈ events, e.now = now) :
    Ascending events := by
  refine List.pairwise_of_forall_mem_list (fun e he e' he' => ?_)
  rw [h e he, h e' he']

end Repeats

section Exactness
variable {PeerId : Type} [DecidableEq PeerId] (healthy : PeerId → Bool)
  (client : Cooldowns.Client PeerId) (peers : List PeerId) (p : PeerId)

theorem start_safe (hcount : p ≠ client.hostId → peers.count p ≤ 1) :
    Safe healthy (start client peers) p where
  once := by
    show (if p = client.hostId then 0 else peers.count p)+0 ≤ 1
    split_ifs with hself
    · exact Nat.zero_le 1
    · exact hcount hself
  alone := fun _ => rfl
  spared := fun _ hmem => by cases hmem

theorem run_safe (hcount : p ≠ client.hostId → peers.count p ≤ 1) (events : List (Event PeerId)) :
    Safe healthy (run (perform healthy) (start client peers) events) p :=
  run_invariant (perform healthy) (fun s => Safe healthy s p) (fun _ e h => h.perform e) _ events
    (start_safe healthy client peers p hcount)

theorem passes_started (now : ℤ) (hp : p ≠ client.hostId)
    (hfree : prune now (client.cooldowns p) = none) :
    let s := run (perform healthy) (start client peers) (passes now peers.length)
    s.streamsTo p = List.replicate (peers.count p) ⟨p, true, .opened⟩ ∧
      s.registered p = false := by
  obtain ⟨hstreams, hregistered⟩ :=
    passes_streamsTo healthy (start client peers) p now hp hfree
  exact ⟨hstreams,congrFun hregistered p⟩

theorem exists_cooled (hp : p ≠ client.hostId) (hcount : 2 ≤ peers.count p) :
    ∃ events, Ascending events ∧
      p ∈ (run (perform healthy) (start client peers) events).cooled := by
  obtain ⟨now, hfree⟩ := exists_free p client
  obtain ⟨hstreams, hregistered⟩ := passes_started healthy client peers p now hp hfree
  generalize hs : run (perform healthy) (start client peers) (passes now peers.length) = s at *
  have hcopies : s.streams.count ⟨p, true, .opened⟩ = peers.count p := by
    have hfilter : (s.streamsTo p).count ⟨p, true, .opened⟩ = s.streams.count ⟨p, true, .opened⟩ :=
      List.count_filter (decide_eq_true rfl)
    rw [← hfilter, hstreams, List.count_replicate_self]
  have htwice : s.streams.Duplicate ⟨p, true, .opened⟩ := by
    rw [List.duplicate_iff_two_le_count, hcopies]
    exact hcount
  obtain ⟨i, j, hij, hi, hj⟩ := List.duplicate_iff_exists_distinct_get.mp htwice
  refine ⟨passes now peers.length++clash now i j, ?_, ?_⟩
  · refine ascending_of_now now _ (fun e he => ?_)
    rcases List.mem_append.mp he with he | he
    · rw [List.eq_of_mem_replicate he]
    · revert he
      simp only [clash, List.mem_cons, List.not_mem_nil, or_false]
      rintro (rfl | rfl | rfl) <;> rfl
  · rw [run_append, hs]
    refine clash_cooled healthy s p now i j (fun h => hij.ne (Fin.ext h)) ?_ ?_ hregistered
    · rw [hi]
      exact List.getElem?_eq_getElem i.isLt
    · rw [hj]
      exact List.getElem?_eq_getElem j.isLt

theorem opensOnce_iff :
    OpensOnce healthy client peers ↔ ∀ p, p ≠ client.hostId → peers.count p ≤ 1 := by
  constructor
  · intro h p hp
    obtain ⟨now, hfree⟩ := exists_free p client
    have hstreams := (passes_started healthy client peers p now hp hfree).1
    have hone := h (passes now peers.length)
      (ascending_of_now now _ (fun e he => by rw [List.eq_of_mem_replicate he])) p
    rw [hstreams, List.length_replicate] at hone
    exact hone
  · intro h events _ p
    exact (Nat.le_add_left _ _).trans (run_safe healthy client peers p (h p) events).once

theorem sparesHealthy_iff : SparesHealthy healthy client peers ↔
    ∀ p, p ≠ client.hostId → healthy p = true → peers.count p ≤ 1 := by
  constructor
  · intro h p hp hhealthy
    by_contra hcount
    obtain ⟨events, hclock, hcooled⟩ := exists_cooled healthy client peers p hp (by omega)
    exact h events hclock p hhealthy hcooled
  · intro h events _ p hhealthy
    exact (run_safe healthy client peers p (fun hp => h p hp hhealthy) events).spared hhealthy

theorem parsed_sparesHealthy_iff (decode : Bytes → Except GoError PeerId) (raw : Bytes) :
    SparesHealthy healthy client (parseMirrorPeers decode raw).1 ↔
      ∀ p, p ≠ client.hostId → healthy p = true →
        (splitCSV raw).countP (fun s => (decode s).toOption == some p) ≤ 1 := by
  simp only [sparesHealthy_iff, parseMirrorPeers_count]

theorem selected_opensOnce {F : Type} [LinearOrder F] (fl : Float64 F) (codec : PeerCodec PeerId)
    (a : RankerAdapter F PeerId) (hids : a.OneTextPerPeer fl codec)
    (entries : List (Bytes × Candidate F)) (hentries : entries.Perm (a.merged fl codec).entries)
    (hint : ViewerHint F) (k : ℤ) :
    OpensOnce healthy client (a.selectTopK fl codec entries hint k) := by
  refine (opensOnce_iff healthy client _).mpr (fun p _ => ?_)
  exact List.nodup_iff_count_le_one.mp (a.selectTopK_nodup fl codec hint hids entries hentries k) p

/-- Every run opens at most one stream to each peer if and only if no peer but the host
is listed twice, and no run puts a healthy peer into cooldown if and only if none of these
is listed twice. -/
theorem startMirroringWithPeers_exact :
    (OpensOnce healthy client peers ↔ ∀ p, p ≠ client.hostId → peers.count p ≤ 1) ∧
    (SparesHealthy healthy client peers ↔
      ∀ p, p ≠ client.hostId → healthy p = true → peers.count p ≤ 1) :=
  ⟨opensOnce_iff healthy client peers,sparesHealthy_iff healthy client peers⟩

end Exactness

section Sample

def decodeText (text : Bytes) : Except GoError Bytes :=
  match textCodec.decode text with
  | some id => .ok id
  | none => .error (.new "failed to parse peer ID")

def repeatedPeers : Bytes := nearPeer++ascii ", "++nearPeer

/-- Its peer gets two streams and is put into cooldown, however healthy it is. -/
theorem repeated_peer_cooled :
    ¬OpensOnce (fun _ => true) (Cooldowns.newClient farPeer)
      (parseMirrorPeers decodeText repeatedPeers).1 ∧
    ¬SparesHealthy (fun _ => true) (Cooldowns.newClient farPeer)
      (parseMirrorPeers decodeText repeatedPeers).1 := by
  have hpeers : (parseMirrorPeers decodeText repeatedPeers).1 = [nearPeer, nearPeer] := by
    decide +kernel
  rw [hpeers]
  constructor
  · intro h
    have hone := h (passes 0 2) (by decide) nearPeer
    revert hone
    decide +kernel
  · intro h
    have hspared := h (passes 0 2++clash 0 0 1) (by decide) nearPeer rfl
    revert hspared
    decide +kernel

end Sample

end Aevia.Mirror.Fanout
