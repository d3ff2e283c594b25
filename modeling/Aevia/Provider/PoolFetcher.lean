import Aevia.Foundation.Run
import Aevia.Provider.ContentRoutes
import Aevia.Provider.MirrorSelection

/-!
# The pool of mirror candidates

Every peer that might mirror is asked for its `/healthz`, and what it answered is kept for
a while, so that requests that follow do not ask again. Requests that come together ask
separately, and each leaves its answers in the cache under the time at which it began.
-/

set_option autoImplicit false

namespace Aevia.Mirror
open Aevia.Bytes Aevia.Run

/-- What the fetcher reads of a `/healthz` document. -/
structure HealthzWire (F : Type) where
  region : Bytes
  lat : Option F
  lng : Option F
  activeSessions : Option ℤ

/-- An answer over the network: the status and the body, which may break off. -/
structure HealthzReply where
  statusCode : ℕ
  body : Except GoError Bytes

structure CachedPeer (F : Type) where
  candidate : Candidate F
  time : ℤ
  ok : Bool

structure PoolFetcher (PeerId : Type) where
  self : PeerId
  staticSeed : List PeerId
  ttl : Duration

def defaultPoolTTL : Duration := 60*1000000000

def newPoolFetcher {PeerId : Type} (self : PeerId) (staticSeed : List PeerId) (ttl : Duration) :
    PoolFetcher PeerId :=
  ⟨self,staticSeed,if ttl = 0 then defaultPoolTTL else ttl⟩

section Sources
variable {PeerId : Type} [DecidableEq PeerId] (self : PeerId)

def collect : List PeerId → List PeerId → List PeerId
  | list, [] => list
  | list, pid::pids =>
    if pid = self then collect list pids
    else if pid ∈ list then collect list pids
    else collect (list++[pid]) pids

theorem mem_collect (list pids : List PeerId) (pid : PeerId) :
    pid ∈ collect self list pids ↔ pid ∈ list ∨ (pid ≠ self ∧ pid ∈ pids) := by
  induction pids generalizing list with
  | nil => simp [collect]
  | cons head pids ih =>
    rw [collect]
    split_ifs with hself hseen
    · rw [ih, hself, List.mem_cons]
      tauto
    · rw [ih, List.mem_cons]
      constructor
      · tauto
      · rintro (h | ⟨hne, rfl | h⟩) <;> tauto
    · rw [ih, List.mem_append, List.mem_singleton, List.mem_cons]
      constructor
      · rintro ((h | rfl) | h) <;> tauto
      · tauto

theorem collect_nodup (list pids : List PeerId) (h : list.Nodup) :
    (collect self list pids).Nodup := by
  induction pids generalizing list with
  | nil => exact h
  | cons head pids ih =>
    rw [collect]
    split_ifs with hself hseen
    · exact ih list h
    · exact ih list h
    · apply ih
      rw [List.nodup_append]
      refine ⟨h, List.nodup_singleton _, ?_⟩
      intro a ha b hb
      rw [List.mem_singleton.mp hb]
      rintro rfl
      exact hseen ha

end Sources

section Probing
variable {F PeerId : Type} (fl : Float64 F) (string : PeerId → Bytes)
  (unmarshalHealthz : Bytes → Except GoError (HealthzWire F))

/-- A peer that did not answer is a candidate all the same. -/
def unreachable (pid : PeerId) : Candidate F := { emptyCandidate fl with peerID := string pid }

def probeOne (pid : PeerId) (bootstrapRTT : Duration) :
    Except GoError HealthzReply → Candidate F × Bool
  | .error _ => (unreachable fl string pid,false)
  | .ok resp =>
    if resp.statusCode ≠ Content.statusOK then (unreachable fl string pid,false)
    else match resp.body with
      | .error _ => (unreachable fl string pid,false)
      | .ok body => match unmarshalHealthz body with
        | .error _ => (unreachable fl string pid,false)
        | .ok h =>
          let c := { unreachable fl string pid with
            region := h.region, bootstrapRTT := bootstrapRTT }
          let c := match h.lat, h.lng with
            | some lat, some lng => { c with lat := lat, lng := lng, latLngKnown := true }
            | _, _ => c
          match h.activeSessions with
          | some n => ({ c with activeSessions := n },true)
          | none => (c,true)

def document : Except GoError HealthzReply → Option (HealthzWire F)
  | .error _ => none
  | .ok resp =>
    if resp.statusCode ≠ Content.statusOK then none
    else match resp.body with
      | .error _ => none
      | .ok body => (unmarshalHealthz body).toOption

/-- A probe that was answered: the call that sent it, the peer and the time at which it was
asked, how long that took, and the answer. -/
structure Probe (PeerId : Type) where
  call : ℕ
  peer : PeerId
  sent : ℤ
  took : Duration
  reply : Except GoError HealthzReply

/-- The candidate says of the peer what the peer said of itself, and no more. -/
structure Told (probe : Probe PeerId) (c : Candidate F) : Prop where
  silent : document unmarshalHealthz probe.reply = none → c = unreachable fl string probe.peer
  answered : ∀ h, document unmarshalHealthz probe.reply = some h →
    c.peerID = string probe.peer ∧ c.region = h.region ∧ c.bootstrapRTT = probe.took ∧
      c.activeSessions = h.activeSessions.getD 0
  located : ∀ h, document unmarshalHealthz probe.reply = some h →
    (c.latLngKnown = true ↔ h.lat.isSome ∧ h.lng.isSome) ∧
      ∀ lat lng, h.lat = some lat → h.lng = some lng → c.lat = lat ∧ c.lng = lng

theorem probeOne_silent (pid : PeerId) (rtt : Duration) (reply : Except GoError HealthzReply)
    (h : document unmarshalHealthz reply = none) :
    probeOne fl string unmarshalHealthz pid rtt reply = (unreachable fl string pid,false) := by
  cases reply with
  | error e => rfl
  | ok resp =>
    simp only [document, probeOne] at h ⊢
    split_ifs at h ⊢ with hstatus
    · rfl
    · cases hbody : resp.body with
      | error e => rfl
      | ok body =>
        rw [hbody] at h
        dsimp only at h ⊢
        cases hwire : unmarshalHealthz body with
        | error e => rfl
        | ok wire =>
          rw [hwire] at h
          cases h

def described (pid : PeerId) (rtt : Duration) (h : HealthzWire F) : Candidate F :=
  let c := { unreachable fl string pid with region := h.region, bootstrapRTT := rtt }
  let c := match h.lat, h.lng with
    | some lat, some lng => { c with lat := lat, lng := lng, latLngKnown := true }
    | _, _ => c
  match h.activeSessions with
  | some n => { c with activeSessions := n }
  | none => c

theorem probeOne_answered (pid : PeerId) (rtt : Duration) (reply : Except GoError HealthzReply)
    (wire : HealthzWire F) (h : document unmarshalHealthz reply = some wire) :
    probeOne fl string unmarshalHealthz pid rtt reply =
      (described fl string pid rtt wire,true) := by
  cases reply with
  | error e => cases h
  | ok resp =>
    simp only [document, probeOne] at h ⊢
    split_ifs at h ⊢ with hstatus
    cases hbody : resp.body with
    | error e =>
      rw [hbody] at h
      cases h
    | ok body =>
      rw [hbody] at h
      dsimp only at h ⊢
      cases hwire : unmarshalHealthz body with
      | error e =>
        rw [hwire] at h
        cases h
      | ok found =>
        rw [hwire] at h
        cases h
        obtain ⟨region, lat, lng, active⟩ := wire
        cases active <;> rfl

theorem probeOne_told (probe : Probe PeerId) :
    Told fl string unmarshalHealthz probe
      (probeOne fl string unmarshalHealthz probe.peer probe.took probe.reply).1 := by
  constructor
  · intro h
    rw [probeOne_silent fl string unmarshalHealthz _ _ _ h]
  · intro wire h
    rw [probeOne_answered fl string unmarshalHealthz _ _ _ wire h]
    obtain ⟨region, lat, lng, active⟩ := wire
    cases active <;> cases lat <;> cases lng <;> exact ⟨rfl,rfl,rfl,rfl⟩
  · intro wire h
    rw [probeOne_answered fl string unmarshalHealthz _ _ _ wire h]
    obtain ⟨region, lat, lng, active⟩ := wire
    cases active <;> cases lat <;> cases lng <;>
      simp [described, unreachable, emptyCandidate]

end Probing

/-- A call of `Fetch` from the time it has looked into the cache. -/
structure Fetch (F PeerId : Type) where
  connected : List PeerId
  list : List PeerId
  now : ℤ
  fresh : List (Candidate F)
  misses : List PeerId
  sent : PeerId → Option ℤ
  results : PeerId → Option (Candidate F × Bool)
  returned : Option (List (Candidate F))

/-- The fetcher with every call of it, and every probe that has been answered. -/
structure Pool (F PeerId : Type) where
  clock : ℤ
  cache : PeerId → Option (CachedPeer F)
  fetches : List (Fetch F PeerId)
  probes : List (Probe PeerId)

/-- `elapsed` is the time since the event before. `collect` is the last part of a call; the
map of its results is met in any order. -/
inductive PoolEvent (PeerId : Type) where
  | fetch (elapsed : ℕ) (connected : List PeerId)
  | send (elapsed : ℕ) (k : ℕ) (pid : PeerId)
  | receive (elapsed : ℕ) (k : ℕ) (pid : PeerId) (reply : Except GoError HealthzReply)
  | collect (elapsed : ℕ) (k : ℕ) (order : List PeerId)

section Steps
variable {F PeerId : Type} [DecidableEq PeerId] (fl : Float64 F) (string : PeerId → Bytes)
  (unmarshalHealthz : Bytes → Except GoError (HealthzWire F)) (p : PoolFetcher PeerId)

def PoolFetcher.sources (connected : List PeerId) : List PeerId :=
  Mirror.collect p.self (Mirror.collect p.self [] connected) p.staticSeed

/-- The entry of a peer as long as it is trusted. -/
def PoolFetcher.hit (cache : PeerId → Option (CachedPeer F)) (now : ℤ) (pid : PeerId) :
    Option (Candidate F) :=
  match cache pid with
  | none => none
  | some entry => if now-entry.time < p.ttl then some entry.candidate else none

def Pool.start : Pool F PeerId := ⟨0,fun _ => none,[],[]⟩

def Pool.pass (s : Pool F PeerId) (elapsed : ℕ) : Pool F PeerId :=
  { s with clock := s.clock+elapsed }

def Pool.fetch (s : Pool F PeerId) (connected : List PeerId) : Pool F PeerId :=
  let list := p.sources connected
  let fresh := list.filterMap (p.hit s.cache s.clock)
  let misses := list.filter (fun pid => (p.hit s.cache s.clock pid).isNone)
  let f : Fetch F PeerId := {
    connected := connected
    list := list
    now := s.clock
    fresh := fresh
    misses := misses
    sent := fun _ => none
    results := fun _ => none
    returned := if misses = [] then some fresh else none }
  { s with fetches := s.fetches++[f] }

def Pool.send (s : Pool F PeerId) (k : ℕ) (pid : PeerId) : Pool F PeerId :=
  match s.fetches[k]? with
  | none => s
  | some f =>
    if pid ∈ f.misses ∧ f.sent pid = none then
      let f' := { f with sent := Function.update f.sent pid (some s.clock) }
      { s with fetches := s.fetches.set k f' }
    else s

def Pool.receive (s : Pool F PeerId) (k : ℕ) (pid : PeerId)
    (reply : Except GoError HealthzReply) : Pool F PeerId :=
  match s.fetches[k]? with
  | none => s
  | some f => match f.sent pid, f.results pid with
    | some sent, none =>
      let result := probeOne fl string unmarshalHealthz pid (s.clock-sent) reply
      let f' := { f with results := Function.update f.results pid (some result) }
      { s with
        fetches := s.fetches.set k f'
        probes := s.probes++[⟨k,pid,sent,s.clock-sent,reply⟩] }
    | _, _ => s

def Pool.collect (s : Pool F PeerId) (k : ℕ) (order : List PeerId) : Pool F PeerId :=
  match s.fetches[k]? with
  | none => s
  | some f =>
    if f.returned = none ∧ order.isPerm f.misses ∧ ∀ pid ∈ f.misses, (f.results pid).isSome then
      let probed := order.filterMap (fun pid => (f.results pid).map Prod.fst)
      let f' := { f with returned := some (f.fresh++probed) }
      { s with
        cache := fun pid => match f.results pid with
          | some r => if pid ∈ order then some ⟨r.1,f.now,r.2⟩ else s.cache pid
          | none => s.cache pid
        fetches := s.fetches.set k f' }
    else s

def Pool.next (s : Pool F PeerId) : PoolEvent PeerId → Pool F PeerId
  | .fetch elapsed connected => (s.pass elapsed).fetch p connected
  | .send elapsed k pid => (s.pass elapsed).send k pid
  | .receive elapsed k pid reply =>
    (s.pass elapsed).receive fl string unmarshalHealthz k pid reply
  | .collect elapsed k order => (s.pass elapsed).collect k order

end Steps

section Exchanges
variable {F PeerId : Type} [DecidableEq PeerId] {fl : Float64 F} {string : PeerId → Bytes}
  {unmarshalHealthz : Bytes → Except GoError (HealthzWire F)} {p : PoolFetcher PeerId}

def PoolEvent.elapsed : PoolEvent PeerId → ℕ
  | .fetch elapsed _ => elapsed
  | .send elapsed _ _ => elapsed
  | .receive elapsed _ _ _ => elapsed
  | .collect elapsed _ _ => elapsed

def timeAfter (events : List (PoolEvent PeerId)) : ℤ :=
  (events.map (fun e => (e.elapsed : ℤ))).sum

/-- The call asked the peer at that time. -/
def Asked (events : List (PoolEvent PeerId)) (k : ℕ) (pid : PeerId) (t : ℤ) : Prop :=
  ∃ before elapsed, before++[.send elapsed k pid] <+: events ∧
    t = timeAfter (before++[.send elapsed k pid])

/-- The peer was asked in the run, and answered so much later. -/
def Exchanged (events : List (PoolEvent PeerId)) (probe : Probe PeerId) : Prop :=
  ∃ before elapsed, before++[.receive elapsed probe.call probe.peer probe.reply] <+: events ∧
    Asked before probe.call probe.peer probe.sent ∧
    probe.sent+probe.took =
      timeAfter (before++[.receive elapsed probe.call probe.peer probe.reply])

section Growth
variable {events : List (PoolEvent PeerId)} (more : List (PoolEvent PeerId))

omit [DecidableEq PeerId] in
theorem timeAfter_snoc (e : PoolEvent PeerId) :
    timeAfter (events++[e]) = timeAfter events+e.elapsed := by
  simp [timeAfter]

omit [DecidableEq PeerId] in
theorem Asked.grow {k : ℕ} {pid : PeerId} {t : ℤ} (h : Asked events k pid t) :
    Asked (events++more) k pid t := by
  obtain ⟨before, elapsed, hpre, ht⟩ := h
  exact ⟨before,elapsed,hpre.trans (List.prefix_append _ _),ht⟩

omit [DecidableEq PeerId] in
theorem Exchanged.grow {probe : Probe PeerId} (h : Exchanged events probe) :
    Exchanged (events++more) probe := by
  obtain ⟨before, elapsed, hpre, hasked, ht⟩ := h
  exact ⟨before,elapsed,hpre.trans (List.prefix_append _ _),hasked,ht⟩

end Growth

omit [DecidableEq PeerId] in
theorem getElem_set {fetches : List (Fetch F PeerId)} {k i : ℕ} {f f' g : Fetch F PeerId}
    (hk : fetches[k]? = some f) (hg : (fetches.set k f')[i]? = some g) :
    (i = k ∧ g = f') ∨ (i ≠ k ∧ fetches[i]? = some g) := by
  by_cases hik : i = k
  · rw [hik, List.getElem?_set_self (List.getElem?_eq_some_iff.mp hk).1] at hg
    exact Or.inl ⟨hik,(Option.some.inj hg).symm⟩
  · rw [List.getElem?_set_ne (Ne.symm hik)] at hg
    exact Or.inr ⟨hik,hg⟩

structure Pool.Logged (events : List (PoolEvent PeerId)) (s : Pool F PeerId) : Prop where
  clock : s.clock = timeAfter events
  sent : ∀ (k : ℕ) f pid t, s.fetches[k]? = some f → f.sent pid = some t → Asked events k pid t
  probes : ∀ probe ∈ s.probes, Exchanged events probe

omit [DecidableEq PeerId] in
theorem Pool.Logged.pass {events : List (PoolEvent PeerId)} {s : Pool F PeerId}
    (h : s.Logged events) (e : PoolEvent PeerId) : (s.pass e.elapsed).Logged (events++[e]) where
  clock := by
    rw [timeAfter_snoc, ← h.clock]
    rfl
  sent := fun k f pid t hk ht => (h.sent k f pid t hk ht).grow [e]
  probes := fun probe hmem => (h.probes probe hmem).grow [e]

omit [DecidableEq PeerId] in
theorem Pool.Logged.replace {events : List (PoolEvent PeerId)} {s : Pool F PeerId}
    (h : s.Logged events) {k : ℕ} {f : Fetch F PeerId} (hk : s.fetches[k]? = some f)
    (f' : Fetch F PeerId) (cache : PeerId → Option (CachedPeer F)) (probes : List (Probe PeerId))
    (hf' : ∀ pid t, f'.sent pid = some t → Asked events k pid t)
    (hprobes : ∀ probe ∈ probes, Exchanged events probe) :
    Pool.Logged events ⟨s.clock,cache,s.fetches.set k f',probes⟩ where
  clock := h.clock
  sent := by
    intro i g pid t hg ht
    rcases getElem_set hk hg with ⟨rfl, rfl⟩ | ⟨-, hg⟩
    · exact hf' pid t ht
    · exact h.sent i g pid t hg ht
  probes := hprobes

theorem Pool.Logged.fetch {events : List (PoolEvent PeerId)} {s : Pool F PeerId}
    (h : s.Logged events) (connected : List PeerId) : (s.fetch p connected).Logged events where
  clock := h.clock
  sent := by
    intro k f pid t hk ht
    by_cases hlt : k < s.fetches.length
    · simp only [Pool.fetch, List.getElem?_append_left hlt] at hk
      exact h.sent k f pid t hk ht
    · simp only [Pool.fetch, List.getElem?_append_right (not_lt.mp hlt)] at hk
      obtain rfl := List.mem_singleton.mp (List.mem_of_getElem? hk)
      cases ht
  probes := h.probes

theorem Pool.Logged.send {events : List (PoolEvent PeerId)} {s : Pool F PeerId}
    (elapsed k : ℕ) (pid : PeerId) (h : s.Logged (events++[.send elapsed k pid])) :
    (s.send k pid).Logged (events++[.send elapsed k pid]) := by
  unfold Pool.send
  cases hk : s.fetches[k]? with
  | none => exact h
  | some f =>
    dsimp only
    split_ifs with hmiss
    · apply h.replace hk _ s.cache s.probes _ h.probes
      intro q t hq
      dsimp only at hq
      rw [Function.update_apply] at hq
      split_ifs at hq with hsame
      · cases hq
        rw [hsame]
        exact ⟨events,elapsed,List.prefix_rfl,h.clock⟩
      · exact h.sent k f q t hk hq
    · exact h

theorem Pool.Logged.receive {events : List (PoolEvent PeerId)} {s : Pool F PeerId}
    (elapsed k : ℕ) (pid : PeerId) (reply : Except GoError HealthzReply)
    (hasked : ∀ f t, s.fetches[k]? = some f → f.sent pid = some t → Asked events k pid t)
    (h : s.Logged (events++[.receive elapsed k pid reply])) :
    (s.receive fl string unmarshalHealthz k pid reply).Logged
      (events++[.receive elapsed k pid reply]) := by
  unfold Pool.receive
  cases hk : s.fetches[k]? with
  | none => exact h
  | some f =>
    dsimp only
    cases hsent : f.sent pid with
    | none => exact h
    | some sent =>
      cases f.results pid with
      | some r => exact h
      | none =>
        dsimp only
        apply h.replace hk _ s.cache _
        · exact fun q t hq => h.sent k f q t hk hq
        · intro probe hmem
          rcases List.mem_append.mp hmem with hmem | hmem
          · exact h.probes probe hmem
          · obtain rfl := List.mem_singleton.mp hmem
            refine ⟨events, elapsed, List.prefix_rfl, hasked f sent hk hsent, ?_⟩
            rw [← h.clock]
            exact add_sub_cancel sent s.clock

theorem Pool.Logged.collect {events : List (PoolEvent PeerId)} {s : Pool F PeerId}
    (h : s.Logged events) (k : ℕ) (order : List PeerId) : (s.collect k order).Logged events := by
  unfold Pool.collect
  cases hk : s.fetches[k]? with
  | none => exact h
  | some f =>
    dsimp only
    split_ifs with hready
    · exact h.replace hk _ _ s.probes (fun q t hq => h.sent k f q t hk hq) h.probes
    · exact h

theorem Pool.Logged.next {events : List (PoolEvent PeerId)} {s : Pool F PeerId}
    (h : s.Logged events) (e : PoolEvent PeerId) :
    (s.next fl string unmarshalHealthz p e).Logged (events++[e]) := by
  have hpassed := h.pass e
  cases e with
  | fetch elapsed connected => exact hpassed.fetch connected
  | send elapsed k pid => exact hpassed.send elapsed k pid
  | receive elapsed k pid reply =>
    exact hpassed.receive elapsed k pid reply (fun f t hk ht => h.sent k f pid t hk ht)
  | collect elapsed k order => exact hpassed.collect k order

theorem run_logged (events : List (PoolEvent PeerId)) :
    (run (Pool.next fl string unmarshalHealthz p) Pool.start events).Logged events := by
  apply history_invariant Pool.Logged
  · exact ⟨rfl,nofun,nofun⟩
  · exact fun es e h => h.next e

end Exchanges

section Freshness
variable {F PeerId : Type} [DecidableEq PeerId] {fl : Float64 F} {string : PeerId → Bytes}
  {unmarshalHealthz : Bytes → Except GoError (HealthzWire F)} {p : PoolFetcher PeerId}

/-- The candidate is what a probe of the peer led to that was sent since `begin`. -/
def Answered (fl : Float64 F) (string : PeerId → Bytes)
    (unmarshalHealthz : Bytes → Except GoError (HealthzWire F)) (probes : List (Probe PeerId))
    (begin : ℤ) (pid : PeerId) (c : Candidate F) : Prop :=
  ∃ probe ∈ probes, probe.peer = pid ∧ Told fl string unmarshalHealthz probe c ∧
    begin ≤ probe.sent

/-- The same for a probe that a call at `now` may still trust, or sends itself. -/
def Trusted (fl : Float64 F) (string : PeerId → Bytes)
    (unmarshalHealthz : Bytes → Except GoError (HealthzWire F)) (probes : List (Probe PeerId))
    (ttl : Duration) (now : ℤ) (pid : PeerId) (c : Candidate F) : Prop :=
  ∃ probe ∈ probes, probe.peer = pid ∧ Told fl string unmarshalHealthz probe c ∧
    (now < probe.sent+ttl ∨ now ≤ probe.sent)

structure Fetch.Sound (fl : Float64 F) (string : PeerId → Bytes)
    (unmarshalHealthz : Bytes → Except GoError (HealthzWire F)) (p : PoolFetcher PeerId)
    (clock : ℤ) (probes : List (Probe PeerId)) (f : Fetch F PeerId) : Prop where
  list : f.list = p.sources f.connected
  past : f.now ≤ clock
  hits : ∃ hits, (hits++f.misses).Perm f.list ∧
    List.Forall₂ (Trusted fl string unmarshalHealthz probes p.ttl f.now) hits f.fresh
  sent : ∀ pid t, f.sent pid = some t → f.now ≤ t
  results : ∀ pid r, f.results pid = some r → Answered fl string unmarshalHealthz probes f.now pid r.1
  returned : ∀ cs, f.returned = some cs → ∃ order, order.Perm f.list ∧
    List.Forall₂ (Trusted fl string unmarshalHealthz probes p.ttl f.now) order cs

structure Pool.Sound (fl : Float64 F) (string : PeerId → Bytes)
    (unmarshalHealthz : Bytes → Except GoError (HealthzWire F)) (p : PoolFetcher PeerId)
    (s : Pool F PeerId) : Prop where
  cached : ∀ pid entry, s.cache pid = some entry →
    Answered fl string unmarshalHealthz s.probes entry.time pid entry.candidate
  fetches : ∀ f ∈ s.fetches, f.Sound fl string unmarshalHealthz p s.clock s.probes

section Growth
variable {probes more : List (Probe PeerId)} {pid : PeerId} {c : Candidate F}
  {begin now : ℤ} {ttl : Duration}

omit [DecidableEq PeerId] in
theorem Answered.grow (h : Answered fl string unmarshalHealthz probes begin pid c) :
    Answered fl string unmarshalHealthz (probes++more) begin pid c := by
  obtain ⟨probe, hmem, hprobe⟩ := h
  exact ⟨probe,List.mem_append_left _ hmem,hprobe⟩

omit [DecidableEq PeerId] in
theorem Answered.trusted (h : Answered fl string unmarshalHealthz probes now pid c) :
    Trusted fl string unmarshalHealthz probes ttl now pid c := by
  obtain ⟨probe, hmem, hpeer, htold, hle⟩ := h
  exact ⟨probe,hmem,hpeer,htold,Or.inr hle⟩

omit [DecidableEq PeerId] in
theorem Trusted.grow (h : Trusted fl string unmarshalHealthz probes ttl now pid c) :
    Trusted fl string unmarshalHealthz (probes++more) ttl now pid c := by
  obtain ⟨probe, hmem, hprobe⟩ := h
  exact ⟨probe,List.mem_append_left _ hmem,hprobe⟩

theorem Fetch.Sound.grow {clock clock' : ℤ} {f : Fetch F PeerId}
    (h : f.Sound fl string unmarshalHealthz p clock probes) (hle : clock ≤ clock') :
    f.Sound fl string unmarshalHealthz p clock' (probes++more) := by
  obtain ⟨hits, hperm, hhits⟩ := h.hits
  constructor
  · exact h.list
  · exact h.past.trans hle
  · exact ⟨hits,hperm,hhits.imp (fun _ _ ht => ht.grow)⟩
  · exact h.sent
  · exact fun pid r hr => (h.results pid r hr).grow
  · intro cs hcs
    obtain ⟨order, horder, htrusted⟩ := h.returned cs hcs
    exact ⟨order,horder,htrusted.imp (fun _ _ ht => ht.grow)⟩

end Growth

theorem Pool.Sound.pass {s : Pool F PeerId} (h : s.Sound fl string unmarshalHealthz p) (elapsed : ℕ) :
    (s.pass elapsed).Sound fl string unmarshalHealthz p := by
  constructor
  · exact h.cached
  · intro f hf
    have hgrown : f.Sound fl string unmarshalHealthz p (s.clock+elapsed) (s.probes++[]) :=
      (h.fetches f hf).grow (by omega)
    rw [List.append_nil] at hgrown
    exact hgrown

theorem Pool.Sound.hit {s : Pool F PeerId} (h : s.Sound fl string unmarshalHealthz p) (pid : PeerId)
    (c : Candidate F) (hc : p.hit s.cache s.clock pid = some c) :
    Trusted fl string unmarshalHealthz s.probes p.ttl s.clock pid c := by
  unfold PoolFetcher.hit at hc
  cases hentry : s.cache pid with
  | none =>
    rw [hentry] at hc
    cases hc
  | some entry =>
    rw [hentry] at hc
    dsimp only at hc
    split_ifs at hc with htrusted
    cases hc
    obtain ⟨probe, hmem, hpeer, htold, hle⟩ := h.cached pid entry hentry
    exact ⟨probe,hmem,hpeer,htold,Or.inl (by omega)⟩

omit [DecidableEq PeerId] in
theorem hits_forall (Q : PeerId → Candidate F → Prop)
    (hit : PeerId → Option (Candidate F)) (h : ∀ pid c, hit pid = some c → Q pid c)
    (list : List PeerId) :
    List.Forall₂ Q (list.filter (fun pid => (hit pid).isSome)) (list.filterMap hit) := by
  induction list with
  | nil => exact List.Forall₂.nil
  | cons pid list ih =>
    cases hc : hit pid with
    | none => simpa [hc] using ih
    | some c => simpa [hc] using ⟨h pid c hc,ih⟩

theorem Pool.Sound.fetch {s : Pool F PeerId} (h : s.Sound fl string unmarshalHealthz p) (connected : List PeerId) :
    (s.fetch p connected).Sound fl string unmarshalHealthz p := by
  constructor
  · exact h.cached
  · intro f hf
    rcases List.mem_append.mp hf with hf | hf
    · exact h.fetches f hf
    · obtain rfl := List.mem_singleton.mp hf
      have htrusted := hits_forall _ (p.hit s.cache s.clock) h.hit (p.sources connected)
      have hsplit := List.filter_append_perm
        (fun pid => (p.hit s.cache s.clock pid).isSome) (p.sources connected)
      simp only [Option.not_isSome] at hsplit
      constructor
      · rfl
      · exact le_refl _
      · exact ⟨_,hsplit,htrusted⟩
      · exact fun _ _ hsent => absurd hsent (by simp)
      · exact fun _ _ hresult => absurd hresult (by simp)
      · intro cs hcs
        split_ifs at hcs with hmisses
        cases hcs
        rw [hmisses, List.append_nil] at hsplit
        exact ⟨_,hsplit,htrusted⟩

theorem Pool.Sound.replace {s : Pool F PeerId} (h : s.Sound fl string unmarshalHealthz p) (k : ℕ)
    (f' : Fetch F PeerId) (hf' : f'.Sound fl string unmarshalHealthz p s.clock s.probes) :
    Pool.Sound fl string unmarshalHealthz p { s with fetches := s.fetches.set k f' } := by
  constructor
  · exact h.cached
  · intro f hf
    rcases List.mem_or_eq_of_mem_set hf with hf | rfl
    · exact h.fetches f hf
    · exact hf'

theorem Pool.Sound.send {s : Pool F PeerId} (h : s.Sound fl string unmarshalHealthz p) (k : ℕ) (pid : PeerId) :
    (s.send k pid).Sound fl string unmarshalHealthz p := by
  unfold Pool.send
  cases hk : s.fetches[k]? with
  | none => exact h
  | some f =>
    dsimp only
    split_ifs with hmiss
    · have hf := h.fetches f (List.mem_of_getElem? hk)
      apply h.replace
      constructor
      · exact hf.list
      · exact hf.past
      · exact hf.hits
      · intro q t hq
        dsimp only at hq
        rw [Function.update_apply] at hq
        split_ifs at hq with hsame
        · cases hq
          exact hf.past
        · exact hf.sent q t hq
      · exact hf.results
      · exact hf.returned
    · exact h

theorem Pool.Sound.receive {s : Pool F PeerId} (h : s.Sound fl string unmarshalHealthz p) (k : ℕ) (pid : PeerId)
    (reply : Except GoError HealthzReply) :
    (s.receive fl string unmarshalHealthz k pid reply).Sound fl string unmarshalHealthz p := by
  unfold Pool.receive
  cases hk : s.fetches[k]? with
  | none => exact h
  | some f =>
    dsimp only
    cases hsent : f.sent pid with
    | none => exact h
    | some sent =>
      cases hresult : f.results pid with
      | some r => exact h
      | none =>
        dsimp only
        have hf := h.fetches f (List.mem_of_getElem? hk)
        have hgrown : f.Sound fl string unmarshalHealthz p s.clock (s.probes++
            [⟨k,pid,sent,s.clock-sent,reply⟩]) :=
          hf.grow (le_refl s.clock)
        constructor
        · exact fun q entry hq => (h.cached q entry hq).grow
        · intro g hg
          rcases List.mem_or_eq_of_mem_set hg with hg | rfl
          · exact (h.fetches g hg).grow (le_refl _)
          · constructor
            · exact hgrown.list
            · exact hgrown.past
            · exact hgrown.hits
            · exact hgrown.sent
            · intro q r hq
              dsimp only at hq
              rw [Function.update_apply] at hq
              split_ifs at hq with hsame
              · cases hq
                rw [hsame]
                exact ⟨⟨k,pid,sent,s.clock-sent,reply⟩,
                  List.mem_append_right _ (List.mem_singleton.mpr rfl),rfl,
                  probeOne_told fl string unmarshalHealthz _,hf.sent pid sent hsent⟩
              · exact hgrown.results q r hq
            · exact hgrown.returned

omit [DecidableEq PeerId] in
theorem results_forall (Q : PeerId → Candidate F → Prop)
    (results : PeerId → Option (Candidate F × Bool))
    (h : ∀ pid r, results pid = some r → Q pid r.1) (order : List PeerId)
    (hall : ∀ pid ∈ order, (results pid).isSome) :
    List.Forall₂ Q order (order.filterMap (fun pid => (results pid).map Prod.fst)) := by
  induction order with
  | nil => exact List.Forall₂.nil
  | cons pid order ih =>
    obtain ⟨r, hr⟩ := Option.isSome_iff_exists.mp (hall pid List.mem_cons_self)
    have hrest := ih (fun q hq => hall q (List.mem_cons_of_mem _ hq))
    simpa [hr] using ⟨h pid r hr,hrest⟩

theorem Pool.Sound.collect {s : Pool F PeerId} (h : s.Sound fl string unmarshalHealthz p) (k : ℕ)
    (order : List PeerId) : (s.collect k order).Sound fl string unmarshalHealthz p := by
  unfold Pool.collect
  cases hk : s.fetches[k]? with
  | none => exact h
  | some f =>
    dsimp only
    split_ifs with hready
    · obtain ⟨-, hperm, hall⟩ := hready
      rw [List.isPerm_iff] at hperm
      have hf := h.fetches f (List.mem_of_getElem? hk)
      constructor
      · intro pid entry hentry
        dsimp only at hentry
        cases hresult : f.results pid with
        | none =>
          rw [hresult] at hentry
          exact h.cached pid entry hentry
        | some r =>
          rw [hresult] at hentry
          dsimp only at hentry
          split_ifs at hentry with hpid
          · cases hentry
            exact hf.results pid r hresult
          · exact h.cached pid entry hentry
      · intro g hg
        rcases List.mem_or_eq_of_mem_set hg with hg | rfl
        · exact h.fetches g hg
        · constructor
          · exact hf.list
          · exact hf.past
          · exact hf.hits
          · exact hf.sent
          · exact hf.results
          · rintro cs ⟨⟩
            obtain ⟨hits, hsplit, hhits⟩ := hf.hits
            refine ⟨hits++order, (hperm.append_left hits).trans hsplit, ?_⟩
            apply List.rel_append hhits
            apply results_forall
            · exact fun pid r hr => (hf.results pid r hr).trusted
            · exact fun pid hpid => hall pid (hperm.subset hpid)
    · exact h

theorem Pool.Sound.next {s : Pool F PeerId} (h : s.Sound fl string unmarshalHealthz p) (e : PoolEvent PeerId) :
    (s.next fl string unmarshalHealthz p e).Sound fl string unmarshalHealthz p := by
  cases e with
  | fetch elapsed connected => exact (h.pass elapsed).fetch connected
  | send elapsed k pid => exact (h.pass elapsed).send k pid
  | receive elapsed k pid reply => exact (h.pass elapsed).receive k pid reply
  | collect elapsed k order => exact (h.pass elapsed).collect k order

/-- However calls overlap, each returns one candidate for every peer that is connected or
seeded, itself apart, and each of these says what that peer answered, or that it did not, to
a probe sent less than the TTL before the call began, or since. -/
theorem fetch_trusted (events : List (PoolEvent PeerId)) (k : ℕ) (f : Fetch F PeerId)
    (cs : List (Candidate F)) :
    let s := run (Pool.next fl string unmarshalHealthz p) Pool.start events
    s.fetches[k]? = some f → f.returned = some cs →
      ∃ order : List PeerId, order.Nodup ∧
        (∀ pid, pid ∈ order ↔ pid ≠ p.self ∧ (pid ∈ f.connected ∨ pid ∈ p.staticSeed)) ∧
        List.Forall₂ (fun pid c => ∃ probe, Exchanged events probe ∧ probe.peer = pid ∧
          Told fl string unmarshalHealthz probe c ∧
          (f.now < probe.sent+p.ttl ∨ f.now ≤ probe.sent)) order cs := by
  intro s hk hcs
  have hsound : s.Sound fl string unmarshalHealthz p := by
    apply run_invariant (Pool.next fl string unmarshalHealthz p)
      (Pool.Sound fl string unmarshalHealthz p)
    · exact fun t e ht => ht.next e
    · exact ⟨nofun,nofun⟩
  have hlogged : s.Logged events := run_logged events
  have hf := hsound.fetches f (List.mem_of_getElem? hk)
  obtain ⟨order, hperm, htrusted⟩ := hf.returned cs hcs
  refine ⟨order, ?_, ?_, ?_⟩
  · rw [hperm.nodup_iff, hf.list]
    exact collect_nodup _ _ _ (collect_nodup _ _ _ List.nodup_nil)
  · intro pid
    rw [hperm.mem_iff, hf.list, PoolFetcher.sources, mem_collect, mem_collect]
    simp only [List.not_mem_nil, false_or]
    tauto
  · apply htrusted.imp
    rintro pid c ⟨probe, hmem, hprobe⟩
    exact ⟨probe,hlogged.probes probe hmem,hprobe⟩

end Freshness

section Spacing
variable {F PeerId : Type} [DecidableEq PeerId] {fl : Float64 F} {string : PeerId → Bytes}
  {unmarshalHealthz : Bytes → Except GoError (HealthzWire F)} {p : PoolFetcher PeerId}

def Alone (s : Pool F PeerId) : PoolEvent PeerId → Prop
  | .fetch _ _ => ∀ f ∈ s.fetches, f.returned.isSome
  | _ => True

instance (s : Pool F PeerId) : ∀ e, Decidable (Alone s e)
  | .fetch _ _ => inferInstanceAs (Decidable (∀ f ∈ s.fetches, f.returned.isSome))
  | .send _ _ _ | .receive _ _ _ _ | .collect _ _ _ => inferInstanceAs (Decidable True)

structure Pool.Spaced (p : PoolFetcher PeerId) (s : Pool F PeerId) : Prop where
  spaced : ∀ (i j : ℕ) (f g : Fetch F PeerId), i < j → s.fetches[i]? = some f →
    s.fetches[j]? = some g →
    f.now ≤ g.now ∧ ∀ pid ∈ f.misses, pid ∈ g.misses → f.now+p.ttl ≤ g.now
  past : ∀ f ∈ s.fetches, f.now ≤ s.clock
  last : ∀ (k : ℕ) (f : Fetch F PeerId), s.fetches[k]? = some f → f.returned = none → k+1 = s.fetches.length
  cached : ∀ f ∈ s.fetches, f.returned.isSome → ∀ pid ∈ f.misses,
    ∃ entry, s.cache pid = some entry ∧ f.now ≤ entry.time

omit [DecidableEq PeerId] in
theorem Pool.Spaced.pass {s : Pool F PeerId} (h : s.Spaced p) (elapsed : ℕ) :
    (s.pass elapsed).Spaced p := by
  constructor
  · exact h.spaced
  · intro f hf
    have hpast := h.past f hf
    show f.now ≤ s.clock+elapsed
    omega
  · exact h.last
  · exact h.cached

theorem Pool.Spaced.fetch {s : Pool F PeerId} (h : s.Spaced p)
    (halone : ∀ f ∈ s.fetches, f.returned.isSome) (connected : List PeerId) :
    (s.fetch p connected).Spaced p := by
  have hmissed : ∀ f ∈ s.fetches, ∀ pid ∈ f.misses,
      (p.hit s.cache s.clock pid).isNone = true → f.now+p.ttl ≤ s.clock := by
    intro f hf pid hpid hnone
    obtain ⟨entry, hentry, hle⟩ := h.cached f hf (halone f hf) pid hpid
    unfold PoolFetcher.hit at hnone
    rw [hentry] at hnone
    dsimp only at hnone
    split_ifs at hnone with htrusted
    · cases hnone
    · omega
  constructor
  · intro i j f g hij hf hg
    have hi : i < s.fetches.length := by
      have hj := (List.getElem?_eq_some_iff.mp hg).1
      simp only [Pool.fetch, List.length_append, List.length_singleton] at hj
      omega
    simp only [Pool.fetch] at hf hg
    rw [List.getElem?_append_left hi] at hf
    by_cases hj : j < s.fetches.length
    · rw [List.getElem?_append_left hj] at hg
      exact h.spaced i j f g hij hf hg
    · rw [List.getElem?_append_right (by omega)] at hg
      obtain rfl := List.mem_singleton.mp (List.mem_of_getElem? hg)
      have hmem := List.mem_of_getElem? hf
      refine ⟨h.past f hmem, ?_⟩
      intro pid hpid hmiss
      exact hmissed f hmem pid hpid (List.mem_filter.mp hmiss).2
  · intro f hf
    rcases List.mem_append.mp hf with hf | hf
    · exact h.past f hf
    · obtain rfl := List.mem_singleton.mp hf
      exact le_refl _
  · intro k f hk hnone
    simp only [Pool.fetch, List.length_append, List.length_singleton] at hk ⊢
    by_cases hlt : k < s.fetches.length
    · rw [List.getElem?_append_left hlt] at hk
      have hreturned := halone f (List.mem_of_getElem? hk)
      rw [hnone] at hreturned
      cases hreturned
    · have hbound := (List.getElem?_eq_some_iff.mp hk).1
      rw [List.length_append, List.length_singleton] at hbound
      omega
  · intro f hf hreturned pid hpid
    rcases List.mem_append.mp hf with hf | hf
    · exact h.cached f hf hreturned pid hpid
    · obtain rfl := List.mem_singleton.mp hf
      dsimp only at hreturned hpid
      split_ifs at hreturned with hmisses
      · rw [hmisses] at hpid
        exact absurd hpid List.not_mem_nil
      · cases hreturned

omit [DecidableEq PeerId] in
theorem Pool.Spaced.replace {s : Pool F PeerId} (h : s.Spaced p) {k : ℕ} {f f' : Fetch F PeerId}
    (cache : PeerId → Option (CachedPeer F)) (probes : List (Probe PeerId))
    (hk : s.fetches[k]? = some f) (hnow : f'.now = f.now) (hmisses : f'.misses = f.misses)
    (hreturned : f'.returned = none → f.returned = none)
    (hcached : ∀ g, (g = f' ∨ g ∈ s.fetches) → g.returned.isSome → ∀ pid ∈ g.misses,
      ∃ entry, cache pid = some entry ∧ g.now ≤ entry.time) :
    Pool.Spaced p ⟨s.clock,cache,s.fetches.set k f',probes⟩ := by
  have hsame : ∀ (i : ℕ) (g : Fetch F PeerId), (s.fetches.set k f')[i]? = some g →
      ∃ g', s.fetches[i]? = some g' ∧ g.now = g'.now ∧ g.misses = g'.misses ∧
        (g.returned = none → g'.returned = none) := by
    intro i g hg
    rcases getElem_set hk hg with ⟨rfl, rfl⟩ | ⟨-, hg⟩
    · exact ⟨f,hk,hnow,hmisses,hreturned⟩
    · exact ⟨g,hg,rfl,rfl,id⟩
  constructor
  · intro i j a b hij ha hb
    obtain ⟨a', ha', hanow, hamisses, -⟩ := hsame i a ha
    obtain ⟨b', hb', hbnow, hbmisses, -⟩ := hsame j b hb
    rw [hanow, hbnow, hamisses, hbmisses]
    exact h.spaced i j a' b' hij ha' hb'
  · intro g hg
    obtain ⟨i, hi⟩ := List.mem_iff_getElem?.mp hg
    obtain ⟨g', hg', hgnow, -, -⟩ := hsame i g hi
    rw [hgnow]
    exact h.past g' (List.mem_of_getElem? hg')
  · intro i g hi hnone
    obtain ⟨g', hg', -, -, hg'none⟩ := hsame i g hi
    rw [List.length_set]
    exact h.last i g' hg' (hg'none hnone)
  · intro g hg
    exact hcached g ((List.mem_or_eq_of_mem_set hg).symm)

theorem Pool.Spaced.send {s : Pool F PeerId} (h : s.Spaced p) (k : ℕ) (pid : PeerId) :
    (s.send k pid).Spaced p := by
  unfold Pool.send
  cases hk : s.fetches[k]? with
  | none => exact h
  | some f =>
    dsimp only
    split_ifs with hmiss
    · apply h.replace s.cache s.probes hk
      · rfl
      · rfl
      · exact id
      · rintro g (rfl | hg)
        · exact h.cached f (List.mem_of_getElem? hk)
        · exact h.cached g hg
    · exact h

theorem Pool.Spaced.receive {s : Pool F PeerId} (h : s.Spaced p) (k : ℕ) (pid : PeerId)
    (reply : Except GoError HealthzReply) :
    (s.receive fl string unmarshalHealthz k pid reply).Spaced p := by
  unfold Pool.receive
  cases hk : s.fetches[k]? with
  | none => exact h
  | some f =>
    dsimp only
    cases f.sent pid with
    | none => exact h
    | some sent =>
      cases f.results pid with
      | some r => exact h
      | none =>
        dsimp only
        apply h.replace s.cache _ hk
        · rfl
        · rfl
        · exact id
        · rintro g (rfl | hg)
          · exact h.cached f (List.mem_of_getElem? hk)
          · exact h.cached g hg

/-- The call that ends is the last to have begun, so no entry gets an earlier time. -/
theorem Pool.Spaced.collect {s : Pool F PeerId} (h : s.Spaced p) (k : ℕ) (order : List PeerId) :
    (s.collect k order).Spaced p := by
  unfold Pool.collect
  cases hk : s.fetches[k]? with
  | none => exact h
  | some f =>
    dsimp only
    split_ifs with hready
    · obtain ⟨hnone, hperm, hall⟩ := hready
      rw [List.isPerm_iff] at hperm
      have hlatest : ∀ g ∈ s.fetches, g.now ≤ f.now := by
        intro g hg
        obtain ⟨i, hi⟩ := List.mem_iff_getElem?.mp hg
        have hlast := h.last k f hk hnone
        have hbound := (List.getElem?_eq_some_iff.mp hi).1
        by_cases hik : i = k
        · rw [hik, hk] at hi
          cases hi
          exact le_refl _
        · exact (h.spaced i k g f (by omega) hi hk).1
      apply h.replace _ s.probes hk
      · rfl
      · rfl
      · exact nofun
      · intro g hg hreturned pid hpid
        have hgnow : g.now ≤ f.now := by
          rcases hg with rfl | hg
          · exact le_refl _
          · exact hlatest g hg
        by_cases horder : pid ∈ order
        · obtain ⟨r, hr⟩ := Option.isSome_iff_exists.mp (hall pid (hperm.subset horder))
          refine ⟨⟨r.1,f.now,r.2⟩, ?_, hgnow⟩
          simp only [hr, if_pos horder]
        · have hold : (match f.results pid with
              | some r => if pid ∈ order then some ⟨r.1,f.now,r.2⟩ else s.cache pid
              | none => s.cache pid) = s.cache pid := by
            cases f.results pid with
            | none => rfl
            | some r => exact if_neg horder
          rw [hold]
          rcases hg with rfl | hg
          · exact absurd (hperm.symm.subset hpid) horder
          · exact h.cached g hg hreturned pid hpid
    · exact h

theorem Pool.Spaced.next {s : Pool F PeerId} (h : s.Spaced p) (e : PoolEvent PeerId)
    (he : Alone s e) : (s.next fl string unmarshalHealthz p e).Spaced p := by
  cases e with
  | fetch elapsed connected => exact (h.pass elapsed).fetch he connected
  | send elapsed k pid => exact (h.pass elapsed).send k pid
  | receive elapsed k pid reply => exact (h.pass elapsed).receive k pid reply
  | collect elapsed k order => exact (h.pass elapsed).collect k order

/-- As long as calls do not overlap, two that probe the same peer begin a TTL apart. -/
theorem probes_spaced (events : List (PoolEvent PeerId))
    (halone : Along (Pool.next fl string unmarshalHealthz p) Alone Pool.start events)
    (i j : ℕ) (hij : i < j) (f g : Fetch F PeerId) :
    let s := run (Pool.next fl string unmarshalHealthz p) Pool.start events
    s.fetches[i]? = some f → s.fetches[j]? = some g →
      ∀ pid ∈ f.misses, pid ∈ g.misses → f.now+p.ttl ≤ g.now := by
  intro s hf hg
  have hspaced : s.Spaced p := by
    apply along_invariant (Pool.next fl string unmarshalHealthz p) Alone (Pool.Spaced p)
    · exact fun t e ht he => ht.next e he
    · exact ⟨nofun,nofun,nofun,nofun⟩
    · exact halone
  exact (hspaced.spaced i j f g hij hf hg).2

section Samples

def seededPeer : PoolFetcher Bytes := newPoolFetcher [0] [[1]] 0

def sampleHealthz (_ : Bytes) : Except GoError (HealthzWire ℤ) :=
  .ok ⟨ascii "BR-SP",none,none,some 2⟩

def askedTwice (elapsed : ℕ) : List (PoolEvent Bytes) :=
  [.fetch 0 [[1],[0]], .send 1 0 [1], .receive 2 0 [1] (.ok ⟨200,.ok []⟩), .collect 3 0 [[1]],
    .fetch elapsed [[1]]]

def samplePool (elapsed : ℕ) : Pool ℤ Bytes :=
  run (Pool.next wholeFloat64 id sampleHealthz seededPeer) Pool.start (askedTwice elapsed)

theorem fetch_trusted_cached : ∃ f cs, (samplePool 10).fetches[1]? = some f ∧
    f.returned = some cs ∧ cs.map Candidate.peerID = [[1]] ∧
    ∃ order : List Bytes, List.Forall₂ (fun pid c => ∃ probe,
      Exchanged (askedTwice 10) probe ∧ probe.peer = pid ∧
      Told wholeFloat64 id sampleHealthz probe c ∧
      (f.now < probe.sent+seededPeer.ttl ∨ f.now ≤ probe.sent)) order cs := by
  have hreturned : ((samplePool 10).fetches[1]?.bind Fetch.returned).map
      (List.map Candidate.peerID) = some [[1]] := by decide +kernel
  obtain ⟨cs, hcs, hids⟩ := Option.map_eq_some_iff.mp hreturned
  obtain ⟨f, hf, hcs⟩ := Option.bind_eq_some_iff.mp hcs
  obtain ⟨order, -, -, htrusted⟩ := fetch_trusted (askedTwice 10) 1 f cs hf hcs
  exact ⟨f,cs,hf,hcs,hids,order,htrusted⟩

theorem probes_spaced_again : ∃ f g, (samplePool 60000000000).fetches[0]? = some f ∧
    (samplePool 60000000000).fetches[1]? = some g ∧ f.now+seededPeer.ttl ≤ g.now := by
  have hfirst : ((samplePool 60000000000).fetches[0]?.map Fetch.misses) = some [[1]] := by
    decide +kernel
  have hsecond : ((samplePool 60000000000).fetches[1]?.map Fetch.misses) = some [[1]] := by
    decide +kernel
  obtain ⟨f, hf, hfmiss⟩ := Option.map_eq_some_iff.mp hfirst
  obtain ⟨g, hg, hgmiss⟩ := Option.map_eq_some_iff.mp hsecond
  refine ⟨f, g, hf, hg, ?_⟩
  apply probes_spaced (askedTwice 60000000000) (by decide +kernel) 0 1 (by omega) f g hf hg [1]
  · rw [hfmiss]
    exact List.mem_singleton.mpr rfl
  · rw [hgmiss]
    exact List.mem_singleton.mpr rfl

end Samples

end Spacing

end Aevia.Mirror
