import Aevia.Foundation.Sha256
import Aevia.Provider.Manifest
import Mathlib.Data.List.Infix

/-!
# Resolution of live sessions

Two copies of the walk over the relays: one stops at the first registered provider
of five that a relay names, the other collects those of ten. A relay that names its
first registered provider sixth, or later, is left by the one and not by the other.
-/

set_option autoImplicit false

namespace Aevia.Mesh
open Aevia.Bytes Aevia.Manifests

structure ResolvedProvider where
  peerId : Bytes
  httpsBase : Bytes
  multiaddrs : List Bytes
  resolvedVia : Bytes
  deriving DecidableEq

structure ProviderRecord where
  peer_id : Bytes
  multiaddrs : Option (List Bytes)

/-- What a relay answers. The request, its abort or the reading of the body throws,
or the status is not ok, or the body has a list of providers, or none. An entry that
is null throws when it is looked into. -/
inductive Response where
  | throws
  | notOk
  | body (providers : Option (List (Option ProviderRecord)))

/-- A relay cuts its own list to the limit, or answers otherwise whatever the limit is. -/
inductive Relay where
  | lists (providers : List (Option ProviderRecord))
  | fails (response : Response) (h : ∀ providers, response ≠ .body (some providers))

def Relay.resolve : Relay → ℕ → Response
  | .lists providers, limit => .body (some (providers.take limit))
  | .fails response _, _ => response

structure ResolveOptions where
  relayUrls : List Bytes
  peerRegistry : Bytes → Option Bytes

def sessionIdToCid (sessionId : Bytes) : Except Bytes Bytes :=
  if sessionId = [] then .error (ascii "sessionIdToCid: empty sessionId")
  else .ok (cidText (Sha256.sha256 sessionId))

def stripTrailingSlash (s : Bytes) : Bytes := s.rdropWhile (· == 47)

def endpoint (relay : Bytes) : Bytes := stripTrailingSlash relay++ascii "/dht/resolve"

section Hits
variable {α β : Type} (f g : α → Option β)

/-- Where the other search has its first hit, this one has a hit too. -/
def HitsFirst (l : List α) : Prop :=
  ∀ before a after, l = before++a::after → (∀ r ∈ before, g r = none) → g a ≠ none → f a ≠ none

theorem hitsFirst_cons_none (a : α) (l : List α) (ha : g a = none) :
    HitsFirst f g (a::l) ↔ HitsFirst f g l := by
  constructor
  · intro h before b after hl hbefore
    refine h (a::before) b after (by rw [hl]; rfl) ?_
    exact List.forall_mem_cons.mpr ⟨ha,hbefore⟩
  · rintro h (_ | ⟨c, before⟩) b after hl hbefore hb
    · cases hl
      exact (hb ha).elim
    · cases hl
      exact h before b after rfl (fun r hr => hbefore r (List.mem_cons_of_mem _ hr)) hb

theorem hitsFirst_cons_some (a : α) (l : List α) (b : β) (ha : g a = some b) :
    HitsFirst f g (a::l) ↔ f a ≠ none := by
  have hne : g a ≠ none := by
    rw [ha]
    nofun
  constructor
  · exact fun h => h [] a l rfl nofun hne
  · rintro hhit (_ | ⟨c, before⟩) d after hl hbefore -
    · cases hl
      exact hhit
    · cases hl
      exact (hne (hbefore a List.mem_cons_self)).elim

/-- A search that finds no more, and tells where it has found what, finds the same exactly
if it does not miss the first hit of the other. -/
theorem findSome_eq_iff (tag : β → α) (hle : ∀ a b, f a = some b → g a = some b)
    (htag : ∀ a b, g a = some b → tag b = a) (l : List α) :
    l.findSome? f = l.findSome? g ↔ HitsFirst f g l := by
  induction l with
  | nil => exact ⟨fun _ before a after hl => by simp at hl,fun _ => rfl⟩
  | cons a l ih =>
    rw [List.findSome?_cons, List.findSome?_cons]
    cases hg : g a with
    | none =>
      have hf : f a = none := by
        cases hf : f a with
        | none => rfl
        | some b => cases hg.symm.trans (hle a b hf)
      rw [hf, hitsFirst_cons_none f g a l hg]
      exact ih
    | some b =>
      rw [hitsFirst_cons_some f g a l b hg]
      cases hf : f a with
      | some c =>
        obtain rfl : c = b := Option.some.inj ((hle a c hf).symm.trans hg)
        exact ⟨fun _ => nofun,fun _ => rfl⟩
      | none =>
        refine ⟨fun hfound => ?_, fun h => (h rfl).elim⟩
        obtain ⟨-, c, -, -, hc, -⟩ := List.findSome?_eq_some_iff.mp hfound
        -- what is found elsewhere says where it was found
        obtain rfl : c = a := (htag c b (hle c b hc)).symm.trans (htag a b hg)
        cases hc.symm.trans hf

end Hits

section Resolve
variable (relayAt : (url cid : Bytes) → Relay) (opts : ResolveOptions) (cid : Bytes)

/-- The base URL of a peer; an empty one counts as none. -/
def registered (peerId : Bytes) : Option Bytes := (opts.peerRegistry peerId).filter (· ≠ [])

def resolvedProvider (relay : Bytes) (p : ProviderRecord) (httpsBase : Bytes) : ResolvedProvider :=
  ⟨p.peer_id, httpsBase, p.multiaddrs.getD [], relay⟩

/-- The inner loop of `resolveSessionProvider`. -/
def firstProvider (relay : Bytes) : List (Option ProviderRecord) → Option ResolvedProvider
  | [] => none
  | none::_ => none
  | some p::rest =>
    match registered opts p.peer_id with
    | none => firstProvider relay rest
    | some httpsBase => some (resolvedProvider relay p httpsBase)

def tryRelays : List Bytes → Option ResolvedProvider
  | [] => none
  | relay::relays =>
    match (relayAt (endpoint relay) cid).resolve 5 with
    | .throws => tryRelays relays
    | .notOk => tryRelays relays
    | .body none => tryRelays relays
    | .body (some providers) =>
      match firstProvider opts relay providers with
      | none => tryRelays relays
      | some provider => some provider

def resolveSessionProvider (sessionId : Bytes) : Except Bytes (Option ResolvedProvider) :=
  if opts.relayUrls = [] then .ok none
  else (sessionIdToCid sessionId).map fun cid => tryRelays relayAt opts cid opts.relayUrls

structure Collected where
  seen : List Bytes
  out : List ResolvedProvider

/-- The inner loop of `resolveSessionProviders`, and whether it ended without an error. -/
def collectProviders (relay : Bytes) : Collected → List (Option ProviderRecord) → Collected × Bool
  | s, [] => (s, true)
  | s, none::_ => (s, false)
  | s, some p::rest =>
    if s.seen.contains p.peer_id then collectProviders relay s rest
    else
      match registered opts p.peer_id with
      | none => collectProviders relay s rest
      | some httpsBase => collectProviders relay
          ⟨p.peer_id::s.seen, s.out++[resolvedProvider relay p httpsBase]⟩ rest

def collectRelays : Collected → List Bytes → List ResolvedProvider
  | s, [] => s.out
  | s, relay::relays =>
    match (relayAt (endpoint relay) cid).resolve 10 with
    | .throws => collectRelays s relays
    | .notOk => collectRelays s relays
    | .body none => collectRelays s relays
    | .body (some providers) =>
      match collectProviders opts relay s providers with
      | (s, true) => if 0 < s.out.length then s.out else collectRelays s relays
      | (s, false) => collectRelays s relays

def resolveSessionProviders (sessionId : Bytes) : Except Bytes (List ResolvedProvider) :=
  if opts.relayUrls = [] then .ok []
  else (sessionIdToCid sessionId).map fun cid =>
    collectRelays relayAt opts cid ⟨[], []⟩ opts.relayUrls

def firstNamed (limit : ℕ) (relay : Bytes) : Option ResolvedProvider :=
  match (relayAt (endpoint relay) cid).resolve limit with
  | .body (some providers) => firstProvider opts relay providers
  | _ => none

theorem tryRelays_eq (relays : List Bytes) :
    tryRelays relayAt opts cid relays = relays.findSome? (firstNamed relayAt opts cid 5) := by
  induction relays with
  | nil => rfl
  | cons relay relays ih =>
    rw [tryRelays, List.findSome?_cons, firstNamed]
    cases (relayAt (endpoint relay) cid).resolve 5 with
    | throws => exact ih
    | notOk => exact ih
    | body providers =>
      cases providers with
      | none => exact ih
      | some providers =>
        cases hfirst : firstProvider opts relay providers with
        | none =>
          simp only [hfirst]
          exact ih
        | some provider => simp only [hfirst]

theorem collectProviders_stays (relay : Bytes) (s : Collected)
    (providers : List (Option ProviderRecord)) :
    s.out <+: (collectProviders opts relay s providers).1.out := by
  induction providers generalizing s with
  | nil => exact List.prefix_refl _
  | cons p rest ih =>
    cases p with
    | none => exact List.prefix_refl _
    | some p =>
      rw [collectProviders]
      split_ifs
      · exact ih s
      · cases registered opts p.peer_id with
        | none => exact ih s
        | some httpsBase =>
          exact (List.prefix_append _ [resolvedProvider relay p httpsBase]).trans
            (ih ⟨p.peer_id::s.seen, s.out++[resolvedProvider relay p httpsBase]⟩)

/-- Collecting from nothing, the first provider is the one the other walk stops at, and
without one nothing is remembered. -/
theorem collectProviders_first (relay : Bytes) (providers : List (Option ProviderRecord)) :
    (collectProviders opts relay ⟨[], []⟩ providers).1.out.head? =
        firstProvider opts relay providers ∧
      (firstProvider opts relay providers = none →
        (collectProviders opts relay ⟨[], []⟩ providers).1 = ⟨[], []⟩) := by
  induction providers with
  | nil => exact ⟨rfl,fun _ => rfl⟩
  | cons p rest ih =>
    cases p with
    | none => exact ⟨rfl,fun _ => rfl⟩
    | some p =>
      rw [collectProviders, firstProvider, if_neg (by nofun)]
      cases registered opts p.peer_id with
      | none => exact ih
      | some httpsBase =>
        obtain ⟨more, hmore⟩ := collectProviders_stays opts relay
          ⟨[p.peer_id], [resolvedProvider relay p httpsBase]⟩ rest
        refine ⟨?_, nofun⟩
        show (collectProviders opts relay ⟨[p.peer_id], [resolvedProvider relay p httpsBase]⟩
          rest).1.out.head? = _
        rw [← hmore]
        rfl

theorem collectRelays_stays (s : Collected) (relays : List Bytes) :
    s.out <+: collectRelays relayAt opts cid s relays := by
  induction relays generalizing s with
  | nil => exact List.prefix_refl _
  | cons relay relays ih =>
    rw [collectRelays]
    cases (relayAt (endpoint relay) cid).resolve 10 with
    | throws => exact ih s
    | notOk => exact ih s
    | body providers =>
      cases providers with
      | none => exact ih s
      | some providers =>
        have hstays := collectProviders_stays opts relay s providers
        dsimp only
        split
        · next s' hcollected =>
          rw [hcollected] at hstays
          split_ifs
          · exact hstays
          · exact hstays.trans (ih s')
        · next s' hcollected =>
          rw [hcollected] at hstays
          exact hstays.trans (ih s')

theorem collectRelays_head (relays : List Bytes) :
    (collectRelays relayAt opts cid ⟨[], []⟩ relays).head? =
      relays.findSome? (firstNamed relayAt opts cid 10) := by
  induction relays with
  | nil => rfl
  | cons relay relays ih =>
    rw [collectRelays, List.findSome?_cons, firstNamed]
    cases (relayAt (endpoint relay) cid).resolve 10 with
    | throws => exact ih
    | notOk => exact ih
    | body providers =>
      cases providers with
      | none => exact ih
      | some providers =>
        obtain ⟨hhead, hnothing⟩ := collectProviders_first opts relay providers
        cases hfirst : firstProvider opts relay providers with
        | none =>
          simp only [hfirst]
          rw [← ih]
          split
          · next s' hcollected =>
            obtain rfl : s' = ⟨[], []⟩ := by rw [← hnothing hfirst, hcollected]
            rfl
          · next s' hcollected =>
            obtain rfl : s' = ⟨[], []⟩ := by rw [← hnothing hfirst, hcollected]
            rfl
        | some provider =>
          simp only [hfirst]
          rw [hfirst] at hhead
          split
          · next s' hcollected =>
            rw [hcollected] at hhead
            rw [if_pos (List.length_pos_iff.mpr (List.ne_nil_of_mem (List.mem_of_mem_head? hhead)))]
            exact hhead
          · next s' hcollected =>
            rw [hcollected] at hhead
            obtain ⟨more, hmore⟩ := collectRelays_stays relayAt opts cid s' relays
            rw [← hmore, List.head?_append, hhead]
            rfl

/-- A relay names a registered provider within a limit, and no null entry before it. -/
def Names (limit : ℕ) (relay : Bytes) : Prop :=
  ∃ before p after, relayAt (endpoint relay) cid = .lists (before++some p::after) ∧
    before.length < limit ∧ none ∉ before ∧ registered opts p.peer_id ≠ none

/-- The first relay that names a registered provider among its first ten names one among
its first five. -/
def FirstFive : Prop :=
  ∀ before relay after, opts.relayUrls = before++relay::after →
    (∀ r ∈ before, ¬ Names relayAt opts cid 10 r) → Names relayAt opts cid 10 relay →
      Names relayAt opts cid 5 relay

theorem firstProvider_some (relay : Bytes) (providers : List (Option ProviderRecord))
    (found : ResolvedProvider) (h : firstProvider opts relay providers = some found) :
    ∃ before p after httpsBase, providers = before++some p::after ∧
      found = resolvedProvider relay p httpsBase ∧
      ∀ more, firstProvider opts relay (before++some p::more) = some found := by
  induction providers with
  | nil => cases h
  | cons p rest ih =>
    cases p with
    | none => cases h
    | some p =>
      rw [firstProvider] at h
      cases hbase : registered opts p.peer_id with
      | none =>
        rw [hbase] at h
        obtain ⟨before, q, after, httpsBase, rfl, hfound, hmore⟩ := ih h
        refine ⟨some p::before,q,after,httpsBase,rfl,hfound,fun more => ?_⟩
        rw [List.cons_append, firstProvider, hbase]
        exact hmore more
      | some httpsBase =>
        rw [hbase] at h
        refine ⟨[],p,rest,httpsBase,rfl,(Option.some.inj h).symm,fun more => ?_⟩
        rw [List.nil_append, firstProvider, hbase]
        exact h

theorem firstProvider_append (relay : Bytes) (providers more : List (Option ProviderRecord))
    (found : ResolvedProvider) (h : firstProvider opts relay providers = some found) :
    firstProvider opts relay (providers++more) = some found := by
  obtain ⟨before, p, after, httpsBase, rfl, -, hmore⟩ := firstProvider_some opts relay _ _ h
  rw [List.append_assoc, List.cons_append]
  exact hmore _

theorem firstProvider_via (relay : Bytes) (providers : List (Option ProviderRecord))
    (found : ResolvedProvider) (h : firstProvider opts relay providers = some found) :
    found.resolvedVia = relay := by
  obtain ⟨before, p, after, httpsBase, -, rfl, -⟩ := firstProvider_some opts relay _ _ h
  rfl

theorem firstProvider_take (relay : Bytes) (providers : List (Option ProviderRecord)) (limit : ℕ) :
    firstProvider opts relay (providers.take limit) ≠ none ↔
      ∃ before p after, providers = before++some p::after ∧ before.length < limit ∧
        none ∉ before ∧ registered opts p.peer_id ≠ none := by
  induction providers generalizing limit with
  | nil => simp [firstProvider]
  | cons q rest ih =>
    cases limit with
    | zero => simp [firstProvider]
    | succ limit =>
      rw [List.take_succ_cons]
      cases q with
      | none =>
        refine iff_of_false (not_not.mpr rfl) ?_
        rintro ⟨_ | ⟨b, before⟩, p, after, hl, -, hnone, -⟩
        · cases hl
        · cases hl
          exact hnone List.mem_cons_self
      | some q =>
        rw [firstProvider]
        cases hbase : registered opts q.peer_id with
        | some httpsBase =>
          exact iff_of_true nofun ⟨[],q,rest,rfl,Nat.succ_pos _,List.not_mem_nil,by rw [hbase]; nofun⟩
        | none =>
          refine (ih limit).trans ⟨?_, ?_⟩
          · rintro ⟨before, p, after, rfl, hlen, hnone, hp⟩
            exact ⟨some q::before,p,after,rfl,Nat.succ_lt_succ hlen,by simp [hnone],hp⟩
          · rintro ⟨_ | ⟨b, before⟩, p, after, hl, hlen, hnone, hp⟩
            · cases hl
              exact (hp hbase).elim
            · cases hl
              exact ⟨before,p,after,rfl,Nat.lt_of_succ_lt_succ hlen,
                fun h => hnone (List.mem_cons_of_mem _ h),hp⟩

theorem names_iff (limit : ℕ) (relay : Bytes) :
    Names relayAt opts cid limit relay ↔ firstNamed relayAt opts cid limit relay ≠ none := by
  unfold Names firstNamed
  cases relayAt (endpoint relay) cid with
  | fails response hresponse =>
    refine iff_of_false (by rintro ⟨_, _, _, h, -⟩; cases h) (not_not.mpr ?_)
    match response, hresponse with
    | .throws, _ => rfl
    | .notOk, _ => rfl
    | .body none, _ => rfl
    | .body (some providers), hresponse => exact (hresponse providers rfl).elim
  | lists providers =>
    simp only [Relay.resolve, firstProvider_take, Relay.lists.injEq]

theorem firstNamed_more (relay : Bytes) (found : ResolvedProvider)
    (h : firstNamed relayAt opts cid 5 relay = some found) :
    firstNamed relayAt opts cid 10 relay = some found := by
  unfold firstNamed at h ⊢
  cases hrelay : relayAt (endpoint relay) cid with
  | fails response hresponse =>
    rw [hrelay] at h
    exact h
  | lists providers =>
    rw [hrelay] at h
    rw [Relay.resolve, show 10 = 5+5 from rfl, List.take_add]
    exact firstProvider_append opts relay _ _ found h

theorem firstNamed_via (limit : ℕ) (relay : Bytes) (found : ResolvedProvider)
    (h : firstNamed relayAt opts cid limit relay = some found) : found.resolvedVia = relay := by
  unfold firstNamed at h
  split at h
  · exact firstProvider_via opts relay _ found h
  · cases h

theorem firstFive_iff : FirstFive relayAt opts cid ↔
    HitsFirst (firstNamed relayAt opts cid 5) (firstNamed relayAt opts cid 10) opts.relayUrls := by
  simp only [FirstFive, HitsFirst, names_iff, not_not]

/-- The singular resolution gives the first provider of the plural one exactly if the first
relay that names a registered provider among its first ten names one among its first five. -/
theorem resolveSessionProvider_exact (sessionId : Bytes) :
    resolveSessionProvider relayAt opts sessionId =
        (resolveSessionProviders relayAt opts sessionId).map List.head? ↔
      ∀ cid, sessionIdToCid sessionId = .ok cid → FirstFive relayAt opts cid := by
  unfold resolveSessionProvider resolveSessionProviders
  split_ifs with hempty
  · refine iff_of_true rfl ?_
    intro cid _ before relay after hurls
    rw [hempty] at hurls
    simp at hurls
  · cases hcid : sessionIdToCid sessionId with
    | error e => exact iff_of_true rfl nofun
    | ok cid =>
      simp only [Except.map, Except.ok.injEq, forall_eq', tryRelays_eq, collectRelays_head,
        firstFive_iff]
      exact findSome_eq_iff _ _ ResolvedProvider.resolvedVia (firstNamed_more relayAt opts cid)
        (firstNamed_via relayAt opts cid 10) opts.relayUrls

end Resolve

section Samples

def sixthRegistered : Relay :=
  .lists ((List.range 6).map fun i => some ⟨ascii "peer-"++[UInt8.ofNat (48+i)], none⟩)

theorem sixth_provider_missed :
    let opts : ResolveOptions := ⟨[ascii "https://relay.example"],
      fun peerId => if peerId = ascii "peer-5" then some (ascii "https://p.example") else none⟩
    ¬ resolveSessionProvider (fun _ _ => sixthRegistered) opts (ascii "session") =
      (resolveSessionProviders (fun _ _ => sixthRegistered) opts (ascii "session")).map List.head? := by
  decide

end Samples

end Aevia.Mesh
