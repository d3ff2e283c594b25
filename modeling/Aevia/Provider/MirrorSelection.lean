import Aevia.Foundation.KeyValue
import Aevia.Provider.Ranker

/-!
# Selection of mirrors

The adapter merges the static pool, the fetched pool and the metrics of the
client by peer id, hands them to the HTTP layer in whole milliseconds and ranks
what comes back, by the viewer's region alone. Cooling peers are dropped before
the ranking, ids that do not decode after the cut.
-/

set_option autoImplicit false

namespace Aevia.Mirror
open Aevia.Bytes Aevia.KeyValue Aevia.Ranking

structure MirrorCandidate (F : Type) where
  peerID : Bytes
  httpsBase : Bytes
  region : Bytes
  lat : F
  lng : F
  latLngKnown : Bool
  rttEMAMs : F
  activeSessions : ℤ
  probeLossPct : F
  inCooldown : Bool
  bootstrapRTTMs : F

structure ScoredMirrorCandidate (F : Type) where
  candidate : MirrorCandidate F
  score : F
  rttTerm : F
  loadTerm : F
  regionTerm : F
  rttSource : RTTSource

/-- What the adapter reads of a peer's metrics. -/
structure HopMetrics where
  echoEMA : Duration
  probeCount : ℤ
  probeLoss : ℕ

/-- What the adapter reads of the client at one request. -/
structure Client (PeerId : Type) where
  peerMetrics : List (PeerId × HopMetrics)
  inCooldown : PeerId → Bool

structure PeerCodec (PeerId : Type) where
  decode : Bytes → Option PeerId
  string : PeerId → Bytes

structure RankerAdapter (F PeerId : Type) where
  client : Option (Client PeerId)
  ranker : Ranker F
  staticPool : List (Candidate F)
  poolFetcher : Option (List (Candidate F))

section Conversion
variable {F : Type} (fl : Float64 F)

def candidateToHTTPX (c : Candidate F) : MirrorCandidate F where
  peerID := c.peerID
  httpsBase := c.httpsBase
  region := c.region
  lat := c.lat
  lng := c.lng
  latLngKnown := c.latLngKnown
  rttEMAMs := fl.ofInt c.rttEMA.milliseconds
  activeSessions := c.activeSessions
  probeLossPct := c.probeLossPct
  inCooldown := c.inCooldown
  bootstrapRTTMs := fl.ofInt c.bootstrapRTT.milliseconds

def timeDurationFromMs (ms : F) : Duration := fl.toInt (fl.mul ms (fl.ofInt 1000000))

def candidateFromHTTPX (c : MirrorCandidate F) : Candidate F where
  peerID := c.peerID
  httpsBase := c.httpsBase
  region := c.region
  lat := c.lat
  lng := c.lng
  latLngKnown := c.latLngKnown
  rttEMA := timeDurationFromMs fl c.rttEMAMs
  activeSessions := c.activeSessions
  probeLossPct := c.probeLossPct
  inCooldown := c.inCooldown
  bootstrapRTT := timeDurationFromMs fl c.bootstrapRTTMs

def Candidate.converted (c : Candidate F) : Candidate F :=
  candidateFromHTTPX fl (candidateToHTTPX fl c)

end Conversion

section Adapter
variable {F PeerId : Type} [LinearOrder F] (fl : Float64 F) (codec : PeerCodec PeerId)

def addCandidate (byID : Map Bytes (Candidate F)) (c : Candidate F) : Map Bytes (Candidate F) :=
  byID.put c.peerID c

def emptyCandidate : Candidate F where
  peerID := []
  httpsBase := []
  region := []
  lat := fl.ofInt 0
  lng := fl.ofInt 0
  latLngKnown := false
  rttEMA := 0
  activeSessions := 0
  probeLossPct := fl.ofInt 0
  inCooldown := false
  bootstrapRTT := 0

def enrich (byID : Map Bytes (Candidate F)) (m : PeerId × HopMetrics) : Map Bytes (Candidate F) :=
  let pid := codec.string m.1
  let c := (byID.get pid).getD (emptyCandidate fl)
  let c := { c with peerID := pid, rttEMA := m.2.echoEMA }
  let totalLoss := fl.ofInt m.2.probeLoss
  let total := fl.add (fl.ofInt m.2.probeCount) totalLoss
  let c := if 0 < m.2.probeCount ∧ fl.ofInt 0 < total then
      { c with probeLossPct := fl.mul (fl.div totalLoss total) (fl.ofInt 100) }
    else c
  byID.put pid c

namespace RankerAdapter
variable (a : RankerAdapter F PeerId)

def merged : Map Bytes (Candidate F) :=
  let byID := a.staticPool.foldl addCandidate Map.empty
  let byID := (a.poolFetcher.getD []).foldl addCandidate byID
  ((a.client.map Client.peerMetrics).getD []).foldl (enrich fl codec) byID

def tagged (e : Bytes × Candidate F) : Candidate F :=
  match a.client, codec.decode e.1 with
  | some client, some pid => { e.2 with inCooldown := client.inCooldown pid }
  | _, _ => e.2

/-- `entries` is the merged pool as the range over the map meets it. -/
def candidateSnapshot (entries : List (Bytes × Candidate F)) : List (MirrorCandidate F) :=
  entries.map (fun e => candidateToHTTPX fl (a.tagged codec e))

def score (candidates : List (MirrorCandidate F)) (viewerRegion : Bytes) :
    List (ScoredMirrorCandidate F) :=
  (a.ranker.rank fl (candidates.map (candidateFromHTTPX fl))
    ⟨viewerRegion, fl.ofInt 0, fl.ofInt 0⟩).map (fun s =>
      ⟨candidateToHTTPX fl s.candidate, s.score, s.rttTerm, s.loadTerm, s.regionTerm, s.rttSource⟩)

def cooling (text : Bytes) : Bool :=
  match a.client, codec.decode text with
  | some client, some pid => client.inCooldown pid
  | _, _ => false

def selectTopK (entries : List (Bytes × Candidate F)) (hint : ViewerHint F) (k : ℤ) :
    List PeerId :=
  let k := if k ≤ 0 then 3 else k
  let cands := (a.candidateSnapshot fl codec entries).filter (fun c => !a.cooling codec c.peerID)
  let scored := (a.score fl cands hint.region).take k.toNat
  scored.filterMap (fun s => codec.decode s.candidate.peerID)

def pool : List (Candidate F) := (a.merged fl codec).entries.map Prod.snd

def eligible : List (Candidate F) :=
  (a.pool fl codec).filter (fun c =>
    (codec.decode c.peerID).isSome && !a.cooling codec c.peerID)

/-- The selection is the first `k` of the ranking with the whole hint, whatever order
the map is met in. -/
def SelectsFirst (hint : ViewerHint F) (k : ℤ) : Prop :=
  ∀ entries : List (Bytes × Candidate F), entries.Perm (a.merged fl codec).entries →
    a.selectTopK fl codec entries hint k =
      ((a.ranker.rank fl (a.eligible fl codec) hint).take k.toNat).filterMap
        (fun s => codec.decode s.candidate.peerID) ∧
    (a.selectTopK fl codec entries hint k).length =
      min k.toNat (a.eligible fl codec).length ∧
    (a.selectTopK fl codec entries hint k).Nodup

def SelectsRanking (hint : ViewerHint F) : Prop := ∀ k, 0 < k → a.SelectsFirst fl codec hint k

/-- A candidate as `SelectTopK` scores it: converted, and for the region alone. -/
def reduced (hint : ViewerHint F) (c : Candidate F) : ScoredCandidate F :=
  a.ranker.scored fl ⟨hint.region, fl.ofInt 0, fl.ofInt 0⟩ (c.converted fl)

def reducedBefore (hint : ViewerHint F) (c d : Candidate F) : Bool :=
  (a.reduced fl hint c).before (a.reduced fl hint d)

def rankedBefore (hint : ViewerHint F) (c d : Candidate F) : Bool :=
  (a.ranker.scored fl hint c).before (a.ranker.scored fl hint d)

def waiting : List (Candidate F) :=
  (a.pool fl codec).filter (fun c => !a.cooling codec c.peerID)

def OneTextPerPeer : Prop :=
  ∀ c ∈ a.eligible fl codec, ∀ d ∈ a.eligible fl codec,
    codec.decode c.peerID = codec.decode d.peerID → c = d

structure RanksAlike (hint : ViewerHint F) : Prop where
  undecodable_last : ∀ u ∈ a.pool fl codec, codec.decode u.peerID = none →
    ∀ c ∈ a.eligible fl codec, a.reducedBefore fl hint c u = true
  order : ∀ c ∈ a.eligible fl codec, ∀ d ∈ a.eligible fl codec,
    a.rankedBefore fl hint c d = true → a.reducedBefore fl hint c d = true
  distinct : a.OneTextPerPeer fl codec

structure RanksFirstAlike (hint : ViewerHint F) (k : ℤ) : Prop where
  undecodable_free : ∀ u ∈ a.pool fl codec, codec.decode u.peerID = none →
    place (a.reducedBefore fl hint) (a.waiting fl codec) u < k →
    ∀ c ∈ a.eligible fl codec, place (a.reducedBefore fl hint) (a.waiting fl codec) c < k
  order : ∀ c ∈ a.eligible fl codec,
    place (a.rankedBefore fl hint) (a.eligible fl codec) c < k → ∀ d ∈ a.eligible fl codec,
      a.rankedBefore fl hint c d = true → a.reducedBefore fl hint c d = true

section Pool

def Keyed (byID : Map Bytes (Candidate F)) : Prop :=
  ∀ text c, byID.get text = some c → c.peerID = text

omit [LinearOrder F] in
theorem keyed_put (byID : Map Bytes (Candidate F)) (h : Keyed byID) (text : Bytes)
    (c : Candidate F) (hc : c.peerID = text) : Keyed (byID.put text c) := by
  intro text' c' hget
  rw [Map.get_put] at hget
  split_ifs at hget with htext
  · rw [← Option.some.inj hget, hc, htext]
  · exact h text' c' hget

omit [LinearOrder F] in
theorem keyed_foldl {α : Type} (step : Map Bytes (Candidate F) → α → Map Bytes (Candidate F))
    (hstep : ∀ byID x, Keyed byID → Keyed (step byID x)) (xs : List α)
    (byID : Map Bytes (Candidate F)) (h : Keyed byID) : Keyed (xs.foldl step byID) := by
  induction xs generalizing byID with
  | nil => exact h
  | cons x xs ih => exact ih _ (hstep byID x h)

theorem merged_keyed : Keyed (a.merged fl codec) := by
  have hadd : ∀ (byID : Map Bytes (Candidate F)) c, Keyed byID → Keyed (addCandidate byID c) :=
    fun byID c h => keyed_put byID h _ c rfl
  refine keyed_foldl _ (fun byID m h => ?_) _ _
    (keyed_foldl _ hadd _ _ (keyed_foldl _ hadd _ _ (fun _ _ h => by cases h)))
  refine keyed_put byID h _ _ ?_
  dsimp only
  split_ifs <;> rfl

theorem pool_nodup : ((a.pool fl codec).map Candidate.peerID).Nodup := by
  have hkeys : (a.pool fl codec).map Candidate.peerID = (a.merged fl codec).keys := by
    rw [pool, List.map_map]
    refine List.map_congr_left (fun e he => ?_)
    exact a.merged_keyed fl codec e.1 e.2 ((Map.mem_entries _ _ _).mp he)
  rw [hkeys]
  exact (a.merged fl codec).keys_nodup

theorem waiting_nodup : ((a.waiting fl codec).map Candidate.peerID).Nodup :=
  (a.pool_nodup fl codec).sublist (List.filter_sublist.map _)

theorem usable_waiting :
    usable (fun c => codec.decode c.peerID) (a.waiting fl codec) = a.eligible fl codec := by
  rw [usable, waiting, List.filter_filter, eligible]

end Pool

section Selection
variable (hint : ViewerHint F)

theorem before_tagged (e e' : Bytes × Candidate F) :
    (a.reduced fl hint (a.tagged codec e)).before (a.reduced fl hint (a.tagged codec e')) =
      (a.reduced fl hint e.2).before (a.reduced fl hint e'.2) := by
  have hscore : ∀ e : Bytes × Candidate F,
      (a.reduced fl hint (a.tagged codec e)).score = (a.reduced fl hint e.2).score ∧
      (a.reduced fl hint (a.tagged codec e)).candidate.peerID =
        (a.reduced fl hint e.2).candidate.peerID := by
    intro e
    unfold tagged
    split <;> exact ⟨rfl,rfl⟩
  simp only [ScoredCandidate.before, hscore]

omit [LinearOrder F] in
theorem tagged_peerID (e : Bytes × Candidate F) : (a.tagged codec e).peerID = e.2.peerID := by
  unfold tagged
  split <;> rfl

theorem rank_tagged (kept : List (Bytes × Candidate F)) :
    a.ranker.rank fl (kept.map (fun e => (a.tagged codec e).converted fl))
        ⟨hint.region, fl.ofInt 0, fl.ofInt 0⟩ =
      (sliceStable (fun e e' => a.reducedBefore fl hint e.2 e'.2) kept).map
        (fun e => a.reduced fl hint (a.tagged codec e)) := by
  have hbefore : ∀ e e' : Bytes × Candidate F, a.reducedBefore fl hint e.2 e'.2 =
      (a.reduced fl hint (a.tagged codec e)).before (a.reduced fl hint (a.tagged codec e')) := by
    intro e e'
    rw [before_tagged, reducedBefore]
  rw [map_sliceStable _ ScoredCandidate.before _ hbefore, Ranker.rank, List.map_map]
  exact congrArg (sliceStable ScoredCandidate.before) (List.map_congr_left (fun _ _ => rfl))

theorem sort_entries (entries : List (Bytes × Candidate F))
    (hentries : entries.Perm (a.merged fl codec).entries) :
    (sliceStable (fun e e' => a.reducedBefore fl hint e.2 e'.2)
        (entries.filter (fun e => !a.cooling codec e.2.peerID))).map Prod.snd =
      sliceStable (a.reducedBefore fl hint) (a.waiting fl codec) := by
  rw [map_sliceStable _ (a.reducedBefore fl hint) Prod.snd (fun _ _ => rfl)]
  refine sliceStable_of_perm _ (fun c => (a.reduced fl hint c).key) (fun c d => before_byKey _ _) _
    (key_nodup _ (fun _ => rfl) _ (a.waiting_nodup fl codec)) _ ?_
  rw [waiting, pool, List.filter_map]
  exact (hentries.filter _).map Prod.snd

omit [LinearOrder F] in
theorem snapshot_kept (entries : List (Bytes × Candidate F)) :
    ((a.candidateSnapshot fl codec entries).filter
        (fun c => !a.cooling codec c.peerID)).map (candidateFromHTTPX fl) =
      (entries.filter (fun e => !a.cooling codec e.2.peerID)).map
        (fun e => (a.tagged codec e).converted fl) := by
  have hids : ((fun c : MirrorCandidate F => !a.cooling codec c.peerID) ∘
      fun e => candidateToHTTPX fl (a.tagged codec e)) = fun e => !a.cooling codec e.2.peerID := by
    funext e
    show (!a.cooling codec (a.tagged codec e).peerID) = _
    rw [tagged_peerID]
  rw [candidateSnapshot, List.filter_map, List.map_map, hids]
  rfl

/-- `SelectTopK` ranks what is not cooling down by the reduced scores, cuts, and
drops what does not decode. -/
theorem selectTopK_eq (entries : List (Bytes × Candidate F))
    (hentries : entries.Perm (a.merged fl codec).entries) (k : ℤ) (hk : 0 < k) :
    a.selectTopK fl codec entries hint k =
      ((sliceStable (a.reducedBefore fl hint) (a.waiting fl codec)).take k.toNat).filterMap
        (fun c => codec.decode c.peerID) := by
  rw [selectTopK, if_neg (by omega), score, snapshot_kept, rank_tagged, List.map_map,
    ← a.sort_entries fl codec hint entries hentries, ← List.map_take, ← List.map_take,
    List.filterMap_map, List.filterMap_map]
  refine List.filterMap_congr (fun e _ => ?_)
  show codec.decode (a.tagged codec e).peerID = codec.decode e.2.peerID
  rw [tagged_peerID]

omit [LinearOrder F] in
/-- A text that does not decode is never cooling down. -/
theorem undecodable_waits (text : Bytes) (h : codec.decode text = none) :
    (!a.cooling codec text) = true := by
  unfold cooling
  rw [h]
  cases a.client <;> rfl

theorem rank_take (k : ℕ) :
    ((a.ranker.rank fl (a.eligible fl codec) hint).take k).filterMap
        (fun s => codec.decode s.candidate.peerID) =
      ((sliceStable (a.rankedBefore fl hint)
        (usable (fun c => codec.decode c.peerID) (a.waiting fl codec))).take k).filterMap
          (fun c => codec.decode c.peerID) := by
  rw [usable_waiting, Ranker.rank_eq, ← List.map_take, List.filterMap_map]
  rfl

theorem ranked_byKey : ByKey (a.rankedBefore fl hint) (fun c => (a.ranker.scored fl hint c).key) :=
  fun _ _ => before_byKey _ _

theorem reduced_byKey : ByKey (a.reducedBefore fl hint) (fun c => (a.reduced fl hint c).key) :=
  fun _ _ => before_byKey _ _

theorem ranked_nodup :
    ((a.waiting fl codec).map (fun c => (a.ranker.scored fl hint c).key)).Nodup :=
  key_nodup _ (fun _ => rfl) _ (a.waiting_nodup fl codec)

theorem reduced_nodup : ((a.waiting fl codec).map (fun c => (a.reduced fl hint c).key)).Nodup :=
  key_nodup _ (fun _ => rfl) _ (a.waiting_nodup fl codec)

theorem selectsFirst_iff (k : ℤ) (hk : 0 < k) : a.SelectsFirst fl codec hint k ↔
    SelectsAlike (fun c : Candidate F => codec.decode c.peerID) (a.rankedBefore fl hint)
      (a.reducedBefore fl hint) (a.waiting fl codec) k.toNat ∧
    (((sliceStable (a.reducedBefore fl hint) (a.waiting fl codec)).take k.toNat).filterMap
      (fun c => codec.decode c.peerID)).Nodup := by
  constructor
  · intro h
    have hfirst := h (a.merged fl codec).entries (List.Perm.refl _)
    rw [a.selectTopK_eq fl codec hint _ (List.Perm.refl _) k hk, rank_take] at hfirst
    exact ⟨hfirst.1,hfirst.2.2⟩
  · rintro ⟨hsame, hnodup⟩ entries hentries
    rw [a.selectTopK_eq fl codec hint entries hentries k hk, rank_take]
    refine ⟨hsame, ?_, hnodup⟩
    rw [hsame, length_take_usable _ _ _ _ (by omega), usable_waiting]

theorem mem_eligible (c : Candidate F) : c ∈ a.eligible fl codec ↔
    c ∈ a.waiting fl codec ∧ (codec.decode c.peerID).isSome := by
  rw [← usable_waiting]
  exact mem_usable _ _ c

theorem mem_waiting (u : Candidate F) (h : codec.decode u.peerID = none) :
    u ∈ a.waiting fl codec ↔ u ∈ a.pool fl codec := by
  rw [waiting, List.mem_filter]
  exact and_iff_left (a.undecodable_waits codec u.peerID h)

theorem ranksAlike_iff : a.RanksAlike fl codec hint ↔
    (∀ u ∈ a.waiting fl codec, codec.decode u.peerID = none → ∀ c ∈ a.waiting fl codec,
      (codec.decode c.peerID).isSome → (a.reduced fl hint c).key < (a.reduced fl hint u).key) ∧
    (∀ c ∈ a.eligible fl codec, ∀ d ∈ a.eligible fl codec,
      (a.ranker.scored fl hint c).key < (a.ranker.scored fl hint d).key →
        (a.reduced fl hint c).key < (a.reduced fl hint d).key) ∧
    a.OneTextPerPeer fl codec := by
  simp only [← a.ranked_byKey fl hint _ _, ← a.reduced_byKey fl hint _ _]
  constructor
  · rintro ⟨hlast, horder, hdistinct⟩
    refine ⟨fun u hu hnone c hc hsome => ?_, horder, hdistinct⟩
    exact hlast u ((a.mem_waiting fl codec u hnone).mp hu) hnone c
      ((a.mem_eligible fl codec c).mpr ⟨hc,hsome⟩)
  · rintro ⟨hlast, horder, hdistinct⟩
    refine ⟨fun u hu hnone c hc => ?_, horder, hdistinct⟩
    obtain ⟨hwaits, hsome⟩ := (a.mem_eligible fl codec c).mp hc
    exact hlast u ((a.mem_waiting fl codec u hnone).mpr hu) hnone c hwaits hsome

theorem selectsRanking_iff : a.SelectsRanking fl codec hint ↔ a.RanksAlike fl codec hint := by
  have hexact := selection_exact (fun c : Candidate F => codec.decode c.peerID)
    _ _ (a.ranked_byKey fl hint) _ _ (a.reduced_byKey fl hint) (a.waiting fl codec)
    (a.ranked_nodup fl codec hint) (a.reduced_nodup fl codec hint)
  rw [usable_waiting] at hexact
  rw [ranksAlike_iff]
  refine Iff.trans ?_ hexact
  constructor
  · intro h k hk
    have hfirst := (a.selectsFirst_iff fl codec hint k (by omega)).mp (h k (by omega))
    rwa [Int.toNat_natCast] at hfirst
  · exact fun h k hk => (a.selectsFirst_iff fl codec hint k hk).mpr (h k.toNat (by omega))

theorem taken_nodup (hids : a.OneTextPerPeer fl codec) (k : ℕ) :
    (((sliceStable (a.reducedBefore fl hint) (a.waiting fl codec)).take k).filterMap
      (fun c => codec.decode c.peerID)).Nodup := by
  have hmem : ∀ c ∈ (sliceStable (a.reducedBefore fl hint) (a.waiting fl codec)).take k,
      ∀ pid, codec.decode c.peerID = some pid → c ∈ a.eligible fl codec := by
    intro c hc pid hpid
    refine (a.mem_eligible fl codec c).mpr ⟨?_, Option.isSome_iff_exists.mpr ⟨pid,hpid⟩⟩
    exact (mem_sliceStable _ _ c).mp (List.mem_of_mem_take hc)
  have htaken : ((sliceStable (a.reducedBefore fl hint) (a.waiting fl codec)).take k).Nodup :=
    ((sliceStable_perm _ _).nodup_iff.mpr ((a.waiting_nodup fl codec).of_map _)).sublist
      (List.take_sublist _ _)
  refine List.pairwise_filterMap.mpr (htaken.imp_of_mem ?_)
  rintro c d hc hd hne pid hpid _ hpid' rfl
  exact hne (hids c (hmem c hc pid hpid) d (hmem d hd pid hpid') (hpid.trans hpid'.symm))

theorem selectTopK_nodup (hids : a.OneTextPerPeer fl codec) (entries : List (Bytes × Candidate F))
    (hentries : entries.Perm (a.merged fl codec).entries) (k : ℤ) :
    (a.selectTopK fl codec entries hint k).Nodup := by
  rcases lt_or_ge 0 k with hk | hk
  · rw [a.selectTopK_eq fl codec hint entries hentries k hk]
    exact a.taken_nodup fl codec hint hids _
  · have hdefault : a.selectTopK fl codec entries hint k = a.selectTopK fl codec entries hint 3 := by
      simp only [selectTopK, if_pos hk]
      rfl
    rw [hdefault, a.selectTopK_eq fl codec hint entries hentries 3 (by decide)]
    exact a.taken_nodup fl codec hint hids _

theorem selectsFirst_exact (k : ℤ) (hk : 0 < k) (hids : a.OneTextPerPeer fl codec) :
    a.SelectsFirst fl codec hint k ↔ a.RanksFirstAlike fl codec hint k := by
  have hexact := selection_exact_at (fun c : Candidate F => codec.decode c.peerID)
    _ _ (a.ranked_byKey fl hint) _ _ (a.reduced_byKey fl hint) (a.waiting fl codec)
    (a.ranked_nodup fl codec hint) (a.reduced_nodup fl codec hint) k.toNat (by omega)
    (by rw [usable_waiting]; exact hids)
  have htoNat : ∀ n : ℕ, n < k.toNat ↔ (n : ℤ) < k := by omega
  rw [selectsFirst_iff fl codec a hint k hk, and_iff_left (a.taken_nodup fl codec hint hids _),
    hexact, usable_waiting]
  simp only [htoNat, ← a.ranked_byKey fl hint _ _, ← a.reduced_byKey fl hint _ _]
  constructor
  · rintro ⟨hfree, horder⟩
    exact ⟨fun u hu hnone => hfree u ((a.mem_waiting fl codec u hnone).mpr hu) hnone,horder⟩
  · rintro ⟨hfree, horder⟩
    exact ⟨fun u hu hnone => hfree u ((a.mem_waiting fl codec u hnone).mp hu) hnone,horder⟩

/-- The selection follows the ranking at every length if and only if the pool ranks
alike for the reduced scores. At one length, where no two eligible candidates are of
one peer, it does so if and only if no undecodable one costs a place and the first of
the ranking come first for the reduced scores too. -/
theorem selectTopK_exact : (a.SelectsRanking fl codec hint ↔ a.RanksAlike fl codec hint) ∧
    ∀ k, 0 < k → a.OneTextPerPeer fl codec →
      (a.SelectsFirst fl codec hint k ↔ a.RanksFirstAlike fl codec hint k) :=
  ⟨a.selectsRanking_iff fl codec hint,a.selectsFirst_exact fl codec hint⟩

end Selection

section Losses

/-- A duration that the way through whole milliseconds leaves positive or not, and
as long in milliseconds. -/
def Kept (d : Duration) : Prop :=
  (0 < timeDurationFromMs fl (fl.ofInt d.milliseconds) ↔ 0 < d) ∧
  (timeDurationFromMs fl (fl.ofInt d.milliseconds)).milliseconds = d.milliseconds

omit [LinearOrder F] in
/-- Where the product of milliseconds is exact only a positive fraction of a
millisecond is lost. -/
theorem kept_of_exact (d : ℤ)
    (h : timeDurationFromMs fl (fl.ofInt (d.tdiv 1000000)) = d.tdiv 1000000*1000000)
    (hd : d ≤ 0 ∨ 1000000 ≤ d) : Kept fl d := by
  have hsign : 0 < d.tdiv 1000000 ↔ 0 < d := by
    rcases hd with hd | hd
    · have hle := Int.tdiv_nonneg (show 0 ≤ -d by omega) (show (0 : ℤ) ≤ 1000000 by decide)
      rw [Int.neg_tdiv] at hle
      omega
    · rw [Int.tdiv_eq_ediv_of_nonneg (by omega)]
      omega
  refine ⟨?_, ?_⟩
  · show 0 < timeDurationFromMs fl (fl.ofInt (d.tdiv 1000000)) ↔ 0 < d
    have hscaled : 0 < d.tdiv 1000000*1000000 ↔ 0 < d.tdiv 1000000 := by omega
    rw [h]
    exact hscaled.trans hsign
  · show (timeDurationFromMs fl (fl.ofInt (d.tdiv 1000000))).tdiv 1000000 = d.tdiv 1000000
    rw [h]
    exact Int.mul_tdiv_cancel _ (by decide)

omit [LinearOrder F] in
theorem effectiveRTTMs_converted (c : Candidate F) (lat lng : F) (known : Bool)
    (hecho : Kept fl c.rttEMA) (hbootstrap : Kept fl c.bootstrapRTT) :
    effectiveRTTMs fl (c.converted fl) lat lng known = effectiveRTTMs fl c lat lng known := by
  have hrtt : (0 < (c.converted fl).rttEMA ↔ 0 < c.rttEMA) ∧
      (c.converted fl).rttEMA.milliseconds = c.rttEMA.milliseconds := hecho
  have hboot : (0 < (c.converted fl).bootstrapRTT ↔ 0 < c.bootstrapRTT) ∧
      (c.converted fl).bootstrapRTT.milliseconds = c.bootstrapRTT.milliseconds := hbootstrap
  simp only [effectiveRTTMs, hrtt, hboot]
  rfl

/-- Without coordinates in the hint, and with round trips that are kept, nothing is
lost of the ranking. -/
theorem order_of_kept (hint : ViewerHint F)
    (hgeo : hint.lat = fl.ofInt 0 ∧ hint.lng = fl.ofInt 0)
    (hkept : ∀ c ∈ a.eligible fl codec, Kept fl c.rttEMA ∧ Kept fl c.bootstrapRTT) :
    ∀ c ∈ a.eligible fl codec, ∀ d ∈ a.eligible fl codec,
      a.rankedBefore fl hint c d = true → a.reducedBefore fl hint c d = true := by
  have hscore : ∀ c ∈ a.eligible fl codec,
      (a.reduced fl hint c).score = (a.ranker.scored fl hint c).score := by
    intro c hc
    obtain ⟨region, lat, lng⟩ := hint
    obtain ⟨rfl, rfl⟩ := hgeo
    simp only [reduced, Ranker.scored,
      effectiveRTTMs_converted fl c _ _ _ (hkept c hc).1 (hkept c hc).2]
    rfl
  intro c hc d hd hbefore
  rw [reducedBefore, ScoredCandidate.before, hscore c hc, hscore d hd]
  exact hbefore

/-- A hint without coordinates, round trips of at least a millisecond or none, exact
products, and texts that decode to different peers are enough. -/
theorem ranksAlike_of_exact (hint : ViewerHint F)
    (hgeo : hint.lat = fl.ofInt 0 ∧ hint.lng = fl.ofInt 0)
    (hexact : ∀ c ∈ a.eligible fl codec, ∀ d ∈ [c.rttEMA, c.bootstrapRTT],
      timeDurationFromMs fl (fl.ofInt (d.tdiv 1000000)) = d.tdiv 1000000*1000000 ∧
        (d ≤ 0 ∨ 1000000 ≤ d))
    (hdecodes : ∀ c ∈ a.pool fl codec, (codec.decode c.peerID).isSome)
    (hdistinct : a.OneTextPerPeer fl codec) : a.RanksAlike fl codec hint := by
  have hkept : ∀ c ∈ a.eligible fl codec, Kept fl c.rttEMA ∧ Kept fl c.bootstrapRTT := by
    intro c hc
    have hrtt := hexact c hc c.rttEMA (by simp)
    have hboot := hexact c hc c.bootstrapRTT (by simp)
    exact ⟨kept_of_exact fl _ hrtt.1 hrtt.2,kept_of_exact fl _ hboot.1 hboot.2⟩
  refine ⟨fun u hu hnone _ _ => ?_, a.order_of_kept fl codec hint hgeo hkept, hdistinct⟩
  have hsome := hdecodes u hu
  rw [hnone] at hsome
  cases hsome

end Losses

end RankerAdapter

end Adapter

section Samples

def wholeFloat64 : Float64 ℤ where
  ofInt := id
  toInt := id
  add := fun x y => x+y
  sub := fun x y => x-y
  mul := fun x y => x*y
  div := fun x y => x/y
  sin := id
  cos := id
  sqrt := id
  atan2 := fun x _ => x
  pi := 3

def nearPeer : Bytes := ascii "12D3KooWSvprtPXxXHEASpKux1vLyxWpBRYTps39GQrTEpccMjyh"
def farPeer : Bytes := ascii "12D3KooWEs9TrvY9Bq59bqLAYxZ3yWJpw33CAggDJ6YpekNvQXSS"

def textCodec : PeerCodec Bytes := ⟨fun text =>
  if text = nearPeer ∨ text = farPeer then some text else none, id⟩

def samplePeer (peerID : Bytes) (rttEMA : Duration) : Candidate ℤ :=
  { emptyCandidate wholeFloat64 with peerID := peerID, region := ascii "US-VA", rttEMA := rttEMA }

def nearAndFar : RankerAdapter ℤ Bytes where
  client := none
  ranker := newRanker wholeFloat64 (defaultWeights wholeFloat64) (ascii "US-VA") 0 0 false
  staticPool := [samplePeer nearPeer 500000, samplePeer farPeer 10000000]
  poolFetcher := none

/-- The near peer counts as one that was never measured. -/
theorem nearest_peer_passed_over :
    ¬ nearAndFar.SelectsFirst wholeFloat64 textCodec ⟨ascii "US-VA", 0, 0⟩ 1 := by
  intro h
  have hfirst := (h _ (List.Perm.refl _)).1
  revert hfirst
  decide +kernel

end Samples

end Aevia.Mirror
