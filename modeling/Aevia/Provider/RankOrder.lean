import Aevia.Provider.MirrorSelection

/-!
# Order of a ranking

Peer ids are distinct, so score and id together leave one sorted order: a ranking
forgets the order in which its candidates came. A selection ranges over two maps,
the metrics of the client and the merged pool, and forgets the order of both.
-/

set_option autoImplicit false

namespace Aevia.Mirror
open Aevia.Bytes Aevia.KeyValue Aevia.Ranking

section Rank
variable {F : Type} [LinearOrder F] (fl : Float64 F) (r : Ranker F) (hint : ViewerHint F)

theorem Ranker.rank_perm (cs : List (Candidate F)) :
    (r.rank fl cs hint).Perm (cs.map (r.scored fl hint)) :=
  sliceStable_perm _ _

theorem Ranker.rank_candidates (cs : List (Candidate F)) :
    ((r.rank fl cs hint).map ScoredCandidate.candidate).Perm cs := by
  have hmap := (r.rank_perm fl hint cs).map ScoredCandidate.candidate
  rw [List.map_map] at hmap
  exact hmap.trans (List.Perm.of_eq (List.map_id cs))

variable (cs : List (Candidate F)) (hids : (cs.map Candidate.peerID).Nodup)

include hids in
theorem Ranker.scored_nodup :
    ((cs.map (r.scored fl hint)).map (ScoredCandidate.key : ScoredCandidate F → F ×ₗ Bytes)).Nodup := by
  rw [List.map_map]
  exact key_nodup (r.scored fl hint) (fun _ => rfl) cs hids

include hids in
theorem Ranker.rank_sorted :
    (r.rank fl cs hint).Pairwise (fun s t => s.score < t.score ∨
      s.score = t.score ∧ s.candidate.peerID < t.candidate.peerID) := by
  have hstrict := (pairwise_sliceStable _ _ before_byKey _ (r.scored_nodup fl hint cs hids)
    (fun s t => s.key < t.key)).mpr (fun _ _ _ _ h => h)
  exact hstrict.imp (fun h => Prod.Lex.toLex_lt_toLex.mp h)

include hids in
theorem Ranker.rank_of_perm (cs' : List (Candidate F)) (hperm : cs'.Perm cs) :
    r.rank fl cs' hint = r.rank fl cs hint :=
  sliceStable_of_perm _ _ before_byKey _ (r.scored_nodup fl hint cs hids) _
    (hperm.map (r.scored fl hint))

end Rank

section Adapter
variable {F PeerId : Type} [LinearOrder F] (fl : Float64 F) (codec : PeerCodec PeerId)

theorem enrich_get (byID : Map Bytes (Candidate F)) (m : PeerId × HopMetrics) (text : Bytes)
    (h : text ≠ codec.string m.1) : (enrich fl codec byID m).get text = byID.get text := by
  simp only [enrich, Map.get_put]
  rw [if_neg h]

theorem enrich_of_get (m : PeerId × HopMetrics) (byID byID' : Map Bytes (Candidate F))
    (h : byID'.get (codec.string m.1) = byID.get (codec.string m.1)) :
    ∃ c, enrich fl codec byID m = byID.put (codec.string m.1) c ∧
      enrich fl codec byID' m = byID'.put (codec.string m.1) c := by
  refine ⟨_, rfl, ?_⟩
  simp only [enrich, h]

theorem enrich_comm (byID : Map Bytes (Candidate F)) (m n : PeerId × HopMetrics)
    (h : codec.string m.1 ≠ codec.string n.1) :
    enrich fl codec (enrich fl codec byID m) n = enrich fl codec (enrich fl codec byID n) m := by
  obtain ⟨c, hc, hc'⟩ := enrich_of_get fl codec m byID (enrich fl codec byID n)
    (enrich_get fl codec byID n _ h)
  obtain ⟨d, hd, hd'⟩ := enrich_of_get fl codec n byID (enrich fl codec byID m)
    (enrich_get fl codec byID m _ h.symm)
  rw [hc', hd', hc, hd, Map.put_comm _ _ _ h]

theorem enrich_perm (metrics metrics' : List (PeerId × HopMetrics)) (hperm : metrics.Perm metrics')
    (hstring : Function.Injective codec.string) (hpeers : (metrics.map Prod.fst).Nodup)
    (byID : Map Bytes (Candidate F)) :
    metrics.foldl (enrich fl codec) byID = metrics'.foldl (enrich fl codec) byID := by
  refine hperm.foldl_eq' (fun m hm n hn byID => ?_) byID
  by_cases h : codec.string m.1 = codec.string n.1
  · rw [List.inj_on_of_nodup_map hpeers hm hn (hstring h)]
  · exact enrich_comm fl codec byID m n h

namespace RankerAdapter
variable (a : RankerAdapter F PeerId)

def metrics : List (PeerId × HopMetrics) := (a.client.map Client.peerMetrics).getD []

def reordered (metrics : List (PeerId × HopMetrics)) : RankerAdapter F PeerId :=
  { a with client := a.client.map (fun c => { c with peerMetrics := metrics }) }

variable (metrics : List (PeerId × HopMetrics)) (hmetrics : metrics.Perm a.metrics)
  (hstring : Function.Injective codec.string) (hpeers : (a.metrics.map Prod.fst).Nodup)

include hmetrics hstring hpeers in
theorem merged_reordered : (a.reordered metrics).merged fl codec = a.merged fl codec := by
  obtain ⟨client, ranker, staticPool, poolFetcher⟩ := a
  cases client with
  | none => rfl
  | some client => exact (enrich_perm fl codec _ _ hmetrics.symm hstring hpeers _).symm

omit [LinearOrder F] in
theorem cooling_reordered (text : Bytes) :
    (a.reordered metrics).cooling codec text = a.cooling codec text := by
  obtain ⟨client, ranker, staticPool, poolFetcher⟩ := a
  cases client with
  | none => rfl
  | some client =>
    unfold cooling
    cases codec.decode text <;> rfl

/-- The first `k` of the one order in which what waits is sorted. -/
theorem selectTopK_sorted (entries : List (Bytes × Candidate F))
    (hentries : entries.Perm (a.merged fl codec).entries) (hint : ViewerHint F) (k : ℤ) :
    a.selectTopK fl codec entries hint k =
      ((sliceStable (a.reducedBefore fl hint) (a.waiting fl codec)).take
        (if k ≤ 0 then 3 else k).toNat).filterMap (fun c => codec.decode c.peerID) := by
  have hdefault : a.selectTopK fl codec entries hint k =
      a.selectTopK fl codec entries hint (if k ≤ 0 then 3 else k) := by
    simp only [selectTopK]
    split_ifs <;> rfl
  rw [hdefault]
  exact a.selectTopK_eq fl codec hint entries hentries _ (by split_ifs <;> omega)

include hmetrics hstring hpeers in
theorem selectTopK_reordered (entries entries' : List (Bytes × Candidate F))
    (hentries : entries.Perm (a.merged fl codec).entries)
    (hentries' : entries'.Perm ((a.reordered metrics).merged fl codec).entries)
    (hint : ViewerHint F) (k : ℤ) :
    (a.reordered metrics).selectTopK fl codec entries' hint k =
      a.selectTopK fl codec entries hint k := by
  have hmerged := a.merged_reordered fl codec metrics hmetrics hstring hpeers
  have hwaiting : (a.reordered metrics).waiting fl codec = a.waiting fl codec := by
    simp only [waiting, pool, hmerged, cooling_reordered]
  rw [selectTopK_sorted fl codec _ entries' hentries', hwaiting,
    selectTopK_sorted fl codec a entries hentries]
  rfl

end RankerAdapter

/-- A ranking is its input, scored and in the order of score and peer id, whatever
order the input came in; so is the selection, whatever order the client's metrics and
the merged pool are met in. -/
theorem rank_order_independent (hstring : Function.Injective codec.string) :
    (∀ (r : Ranker F) (hint : ViewerHint F) (cs : List (Candidate F)),
      (cs.map Candidate.peerID).Nodup →
        ((r.rank fl cs hint).map ScoredCandidate.candidate).Perm cs ∧
        (∀ s ∈ r.rank fl cs hint, s = r.scored fl hint s.candidate) ∧
        (r.rank fl cs hint).Pairwise (fun s t => s.score < t.score ∨
          s.score = t.score ∧ s.candidate.peerID < t.candidate.peerID) ∧
        ∀ cs', cs'.Perm cs → r.rank fl cs' hint = r.rank fl cs hint) ∧
    ∀ (a : RankerAdapter F PeerId) (metrics : List (PeerId × HopMetrics))
      (entries entries' : List (Bytes × Candidate F)) (hint : ViewerHint F) (k : ℤ),
      (a.metrics.map Prod.fst).Nodup → metrics.Perm a.metrics →
      entries.Perm (a.merged fl codec).entries →
      entries'.Perm ((a.reordered metrics).merged fl codec).entries →
        (a.reordered metrics).selectTopK fl codec entries' hint k =
          a.selectTopK fl codec entries hint k := by
  constructor
  · intro r hint cs hids
    refine ⟨r.rank_candidates fl hint cs, ?_, r.rank_sorted fl hint cs hids,
      r.rank_of_perm fl hint cs hids⟩
    intro s hs
    obtain ⟨c, -, rfl⟩ := List.mem_map.mp ((r.rank_perm fl hint cs).mem_iff.mp hs)
    rfl
  · intro a metrics entries entries' hint k hpeers hmetrics hentries hentries'
    exact a.selectTopK_reordered fl codec metrics hmetrics hstring hpeers entries entries'
      hentries hentries' hint k

end Adapter

section Samples

def measuredAlike : RankerAdapter ℤ Bytes where
  client := some ⟨[(nearPeer, ⟨5000000, 1, 0⟩), (farPeer, ⟨5000000, 1, 0⟩)], fun _ => false⟩
  ranker := newRanker wholeFloat64 (defaultWeights wholeFloat64) (ascii "US-VA") 0 0 false
  staticPool := []
  poolFetcher := none

theorem rank_order_independent_reversed :
    measuredAlike.ranker.rank wholeFloat64 [samplePeer farPeer 0, samplePeer nearPeer 0] ⟨[], 0, 0⟩ =
      measuredAlike.ranker.rank wholeFloat64 [samplePeer nearPeer 0, samplePeer farPeer 0] ⟨[], 0, 0⟩ ∧
    (measuredAlike.reordered measuredAlike.metrics.reverse).selectTopK wholeFloat64 textCodec
        ((measuredAlike.reordered measuredAlike.metrics.reverse).merged wholeFloat64
          textCodec).entries.reverse ⟨[], 0, 0⟩ 1 =
      measuredAlike.selectTopK wholeFloat64 textCodec
        (measuredAlike.merged wholeFloat64 textCodec).entries ⟨[], 0, 0⟩ 1 := by
  obtain ⟨hrank, hselect⟩ := rank_order_independent wholeFloat64 textCodec Function.injective_id
  refine ⟨?_, ?_⟩
  · exact (hrank _ _ _ (by decide +kernel)).2.2.2 _ (List.Perm.swap _ _ _)
  · exact hselect measuredAlike _ _ _ _ 1 (by decide +kernel) (List.reverse_perm _)
      (List.Perm.refl _) (List.reverse_perm _)

end Samples

end Aevia.Mirror
