import Aevia.Provider.LiveRoutes

/-!
# Playlists of a moving session

Calls of the sink come between the reads of a playlist. Segments and parts only
accumulate, so what was listed stays; a manifest read at the end covers more than
was listed if a segment was taken between the snapshot and the finalisation.
-/

set_option autoImplicit false

namespace Aevia.Whip
open Aevia.Bytes Aevia.Content Aevia.Fallible Aevia.GoError Aevia.Manifests Aevia.PinStore
open Aevia.Run Aevia.Storage

/-- A call of the sink, or what the other users of the store make of it. -/
inductive SinkEvent where
  | onInitSegment (bytes : Bytes)
  | onMediaSegment (index : UInt32) (bytes : Bytes)
  | onMediaPart (segIdx partIdx : UInt32) (bytes : Bytes) (durationT : UInt32) (independent : Bool)
  | finalize (segmentDurationSecs : Int64) (fault : Option GoError)
  | stored (store : Database)

def LiveSession.taken (l : LiveSession) : Except GoError LivePinSink → LiveSession
  | .ok sink => { l with pipeline := { l.pipeline with sink := sink } }
  | .error _ => l

variable (q : Quota)

def sinkNext (l : LiveSession) : SinkEvent → LiveSession
  | .onInitSegment bytes => l.taken (l.pipeline.sink.onInitSegment bytes)
  | .onMediaSegment index bytes => l.taken (l.pipeline.sink.onMediaSegment index bytes)
  | .onMediaPart segIdx partIdx bytes durationT independent =>
    l.taken (l.pipeline.sink.onMediaPart segIdx partIdx bytes durationT independent)
  | .finalize segmentDurationSecs fault => (l.finalize q segmentDurationSecs fault).1
  | .stored store => { l with store := store }

def Accepts (l : LiveSession) : SinkEvent → Prop
  | .onMediaSegment index _ => UInt32.ofNat l.pipeline.sink.leaves.length = index
  | _ => False

def Concludes (l : LiveSession) (segmentDurationSecs : Int64) (fault : Option GoError) : Prop :=
  l.finalized = none ∧ (l.finalize q segmentDurationSecs fault).2.isOk = true

def Undisturbed (l : LiveSession) (events : List SinkEvent) : Prop :=
  ∀ before segmentDurationSecs fault, before++[.finalize segmentDurationSecs fault] <+: events →
    Concludes q (run (sinkNext q) l before) segmentDurationSecs fault →
    Along (sinkNext q) (fun l e => ¬ Accepts l e) l before

/-- What a playlist names is served, and where it says it is at its end it names all
segments of the manifest. -/
structure Complete (p : LivePlaylist) (atManifest later : LiveSession) : Prop where
  segments : ∀ uri ∈ p.segments, (serveLive later uri).status = statusOK
  parts : ∀ tag ∈ p.parts, (serveLive later tag.uri).status = statusOK
  ended : p.ended = true → ∀ m, atManifest.finalized = some m →
    ∀ i : ℕ, (i : ℤ) < m.segmentCount.toInt → segmentTag p.sessionID i ∈ p.segments

section Growth

structure Grown (l l' : LiveSession) : Prop where
  sessionID : l'.sessionID = l.sessionID
  segments : l.pipeline.sink.segments <+: l'.pipeline.sink.segments
  parts : ∀ segIdx, l.pipeline.sink.parts segIdx <+: l'.pipeline.sink.parts segIdx

theorem Grown.refl (l : LiveSession) : Grown l l :=
  ⟨rfl,List.prefix_refl _,fun _ => List.prefix_refl _⟩

theorem Grown.trans (l l' l'' : LiveSession) (h : Grown l l') (g : Grown l' l'') : Grown l l'' :=
  ⟨g.sessionID.trans h.sessionID,h.segments.trans g.segments,
    fun segIdx => (h.parts segIdx).trans (g.parts segIdx)⟩

structure Kept (l : LiveSession) : Prop where
  leaves : l.pipeline.sink.leaves = l.pipeline.sink.segments.map hashLeaf
  numbered : ∀ segIdx, ∀ p ∈ l.pipeline.sink.parts segIdx,
    p.index.toNat < (l.pipeline.sink.parts segIdx).length
  manifest : ∀ m, l.finalized = some m → ∃ payloads, payloads <+: l.pipeline.sink.segments ∧
    m.segmentCount = Int64.ofNat payloads.length

theorem newLiveSession_kept (sessionID : Bytes) (store : Database) :
    Kept (newLiveSession sessionID store) :=
  ⟨rfl,fun _ _ h => (List.not_mem_nil h).elim,fun _ h => nomatch h⟩

theorem onMediaSegment_taken (l : LiveSession) (index : UInt32) (bytes : Bytes) :
    l.taken (l.pipeline.sink.onMediaSegment index bytes) =
      if UInt32.ofNat l.pipeline.sink.leaves.length = index then
        { l with pipeline := { l.pipeline with sink := { l.pipeline.sink with
            leaves := l.pipeline.sink.leaves++[hashLeaf bytes]
            segments := l.pipeline.sink.segments++[bytes] } } }
      else l := by
  by_cases hturn : UInt32.ofNat l.pipeline.sink.leaves.length = index
  · rw [LivePinSink.onMediaSegment, if_neg (not_not.mpr hturn), if_pos hturn]
    rfl
  · rw [LivePinSink.onMediaSegment, if_pos hturn, if_neg hturn]
    rfl

theorem onMediaPart_taken (l : LiveSession) (segIdx partIdx : UInt32) (bytes : Bytes)
    (durationT : UInt32) (independent : Bool) :
    l.taken (l.pipeline.sink.onMediaPart segIdx partIdx bytes durationT independent) =
      if UInt32.ofNat (l.pipeline.sink.parts segIdx).length = partIdx then
        { l with pipeline := { l.pipeline with sink := { l.pipeline.sink with
            parts := Function.update l.pipeline.sink.parts segIdx
              (l.pipeline.sink.parts segIdx++[⟨partIdx, bytes, durationT, independent⟩]) } } }
      else l := by
  by_cases hturn : UInt32.ofNat (l.pipeline.sink.parts segIdx).length = partIdx
  · simp only [LivePinSink.onMediaPart, if_neg (not_not.mpr hturn), if_pos hturn]
    rfl
  · simp only [LivePinSink.onMediaPart, ne_eq, hturn, not_false_eq_true, if_true, if_false]
    rfl

theorem finalize_same (l : LiveSession) (d : Int64) (fault : Option GoError) :
    (l.finalize q d fault).1.sessionID = l.sessionID := by
  fun_cases LiveSession.finalize <;> rfl

theorem next_grown (l : LiveSession) (e : SinkEvent) : Grown l (sinkNext q l e) := by
  cases e with
  | stored store => exact ⟨rfl,List.prefix_refl _,fun _ => List.prefix_refl _⟩
  | finalize d fault =>
    have hpipeline := finalize_pipeline q l d fault
    refine ⟨finalize_same q l d fault, ?_, fun segIdx => ?_⟩ <;> rw [sinkNext, hpipeline]
  | onInitSegment bytes =>
    rw [sinkNext, LivePinSink.onInitSegment]
    split_ifs
    · exact Grown.refl l
    · exact ⟨rfl,List.prefix_refl _,fun _ => List.prefix_refl _⟩
  | onMediaSegment index bytes =>
    rw [sinkNext, onMediaSegment_taken]
    split_ifs
    · exact ⟨rfl,List.prefix_append _ _,fun _ => List.prefix_refl _⟩
    · exact Grown.refl l
  | onMediaPart segIdx partIdx bytes durationT independent =>
    rw [sinkNext, onMediaPart_taken]
    split_ifs
    · refine ⟨rfl, List.prefix_refl _, fun other => ?_⟩
      by_cases hother : other = segIdx
      · rw [hother]
        simp
      · simp [hother]
    · exact Grown.refl l

theorem run_grown (l : LiveSession) (events : List SinkEvent) :
    Grown l (run (sinkNext q) l events) :=
  run_invariant (sinkNext q) (Grown l) (fun s e h => h.trans l s _ (next_grown q s e)) l events
    (Grown.refl l)

theorem finalize_count (l : LiveSession) (d : Int64) (fault : Option GoError) (m : Manifest)
    (hopen : l.finalized = none) (hm : (l.finalize q d fault).2 = .ok m) :
    m.segmentCount = Int64.ofNat l.pipeline.sink.segments.length := by
  have hpin := finalize_pins q l d fault m hopen hm
  have hbuilt := pinPayloads_built q _ d fault l.store m (by rw [hpin])
  obtain ⟨-, t, ht, rfl⟩ := (buildFromPayloads_ok _ d m).mp hbuilt
  show Int64.ofNat t.leaves.length = _
  rw [ht, List.length_map]

theorem next_finalized (l : LiveSession) (e : SinkEvent) (m : Manifest)
    (h : l.finalized = some m) : (sinkNext q l e).finalized = some m := by
  have htaken : ∀ r, (l.taken r).finalized = some m := fun r => by cases r <;> exact h
  cases e with
  | finalize d fault => simp [sinkNext, LiveSession.finalize, h]
  | stored store => exact h
  | _ => exact htaken _

theorem run_keeps_finalized (l : LiveSession) (events : List SinkEvent) (m : Manifest)
    (h : l.finalized = some m) : (run (sinkNext q) l events).finalized = some m :=
  run_invariant (sinkNext q) (fun l => l.finalized = some m)
    (fun l e h => next_finalized q l e m h) l events h

theorem finalize_kept (l : LiveSession) (d : Int64) (fault : Option GoError) (h : Kept l) :
    Kept (l.finalize q d fault).1 := by
  have hpipeline := finalize_pipeline q l d fault
  refine ⟨?_, ?_, ?_⟩
  · rw [hpipeline]
    exact h.leaves
  · rw [hpipeline]
    exact h.numbered
  · intro m hm
    rw [hpipeline]
    cases hopen : l.finalized with
    | some cached =>
      have hsame := next_finalized q l (.finalize d fault) cached hopen
      obtain rfl := Option.some.inj (hm.symm.trans hsame)
      exact h.manifest m hopen
    | none =>
      have hreturned := (finalize_returned q l d fault m).mpr hm
      exact ⟨_,List.prefix_refl _,finalize_count q l d fault m hopen hreturned⟩

theorem next_kept (l : LiveSession) (e : SinkEvent) (h : Kept l) : Kept (sinkNext q l e) := by
  cases e with
  | stored store => exact ⟨h.leaves,h.numbered,h.manifest⟩
  | finalize d fault => exact finalize_kept q l d fault h
  | onInitSegment bytes =>
    rw [sinkNext, LivePinSink.onInitSegment]
    split_ifs
    · exact h
    · exact ⟨h.leaves,h.numbered,h.manifest⟩
  | onMediaSegment index bytes =>
    rw [sinkNext, onMediaSegment_taken]
    split_ifs
    · refine ⟨?_, h.numbered, ?_⟩
      · show l.pipeline.sink.leaves++[hashLeaf bytes] = (l.pipeline.sink.segments++[bytes]).map hashLeaf
        rw [h.leaves, List.map_append, List.map_singleton]
      · intro m hm
        obtain ⟨payloads, hpre, hcount⟩ := h.manifest m hm
        exact ⟨payloads,hpre.trans (List.prefix_append _ _),hcount⟩
    · exact h
  | onMediaPart segIdx partIdx bytes durationT independent =>
    rw [sinkNext, onMediaPart_taken]
    split_ifs with hturn
    · refine ⟨h.leaves, fun other p hp => ?_, h.manifest⟩
      by_cases hother : other = segIdx
      · subst hother
        simp only [Function.update_self, List.mem_append, List.mem_singleton, List.length_append,
          List.length_singleton] at hp ⊢
        rcases hp with hp | rfl
        · exact (h.numbered _ p hp).trans (Nat.lt_succ_self _)
        · show partIdx.toNat < _
          rw [← hturn, UInt32.toNat_ofNat']
          exact Nat.lt_succ_of_le (Nat.mod_le _ _)
      · simp only [ne_eq, hother, not_false_eq_true, Function.update_of_ne] at hp ⊢
        exact h.numbered other p hp
    · exact h

theorem run_kept (l : LiveSession) (events : List SinkEvent) (h : Kept l) :
    Kept (run (sinkNext q) l events) :=
  run_invariant (sinkNext q) Kept (next_kept q) l events h

theorem finalized_from (l : LiveSession) (events : List SinkEvent) (m : Manifest)
    (h : (run (sinkNext q) l events).finalized = some m) :
    l.finalized = some m ∨ ∃ before d fault, before++[.finalize d fault] <+: events ∧
      (run (sinkNext q) l before).finalized = none ∧
      ((run (sinkNext q) l before).finalize q d fault).2 = .ok m := by
  induction events generalizing l with
  | nil => exact .inl h
  | cons e events ih =>
    rcases ih (sinkNext q l e) h with hnext | ⟨before, d, fault, hpre, hopen, hreturned⟩
    · cases hfinal : l.finalized with
      | some cached =>
        left
        rw [← hnext, next_finalized q l e cached hfinal]
      | none =>
        right
        have htaken : ∀ r, (l.taken r).finalized = none := fun r => by cases r <;> exact hfinal
        cases e with
        | finalize d fault =>
          refine ⟨[], d, fault, ⟨events,rfl⟩, hfinal, ?_⟩
          exact (finalize_returned q l d fault m).mpr hnext
        | stored store => exact absurd (hfinal.symm.trans hnext) (by simp)
        | onInitSegment bytes => exact absurd ((htaken _).symm.trans hnext) (by simp)
        | onMediaSegment index bytes => exact absurd ((htaken _).symm.trans hnext) (by simp)
        | onMediaPart segIdx partIdx bytes durationT independent =>
          exact absurd ((htaken _).symm.trans hnext) (by simp)
    · exact .inr ⟨e::before,d,fault,List.cons_prefix_cons.mpr ⟨rfl,hpre⟩,hopen,hreturned⟩

theorem next_segments (l : LiveSession) (e : SinkEvent) :
    (Accepts l e → (sinkNext q l e).pipeline.sink.segments.length =
      l.pipeline.sink.segments.length+1) ∧
    (¬ Accepts l e → (sinkNext q l e).pipeline.sink.segments = l.pipeline.sink.segments) := by
  cases e with
  | stored store => exact ⟨fun h => h.elim,fun _ => rfl⟩
  | finalize d fault =>
    refine ⟨fun h => h.elim, fun _ => ?_⟩
    rw [sinkNext, finalize_pipeline]
  | onInitSegment bytes =>
    refine ⟨fun h => h.elim, fun _ => ?_⟩
    rw [sinkNext, LivePinSink.onInitSegment]
    split_ifs <;> rfl
  | onMediaSegment index bytes =>
    rw [sinkNext, onMediaSegment_taken]
    constructor
    · intro h
      have hturn : UInt32.ofNat l.pipeline.sink.leaves.length = index := h
      rw [if_pos hturn]
      exact List.length_append
    · intro h
      have hturn : ¬ UInt32.ofNat l.pipeline.sink.leaves.length = index := h
      rw [if_neg hturn]
  | onMediaPart segIdx partIdx bytes durationT independent =>
    refine ⟨fun h => h.elim, fun _ => ?_⟩
    rw [sinkNext, onMediaPart_taken]
    split_ifs <;> rfl

theorem quiet_iff (l : LiveSession) (events : List SinkEvent) :
    Along (sinkNext q) (fun l e => ¬ Accepts l e) l events ↔
      (run (sinkNext q) l events).pipeline.sink.segments.length =
        l.pipeline.sink.segments.length := by
  induction events generalizing l with
  | nil => exact iff_of_true trivial rfl
  | cons e events ih =>
    obtain ⟨htaken, hrefused⟩ := next_segments q l e
    have hgrown := (run_grown q (sinkNext q l e) events).segments.length_le
    rw [Along, run, ih]
    by_cases haccepts : Accepts l e
    · have hmore := htaken haccepts
      refine iff_of_false (fun h => h.1 haccepts) (fun h => ?_)
      omega
    · rw [hrefused haccepts]
      exact and_iff_right haccepts

end Growth

section Reads
variable (sessionID : Bytes) (l₁ l₂ l₃ l₄ : LiveSession)

theorem snapshot_kept_ok (h : Kept l₁) : ∃ snap, l₁.snapshot = .ok snap := by
  by_cases hnil : l₁.pipeline.sink.leaves = []
  · exact ⟨⟨l₁.sessionID, 0, [], [], []⟩,by rw [LiveSession.snapshot, if_pos hnil]⟩
  · have hsized : ∀ leaf ∈ l₁.pipeline.sink.leaves, leaf.length = hashSize := by
      intro leaf hleaf
      rw [h.leaves] at hleaf
      obtain ⟨bytes, -, rfl⟩ := List.mem_map.mp hleaf
      exact Sha256.sha256_length bytes
    have htree := (newTree_ok l₁.pipeline.sink.leaves ⟨_,hnil,hsized⟩).mpr rfl
    simp only [LiveSession.snapshot, if_neg hnil, htree, cidv1Raw_root]
    exact ⟨_,rfl⟩

theorem livePlaylist_ok (h : Kept l₁) (hlen : l₁.pipeline.sink.segments.length < 2^63) :
    livePlaylist sessionID l₁ l₂ l₃ = .ok {
      sessionID := sessionID
      segments := (List.range l₁.pipeline.sink.segments.length).map (segmentTag sessionID)
      parts := (l₂.partsOf (Int64.ofNat l₁.pipeline.sink.segments.length).toUInt64.toUInt32).map
        (partTag sessionID (Int64.ofNat l₁.pipeline.sink.segments.length).toUInt64.toUInt32)
      ended := l₃.finalized.isSome } := by
  obtain ⟨snap, hsnap⟩ := snapshot_kept_ok l₁ h
  have hcount : snap.segmentCount = Int64.ofNat l₁.pipeline.sink.segments.length := by
    rw [snapshot_count l₁ snap hsnap, h.leaves, List.length_map]
  have hlisted : snap.segmentCount.toInt.toNat = l₁.pipeline.sink.segments.length := by
    rw [hcount, Int64.toInt_ofNat_of_lt hlen, Int.toNat_natCast]
  simp only [livePlaylist, hsnap, ← hcount]
  rw [← hlisted]
  rfl

/-- Segments that were listed are served as far as 32 bits go. -/
theorem segments_served (h : Grown l₁ l₄) (hid : l₄.sessionID = sessionID)
    (hlen : l₄.pipeline.sink.segments.length < 2^63) :
    (∀ uri ∈ (List.range l₁.pipeline.sink.segments.length).map (segmentTag sessionID),
      (serveLive l₄ uri).status = statusOK) ↔ l₁.pipeline.sink.segments.length ≤ 2^32 := by
  have hle := h.segments.length_le
  subst hid
  simp only [List.forall_mem_map, List.mem_range, serveSegment_ok l₄ _ hlen]
  constructor
  · intro hserved
    by_contra hmany
    have hlast := (hserved (2^32) (by omega)).1
    exact lt_irrefl _ hlast
  · intro hfew i hi
    exact ⟨by omega,by omega⟩

theorem parts_served (hkept : Kept l₂) (h : Grown l₂ l₄) (hid : l₄.sessionID = sessionID)
    (segIdx : UInt32) :
    ∀ tag ∈ (l₂.partsOf segIdx).map (partTag sessionID segIdx),
      (serveLive l₄ tag.uri).status = statusOK := by
  subst hid
  rw [List.forall_mem_map]
  intro p hp
  have hnumbered := hkept.numbered segIdx p hp
  exact (servePart_ok l₄ segIdx p.index).mpr (hnumbered.trans_le (h.parts segIdx).length_le)

theorem listed_iff (m : Manifest) (n count : ℕ) (hcount : m.segmentCount = Int64.ofNat count)
    (hlen : count < 2^63) :
    (∀ i : ℕ, (i : ℤ) < m.segmentCount.toInt →
      segmentTag sessionID i ∈ (List.range n).map (segmentTag sessionID)) ↔ count ≤ n := by
  have hmem : ∀ i, segmentTag sessionID i ∈ (List.range n).map (segmentTag sessionID) ↔ i < n := by
    intro i
    simp only [List.mem_map, List.mem_range, segmentTag, LiveURI.segment.injEq, true_and]
    constructor
    · rintro ⟨j, hj, heq⟩
      rwa [← decimal_inj j i heq]
    · exact fun hi => ⟨i,hi,rfl⟩
  rw [hcount, Int64.toInt_ofNat_of_lt hlen]
  simp only [hmem, Nat.cast_lt]
  constructor
  · intro hlisted
    by_contra hmore
    exact lt_irrefl _ (hlisted n (by omega))
  · exact fun hle i hi => hi.trans_le hle

/-- The manifest that is read counts what the snapshot saw, at most, if and only if no
segment came between the snapshot and the finalisation. -/
theorem undisturbed_iff (events : List SinkEvent) (hkept : Kept l₁)
    (hlen : (run (sinkNext q) l₁ events).pipeline.sink.segments.length < 2^63) :
    (∀ m, (run (sinkNext q) l₁ events).finalized = some m →
      ∃ count, m.segmentCount = Int64.ofNat count ∧ count < 2^63 ∧
        count ≤ l₁.pipeline.sink.segments.length) ↔ Undisturbed q l₁ events := by
  constructor
  · intro h before d fault hpre hconcludes
    obtain ⟨after, hafter⟩ := hpre
    obtain ⟨hopen, hok⟩ := hconcludes
    obtain ⟨m, hm⟩ := exists_ok _ hok
    have hreached : (run (sinkNext q) l₁ events).finalized = some m := by
      rw [← hafter, run_append, run_append]
      exact run_keeps_finalized q _ after m ((finalize_returned q _ d fault m).mp hm)
    have hgrown : Grown (run (sinkNext q) l₁ before) (run (sinkNext q) l₁ events) := by
      rw [← hafter, List.append_assoc, run_append]
      exact run_grown q _ _
    obtain ⟨count, hcount, hfit, hle⟩ := h m hreached
    have hfinal := finalize_count q _ d fault m hopen hm
    rw [hcount] at hfinal
    have hbefore := hgrown.segments.length_le
    have heq : count = (run (sinkNext q) l₁ before).pipeline.sink.segments.length := by
      have hint := congrArg Int64.toInt hfinal
      rw [Int64.toInt_ofNat_of_lt hfit, Int64.toInt_ofNat_of_lt (by omega)] at hint
      exact_mod_cast hint
    have hmore := (run_grown q l₁ before).segments.length_le
    exact (quiet_iff q l₁ before).mpr (by omega)
  · intro h m hm
    rcases finalized_from q l₁ events m hm with hthen | ⟨before, d, fault, hpre, hopen, hreturned⟩
    · obtain ⟨payloads, hpayloads, hcount⟩ := hkept.manifest m hthen
      have hle := hpayloads.length_le
      have hgrown := (run_grown q l₁ events).segments.length_le
      exact ⟨payloads.length,hcount,by omega,hle⟩
    · have hquiet := h before d fault hpre ⟨hopen,by rw [hreturned]; rfl⟩
      have hsame := (quiet_iff q l₁ before).mp hquiet
      have hgrown := (run_grown q l₁ events).segments.length_le
      refine ⟨_, finalize_count q _ d fault m hopen hreturned, by omega, by omega⟩

end Reads

/-- However calls of the sink come between the reads, a playlist is made. It is complete
at any later time if and only if the snapshot has at most 2^32 segments and no segment
is accepted between the snapshot and a finalisation that comes before the last read. -/
theorem playlist_complete_exact (sessionID : Bytes) (store : Database)
    (earlier toParts toManifest afterwards : List SinkEvent)
    (hlen : (run (sinkNext q) (newLiveSession sessionID store)
      (earlier++toParts++toManifest++afterwards)).pipeline.sink.segments.length < 2^63) :
    let atSnapshot := run (sinkNext q) (newLiveSession sessionID store) earlier
    let atParts := run (sinkNext q) atSnapshot toParts
    let atManifest := run (sinkNext q) atParts toManifest
    let later := run (sinkNext q) atManifest afterwards
    ∃ p, livePlaylist sessionID atSnapshot atParts atManifest = .ok p ∧
      (Complete p atManifest later ↔
        atSnapshot.pipeline.sink.segments.length ≤ 2^32 ∧
        Undisturbed q atSnapshot (toParts++toManifest)) := by
  intro atSnapshot atParts atManifest later
  rw [run_append, run_append, run_append] at hlen
  change later.pipeline.sink.segments.length < 2^63 at hlen
  have hkept : Kept atSnapshot := run_kept q _ earlier (newLiveSession_kept sessionID store)
  have hgrown₁ : Grown (newLiveSession sessionID store) atSnapshot := run_grown q _ earlier
  have hgrown₂ : Grown atSnapshot atParts := run_grown q _ toParts
  have hgrown₃ : Grown atParts atManifest := run_grown q _ toManifest
  have hgrown₄ : Grown atManifest later := run_grown q _ afterwards
  have hparts : Grown atParts later := hgrown₃.trans _ _ _ hgrown₄
  have hall : Grown atSnapshot later := hgrown₂.trans _ _ _ hparts
  have hid : later.sessionID = sessionID := (hgrown₁.trans _ _ _ hall).sessionID
  have hmanifest : atManifest = run (sinkNext q) atSnapshot (toParts++toManifest) :=
    (run_append _ _ _ _).symm
  have hle₄ := hgrown₄.segments.length_le
  have hle := hall.segments.length_le
  refine ⟨_, livePlaylist_ok sessionID atSnapshot atParts atManifest hkept (by omega), ?_⟩
  have hundisturbed := undisturbed_iff q atSnapshot (toParts++toManifest) hkept
    (by rw [← hmanifest]; omega)
  rw [← hundisturbed, ← hmanifest, ← segments_served sessionID atSnapshot later hall hid hlen]
  constructor
  · intro h
    refine ⟨h.segments, fun m hm => ?_⟩
    obtain ⟨payloads, hpayloads, hcount⟩ :=
      (run_kept q _ toManifest (run_kept q _ toParts hkept)).manifest m hm
    have hfit : payloads.length < 2^63 := by
      have hbound := hpayloads.length_le.trans hle₄
      omega
    have hlisted := h.ended (by rw [hm]; rfl) m hm
    exact ⟨payloads.length,hcount,hfit,(listed_iff sessionID m _ _ hcount hfit).mp hlisted⟩
  · rintro ⟨hsegments, hcounted⟩
    have hserved := parts_served sessionID atParts later (run_kept q _ toParts hkept) hparts hid
    refine ⟨hsegments, hserved _, ?_⟩
    intro _ m hm
    obtain ⟨count, hcount, hfit, hcovered⟩ := hcounted m hm
    exact (listed_iff sessionID m _ count hcount hfit).mpr hcovered

section Samples

/-- A playlist read while a part comes in, then the end of the session. -/
theorem playlist_complete_exact_live :
    let atSnapshot := run (sinkNext ⟨0, 0⟩) (newLiveSession (ascii "s1") KeyValue.Map.empty)
      [.onInitSegment [1], .onMediaPart 0 0 [2] 180000 true, .onMediaSegment 0 [2]]
    let atParts := run (sinkNext ⟨0, 0⟩) atSnapshot [.onMediaPart 1 0 [3] 180000 true]
    let later := run (sinkNext ⟨0, 0⟩) atParts [.onMediaSegment 1 [3], .finalize 6 none]
    ∃ p, livePlaylist (ascii "s1") atSnapshot atParts atParts = .ok p ∧
      (Complete p atParts later ↔ atSnapshot.pipeline.sink.segments.length ≤ 2^32 ∧
        Undisturbed ⟨0, 0⟩ atSnapshot [.onMediaPart 1 0 [3] 180000 true]) :=
  playlist_complete_exact ⟨0, 0⟩ (ascii "s1") KeyValue.Map.empty
    [.onInitSegment [1], .onMediaPart 0 0 [2] 180000 true, .onMediaSegment 0 [2]]
    [.onMediaPart 1 0 [3] 180000 true] [] [.onMediaSegment 1 [3], .finalize 6 none]
    (by decide +kernel)

/-- The last flush of a stream and the finalisation fall between the reads. -/
theorem ended_playlist_lacks_segment :
    let atSnapshot := run (sinkNext ⟨0, 0⟩) (newLiveSession (ascii "s1") KeyValue.Map.empty)
      [.onInitSegment [1], .onMediaSegment 0 [2]]
    let atManifest := run (sinkNext ⟨0, 0⟩) atSnapshot [.onMediaSegment 1 [3], .finalize 6 none]
    let p : LivePlaylist := ⟨ascii "s1", [segmentTag (ascii "s1") 0], [], true⟩
    livePlaylist (ascii "s1") atSnapshot atSnapshot atManifest = .ok p ∧
    atManifest.finalized.map Manifest.segmentCount = some 2 ∧
    ∀ later, ¬ Complete p atManifest later := by
  intro atSnapshot atManifest p
  have hpinned : atManifest.finalized.map Manifest.segmentCount = some 2 := by decide +kernel
  have hkept : Kept atSnapshot := run_kept _ _ _ (newLiveSession_kept _ _)
  refine ⟨?_, hpinned, fun later h => ?_⟩
  · rw [livePlaylist_ok _ _ _ _ hkept (by decide +kernel)]
    have hended : atManifest.finalized.isSome = true := by decide +kernel
    rw [hended]
    rfl
  · obtain ⟨m, hm, hcount⟩ := Option.map_eq_some_iff.mp hpinned
    have hlisted := h.ended rfl m hm 1 (by rw [hcount]; decide)
    exact absurd hlisted (by decide +kernel)

end Samples

end Aevia.Whip
