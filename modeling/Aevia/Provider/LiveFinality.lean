import Aevia.Provider.PinCalls
import Aevia.Provider.SegmentTiling

/-!
# A finalised session

`Finalize` pins the segments a live session has and remembers the manifest. The
segmenter is not told, and the sink takes what it hands over, so the live view is
that of the manifest as long as no segment is handed over afterwards.
-/

set_option autoImplicit false

namespace Aevia.Whip
open Aevia.Bytes Aevia.Fallible Aevia.GoError Aevia.Manifests Aevia.PinStore Aevia.Run Aevia.Storage

/-- A segmenter with its sink, the rest of the sink's fields, and its store. -/
structure LiveSession where
  pipeline : Pipeline
  sessionID : Bytes
  finalized : Option Manifest
  store : Database

def newLiveSession (sessionID : Bytes) (store : Database) : LiveSession :=
  ⟨newPipeline, sessionID, none, store⟩

structure LiveSnapshot where
  sessionID : Bytes
  segmentCount : Int64
  rootHex : Bytes
  cid : Bytes
  initSegment : Bytes

namespace LiveSession

def snapshot (l : LiveSession) : Except GoError LiveSnapshot :=
  let sink := l.pipeline.sink
  if sink.leaves = [] then .ok ⟨l.sessionID, 0, [], [], []⟩
  else do
    let tree ← context "livepin: build tree: %w" (newTree sink.leaves)
    let cid ← context "livepin: cid: %w" (cidv1Raw tree.root)
    .ok {
      sessionID := l.sessionID
      segmentCount := Int64.ofNat sink.leaves.length
      rootHex := hexEncode tree.root
      cid := cid
      initSegment := sink.initSeg }

def segmentBytes (l : LiveSession) (index : UInt32) : Except GoError Bytes :=
  let segments := l.pipeline.sink.segments
  let count := Int64.ofNat segments.length
  if count ≤ Int64.ofNat index.toNat then
    .error (.errorf "livepin: segment %d out of range (have %d)"
      [.int index.toNat, .int count.toInt])
  else .ok (segments.getD index.toNat [])

/-- `fault` is what the database answers to the batch of the pin. -/
def finalize (q : Quota) (l : LiveSession) (segmentDurationSecs : Int64)
    (fault : Option GoError) : LiveSession × Except GoError Manifest :=
  match l.finalized with
  | some m => (l, .ok m)
  | none =>
    let payloads := l.pipeline.sink.segments
    if payloads = [] then (l, .error (.new "livepin: cannot finalize zero-segment session"))
    else match (pinPayloads q payloads segmentDurationSecs).runAlone fault l.store with
      | (.error e, store) => ({ l with store := store }, .error (.wrap "livepin: pin: %w" [] e))
      | (.ok m, store) => ({ l with finalized := some m, store := store }, .ok m)

end LiveSession

/-- Frames and closes of the segmenter, `Finalize`, and whatever the other users
of the store make of it. -/
inductive LiveOp where
  | ingest (op : Op)
  | finalize (segmentDurationSecs : Int64) (fault : Option GoError)
  | stored (store : Database)

variable (lib : Mp4) (q : Quota)

def liveNext (l : LiveSession) : LiveOp → LiveSession
  | .ingest op => { l with pipeline := next lib l.pipeline op }
  | .finalize segmentDurationSecs fault => (l.finalize q segmentDurationSecs fault).1
  | .stored store => { l with store := store }

structure Agrees (m : Manifest) (l : LiveSession) : Prop where
  snapshot : ∃ snap, l.snapshot = .ok snap ∧
    snap.segmentCount = m.segmentCount ∧ snap.cid = m.cid
  served : ∀ index : UInt32,
    (∃ bytes, l.segmentBytes index = .ok bytes) ↔ (index.toNat : ℤ) < m.segmentCount.toInt
  hashed : ∀ index bytes, l.segmentBytes index = .ok bytes →
    m.leafAt (Int64.ofNat index.toNat) = .ok (hashLeaf bytes)

/-- From a `Finalize` that returns a manifest on, the live view is that of the
manifest at every moment of the run. -/
def FinalIsFinal (l : LiveSession) (ops : List LiveOp) : Prop :=
  ∀ before after segmentDurationSecs fault m,
    before++.finalize segmentDurationSecs fault::after <+: ops →
    ((run (liveNext lib q) l before).finalize q segmentDurationSecs fault).2 = .ok m →
    Agrees m (run (liveNext lib q) l (before++.finalize segmentDurationSecs fault::after))

def HandsOver (seg : CMAFSegmenter) : Prop :=
  seg.segmentSamples ≠ [] ∧ seg.segmentHasKey = true ∧
  (buildMediaSegment lib { seg with segmentSamples := stampLast seg.segmentSamples }).isOk = true

instance (seg : CMAFSegmenter) : Decidable (HandsOver lib seg) :=
  inferInstanceAs (Decidable (_ ∧ _ ∧ _))

def Delivers (s : Pipeline) : Op → Prop
  | .onVideoFrame f => segmentDue s.seg f = true ∧ HandsOver lib s.seg
  | .close => HandsOver lib s.seg

instance (s : Pipeline) : ∀ op, Decidable (Delivers lib s op)
  | .onVideoFrame _ => inferInstanceAs (Decidable (_ ∧ _))
  | .close => inferInstanceAs (Decidable (HandsOver lib s.seg))

def Quiet (l : LiveSession) : LiveOp → Prop
  | .ingest op => l.finalized.isSome = true → ¬Delivers lib l.pipeline op
  | _ => True

section Growth

structure Grows (s : Pipeline) (more : List Bytes) (s' : Pipeline) : Prop where
  segments : s'.sink.segments = s.sink.segments++more
  leaves : s'.sink.leaves = s.sink.leaves++more.map hashLeaf
  nextIndex : s'.seg.nextSegmentIndex = s.seg.nextSegmentIndex+UInt32.ofNat more.length
  initEmitted : s'.seg.initEmitted = s.seg.initEmitted

theorem Grows.trans (s t u : Pipeline) (more rest : List Bytes) (h : Grows s more t)
    (g : Grows t rest u) : Grows s (more++rest) u where
  segments := by rw [g.segments, h.segments, List.append_assoc]
  leaves := by rw [g.leaves, h.leaves, List.map_append, List.append_assoc]
  nextIndex := by
    rw [g.nextIndex, h.nextIndex, List.length_append, UInt32.ofNat_add, UInt32.add_assoc]
  initEmitted := g.initEmitted.trans h.initEmitted

theorem Grows.untouched (s s' : Pipeline) (h : Untouched s s')
    (hinit : s'.seg.initEmitted = s.seg.initEmitted) : Grows s [] s' where
  segments := by rw [h.stored, List.append_nil]
  leaves := by rw [h.leaves, List.map_nil, List.append_nil]
  nextIndex := by
    rw [h.nextIndex]
    exact (UInt32.add_zero _).symm
  initEmitted := hinit

/-- The sink and the segmenter agree on the next index, and nothing is pending
before the init segment is out. -/
structure Steady (s : Pipeline) : Prop where
  leaves : s.sink.leaves = s.sink.segments.map hashLeaf
  nextIndex : UInt32.ofNat s.sink.leaves.length = s.seg.nextSegmentIndex
  opened : s.seg.initEmitted = false → s.seg.segmentSamples = []

theorem newPipeline_steady : Steady newPipeline := ⟨rfl,rfl,fun _ => rfl⟩

theorem onMediaSegment_grows (s : Pipeline) (seg : CMAFSegmenter) (index : UInt32) (bytes : Bytes)
    (ticks : UInt32) (h : UInt32.ofNat s.sink.leaves.length = index)
    (hindex : seg.nextSegmentIndex = s.seg.nextSegmentIndex+1)
    (hinit : seg.initEmitted = s.seg.initEmitted) :
    Grows s [bytes] (Pipeline.onMediaSegment { s with seg := seg } index bytes ticks).1 := by
  rw [onMediaSegment_accepted { s with seg := seg } index bytes ticks h]
  exact ⟨rfl,rfl,hindex,hinit⟩

theorem flushLocked_grows (s : Pipeline) (hs : Steady s) :
    ∃ more, Grows s more (flushLocked lib s).1 ∧
      more.length = if HandsOver lib s.seg then 1 else 0 := by
  have hsilent : ∀ seg, seg.nextSegmentIndex = s.seg.nextSegmentIndex →
      seg.initEmitted = s.seg.initEmitted → ¬HandsOver lib s.seg →
      ∃ more, Grows s more { s with seg := seg } ∧
        more.length = if HandsOver lib s.seg then 1 else 0 := by
    intro seg hindex hinit hnot
    rw [if_neg hnot]
    exact ⟨[],⟨by simp,by simp,by simp [hindex],hinit⟩,rfl⟩
  fun_cases flushLocked
  case case1 hnil => exact hsilent s.seg rfl rfl (fun h => h.1 hnil)
  case case2 hsome hkeyless =>
    apply hsilent { s.seg with segmentSamples := [] } rfl rfl
    intro h
    rw [h.2.1] at hkeyless
    cases hkeyless
  case case3 hsome hkeyed stamped e hbuild =>
    apply hsilent stamped rfl rfl
    intro h
    have hok := h.2.2
    rw [show buildMediaSegment lib { s.seg with segmentSamples := stampLast s.seg.segmentSamples } =
      .error e from hbuild] at hok
    cases hok
  case case4 hsome hkeyed stamped segBytes ticks hbuild =>
    have hover : HandsOver lib s.seg := by
      refine ⟨hsome, Bool.eq_true_of_not_eq_false hkeyed, ?_⟩
      rw [show buildMediaSegment lib { s.seg with segmentSamples := stampLast s.seg.segmentSamples } =
        .ok (segBytes, ticks) from hbuild]
      rfl
    rw [if_pos hover]
    exact ⟨[segBytes],onMediaSegment_grows s _ _ segBytes ticks hs.nextIndex rfl rfl,rfl⟩

theorem appendSample_grows (s : Pipeline) (f : VideoFrame) : Grows s [] (appendSample s f) :=
  ⟨(List.append_nil _).symm,(List.append_nil _).symm,(UInt32.add_zero _).symm,rfl⟩

theorem emitDuePart_grows (s : Pipeline) (f : VideoFrame) :
    Grows s [] (emitDuePart lib s f).1 :=
  Grows.untouched s _ (emitDuePart_untouched lib s f).1 (emitDuePart_untouched lib s f).2.initEmitted

theorem startSegment_grows (s : Pipeline) (f : VideoFrame) : Grows s [] (startSegment s f) :=
  Grows.untouched s _ (startSegment_untouched s f).1 rfl

theorem bufferFrame_grows (s : Pipeline) (f : VideoFrame) (hs : Steady s) :
    ∃ more, Grows s more (bufferFrame lib s f).1 ∧
      more.length = if Delivers lib s (.onVideoFrame f) then 1 else 0 := by
  by_cases hnil : s.seg.segmentSamples = []
  · have hnot : ¬Delivers lib s (.onVideoFrame f) := fun h => h.2.1 hnil
    rw [bufferFrame_first lib s f hnil, if_neg hnot]
    exact ⟨[],Grows.trans s _ _ [] [] (startSegment_grows s f) (appendSample_grows _ f),rfl⟩
  · have hbuffered : ∀ t more, Grows s more t →
        Grows s more (emitDuePart lib (appendSample t f) f).1 := by
      intro t more ht
      have happend := Grows.trans s t _ more [] ht (appendSample_grows t f)
      have hpart := Grows.trans s _ _ _ [] happend (emitDuePart_grows lib (appendSample t f) f)
      rwa [List.append_nil, List.append_nil] at hpart
    rw [bufferFrame, if_neg hnil]
    simp only [cutSegment]
    by_cases hdue : segmentDue s.seg f = true
    · obtain ⟨more, hflush, hlength⟩ := flushLocked_grows lib s hs
      have hiff : Delivers lib s (.onVideoFrame f) ↔ HandsOver lib s.seg := and_iff_right hdue
      rw [if_pos hdue]
      simp only [hiff]
      refine ⟨more, ?_, hlength⟩
      generalize flushLocked lib s = outcome at hflush ⊢
      obtain ⟨t, e⟩ := outcome
      cases e with
      | some e => exact hflush
      | none =>
        apply hbuffered
        have hstart := Grows.trans s t _ more [] hflush (startSegment_grows t f)
        rwa [List.append_nil] at hstart
    · have hnot : ¬Delivers lib s (.onVideoFrame f) := fun h => hdue h.1
      rw [if_neg hdue, if_neg hnot]
      have hself : Grows s [] s :=
        ⟨(List.append_nil _).symm,(List.append_nil _).symm,(UInt32.add_zero _).symm,rfl⟩
      exact ⟨[],hbuffered s [] hself,rfl⟩

theorem Steady.grows (s s' : Pipeline) (more : List Bytes) (hs : Steady s) (h : Grows s more s')
    (hopened : s'.seg.initEmitted = false → s'.seg.segmentSamples = []) : Steady s' where
  leaves := by rw [h.leaves, h.segments, hs.leaves, List.map_append]
  nextIndex := by
    rw [h.nextIndex, h.leaves, List.length_append, List.length_map, UInt32.ofNat_add, hs.nextIndex]
  opened := hopened

structure Advances (s s' : Pipeline) (n : ℕ) : Prop where
  steady : Steady s'
  segments : ∃ more, s'.sink.segments = s.sink.segments++more ∧ more.length = n

theorem Grows.advances (s s' : Pipeline) (more : List Bytes) (n : ℕ) (h : Grows s more s')
    (hn : more.length = n) (hs : Steady s)
    (hopened : s'.seg.initEmitted = false → s'.seg.segmentSamples = []) : Advances s s' n :=
  ⟨hs.grows s s' more h hopened,more,h.segments,hn⟩

theorem Untouched.advances (s s' : Pipeline) (h : Untouched s s') (hs : Steady s)
    (hopened : s'.seg.initEmitted = false → s'.seg.segmentSamples = []) : Advances s s' 0 where
  steady := ⟨by rw [h.leaves, h.stored, hs.leaves],by rw [h.leaves, h.nextIndex, hs.nextIndex],hopened⟩
  segments := ⟨[],by rw [h.stored, List.append_nil],rfl⟩

theorem onVideoFrame_unopened (s : Pipeline) (f : VideoFrame) (hs : Steady s)
    (hemitted : s.seg.initEmitted = false) : Advances s (onVideoFrame lib s f) 0 := by
  have huntouched := (prepared lib s f).untouched s _
  have hpending : (emitInit lib (captureParameterSets s f)).1.seg.segmentSamples = [] := by
    have hdata := huntouched.samples
    rw [hs.opened hemitted] at hdata
    exact List.map_eq_nil_iff.mp hdata
  rw [onVideoFrame, ingestFrame]
  generalize emitInit lib (captureParameterSets s f) = outcome at huntouched hpending ⊢
  obtain ⟨t, e⟩ := outcome
  have hsame := huntouched.advances s t hs (fun _ => hpending)
  cases e with
  | some e => exact hsame
  | none =>
    by_cases hout : t.seg.initEmitted = false
    · simp only [if_pos hout]
      exact hsame
    · simp only [if_neg hout, bufferFrame_first lib t f hpending]
      obtain ⟨hsteady, hsegments⟩ := hsame
      exact ⟨⟨hsteady.leaves,hsteady.nextIndex,fun hfalse => absurd hfalse hout⟩,hsegments⟩

theorem onVideoFrame_opened (s : Pipeline) (f : VideoFrame) (hs : Steady s)
    (hemitted : s.seg.initEmitted = true) :
    Advances s (onVideoFrame lib s f) (if Delivers lib s (.onVideoFrame f) then 1 else 0) := by
  obtain ⟨sps, pps, hseg⟩ := captureUnits_same (splitNALUnits f.nal) s.seg
  have hcapture : captureParameterSets s f = { s with seg := { s.seg with sps := sps, pps := pps } } := by
    rw [captureParameterSets, hseg]
  have hopen : ¬(captureParameterSets s f).seg.initEmitted = false := by
    rw [hcapture]
    simp [hemitted]
  have hsteady : Steady (captureParameterSets s f) := by
    rw [hcapture]
    exact ⟨hs.leaves,hs.nextIndex,hs.opened⟩
  have hdelivers : Delivers lib (captureParameterSets s f) (.onVideoFrame f) ↔
      Delivers lib s (.onVideoFrame f) := by
    rw [hcapture]
    exact Iff.rfl
  obtain ⟨more, hgrows, hlength⟩ := bufferFrame_grows lib (captureParameterSets s f) f hsteady
  rw [onVideoFrame, ingestFrame, emitInit, if_neg (fun h => hopen h.1)]
  simp only [if_neg hopen]
  have hadvances : Advances (captureParameterSets s f) (bufferFrame lib (captureParameterSets s f) f).1
      (if Delivers lib s (.onVideoFrame f) then 1 else 0) := by
    apply hgrows.advances _ _ more
    · simp only [hlength, hdelivers]
    · exact hsteady
    · intro hfalse
      rw [hgrows.initEmitted] at hfalse
      exact absurd hfalse hopen
  exact ⟨hadvances.steady,by simpa only [hcapture] using hadvances.segments⟩

theorem close_advances (s : Pipeline) (hs : Steady s) :
    Advances s (close lib s).1 (if Delivers lib s .close then 1 else 0) := by
  rw [close]
  by_cases hpending : 0 < s.seg.segmentSamples.length
  · obtain ⟨more, hgrows, hlength⟩ := flushLocked_grows lib s hs
    rw [if_pos hpending]
    apply hgrows.advances s _ more _ hlength hs
    intro hfalse
    rw [hgrows.initEmitted] at hfalse
    rw [hs.opened hfalse] at hpending
    exact absurd hpending (lt_irrefl 0)
  · have hnot : ¬Delivers lib s .close := fun h => hpending (List.length_pos_iff.mpr h.1)
    rw [if_neg hpending, if_neg hnot]
    exact ⟨hs,[],(List.append_nil _).symm,rfl⟩

theorem next_advances (s : Pipeline) (op : Op) (hs : Steady s) :
    Advances s (next lib s op) (if Delivers lib s op then 1 else 0) := by
  cases op with
  | close => exact close_advances lib s hs
  | onVideoFrame f =>
    cases hemitted : s.seg.initEmitted with
    | true => exact onVideoFrame_opened lib s f hs hemitted
    | false =>
      have hnot : ¬Delivers lib s (.onVideoFrame f) := fun h => h.2.1 (hs.opened hemitted)
      rw [if_neg hnot]
      exact onVideoFrame_unopened lib s f hs hemitted

end Growth

section Views

theorem pinPayloads_built (payloads : List Bytes) (d : Int64) (fault : Option GoError)
    (db : Database) (m : Manifest) (h : ((pinPayloads q payloads d).runAlone fault db).1 = .ok m) :
    buildFromPayloads payloads d = .ok m := by
  unfold pinPayloads at h
  split at h
  · cases h
  · split at h
    · cases h
    · rename_i built hbuilt
      rw [StoreProgram.Program.runAlone_bind] at h
      split at h
      · rw [hbuilt, Except.ok.inj h]
      · cases h

theorem finalize_pins (l : LiveSession) (d : Int64) (fault : Option GoError) (m : Manifest)
    (hopen : l.finalized = none) (hm : (l.finalize q d fault).2 = .ok m) :
    (pinPayloads q l.pipeline.sink.segments d).runAlone fault l.store =
      (.ok m, (l.finalize q d fault).1.store) := by
  revert hm
  fun_cases LiveSession.finalize
  case case1 cached hcached => rw [hopen] at hcached; cases hcached
  case case2 => exact fun hm => nomatch hm
  case case3 => exact fun hm => nomatch hm
  case case4 payloads hsome built store hpin =>
    rintro ⟨⟩
    exact hpin

theorem snapshot_count (l : LiveSession) (snap : LiveSnapshot) (h : l.snapshot = .ok snap) :
    snap.segmentCount = Int64.ofNat l.pipeline.sink.leaves.length := by
  rw [LiveSession.snapshot] at h
  by_cases hnil : l.pipeline.sink.leaves = []
  · rw [if_pos hnil] at h
    cases h
    rw [hnil]
    rfl
  · simp only [if_neg hnil, bind_ok, Except.ok.injEq] at h
    obtain ⟨tree, -, cid, -, rfl⟩ := h
    rfl

/-- A segment index of 32 bits as an int. -/
theorem toInt_index (index : UInt32) : (Int64.ofNat index.toNat).toInt = index.toNat := by
  have hlt := index.toNat_lt
  exact Int64.toInt_ofNat_of_lt (by omega)

theorem index_lt (index : UInt32) (n : ℕ) (h : Int64.ofNat index.toNat < Int64.ofNat n) :
    index.toNat < n := by
  have hlt := index.toNat_lt
  rw [Int64.lt_iff_toInt_lt, toInt_index] at h
  by_contra hge
  rw [Int64.toInt_ofNat_of_lt (by omega)] at h
  omega

theorem segmentBytes_ok (l : LiveSession) (index : UInt32) (bytes : Bytes) :
    l.segmentBytes index = .ok bytes ↔
      Int64.ofNat index.toNat < Int64.ofNat l.pipeline.sink.segments.length ∧
      l.pipeline.sink.segments.getD index.toNat [] = bytes := by
  simp only [LiveSession.segmentBytes, guard_ok, Except.ok.injEq, Int64.not_le]

theorem manifestOf_leafAt (t : Tree) (d : Int64) (index : UInt32)
    (h : index.toNat < t.leaves.length) :
    (manifestOf t d).leafAt (Int64.ofNat index.toNat) = .ok (t.leaves.getD index.toNat []) := by
  have hlist : (manifestOf t d).leafList = t.leaves.map hexEncode := rfl
  have hnonneg : ¬Int64.ofNat index.toNat < 0 := by
    rw [Int64.lt_iff_toInt_lt, toInt_index]
    exact not_lt.mpr (Int.natCast_nonneg _)
  have hrange : ¬(Int64.ofNat index.toNat < 0 ∨ (t.leaves.length : ℤ) ≤ index.toNat) := by
    rintro (hneg | hge)
    · exact hnonneg hneg
    · omega
  have hentry : (t.leaves.map hexEncode).getD index.toNat [] = hexEncode t.leaves[index.toNat] := by
    simp [h]
  have hdecode := (hexDecodeString_ok _ _).mpr (hexDecode_hexEncode t.leaves[index.toNat])
  have hsized : ¬t.leaves[index.toNat].length ≠ hashSize := not_not.mpr (t.sized _ (List.getElem_mem h))
  rw [Manifest.leafAt, hlist, List.length_map, toInt_index, if_neg hrange, Int.toNat_natCast, hentry,
    hdecode]
  simp only [if_neg hsized]
  simp [h]

theorem agrees_of_built (l : LiveSession) (d : Int64) (m : Manifest) (hs : Steady l.pipeline)
    (h : buildFromPayloads l.pipeline.sink.segments d = .ok m) : Agrees m l := by
  obtain ⟨-, t, ht, rfl⟩ := (buildFromPayloads_ok _ d m).mp h
  have hleaves : l.pipeline.sink.leaves = t.leaves := hs.leaves.trans ht.symm
  have hlength : l.pipeline.sink.segments.length = t.leaves.length := by rw [ht, List.length_map]
  constructor
  · have hbuilt := (newTree_ok t.leaves t).mpr rfl
    refine ⟨⟨l.sessionID,Int64.ofNat t.leaves.length,hexEncode t.root,cidText t.root,
      l.pipeline.sink.initSeg⟩, ?_, rfl, rfl⟩
    simp only [LiveSession.snapshot, hleaves, if_neg t.nonempty, hbuilt, cidv1Raw_root]
    rfl
  · intro index
    simp only [segmentBytes_ok, exists_and_left, exists_eq', and_true, hlength]
    rw [Int64.lt_iff_toInt_lt, toInt_index]
    rfl
  · intro index bytes hbytes
    obtain ⟨hlt, rfl⟩ := (segmentBytes_ok l index bytes).mp hbytes
    have hlt := index_lt index _ hlt
    rw [manifestOf_leafAt t d index (hlength ▸ hlt), ht]
    simp [hlt]

end Views

/-- The segmenter is steady, and a manifest that is remembered was built from the
segments the sink has now. -/
structure Settled (l : LiveSession) : Prop where
  steady : Steady l.pipeline
  built : ∀ m, l.finalized = some m → ∃ d, buildFromPayloads l.pipeline.sink.segments d = .ok m

theorem finalize_returned (l : LiveSession) (d : Int64) (fault : Option GoError) (m : Manifest) :
    (l.finalize q d fault).2 = .ok m ↔ (l.finalize q d fault).1.finalized = some m := by
  fun_cases LiveSession.finalize
  case case1 cached hcached => simp [hcached]
  case case2 hopen payloads hnil => simp [hopen]
  case case3 hopen payloads hsome e store hpin => simp [hopen]
  case case4 hopen payloads hsome built store hpin => simp

theorem finalize_pipeline (l : LiveSession) (d : Int64) (fault : Option GoError) :
    (l.finalize q d fault).1.pipeline = l.pipeline := by
  fun_cases LiveSession.finalize <;> rfl

theorem finalize_settled (l : LiveSession) (d : Int64) (fault : Option GoError) (h : Settled l) :
    Settled (l.finalize q d fault).1 := by
  fun_cases LiveSession.finalize
  case case1 m hcached => exact h
  case case2 hopen payloads hnil => exact h
  case case3 hopen payloads hsome e store hpin => exact ⟨h.steady,h.built⟩
  case case4 hopen payloads hsome m store hpin =>
    refine ⟨h.steady, ?_⟩
    intro m' hm
    cases hm
    exact ⟨d,pinPayloads_built q payloads d fault l.store m (by rw [hpin])⟩

theorem liveNext_settled (l : LiveSession) (op : LiveOp) (h : Settled l) (hquiet : Quiet lib l op) :
    Settled (liveNext lib q l op) := by
  cases op with
  | stored store => exact ⟨h.steady,h.built⟩
  | finalize d fault => exact finalize_settled q l d fault h
  | ingest op =>
    obtain ⟨hsteady, more, hsegments, hlength⟩ := next_advances lib l.pipeline op h.steady
    refine ⟨hsteady, ?_⟩
    intro m hm
    have hfinal : l.finalized = some m := hm
    rw [if_neg (hquiet (by rw [hfinal]; rfl)), List.length_eq_zero_iff] at hlength
    obtain ⟨d, hd⟩ := h.built m hfinal
    refine ⟨d, ?_⟩
    show buildFromPayloads (next lib l.pipeline op).sink.segments d = .ok m
    rw [hsegments, hlength, List.append_nil, hd]

/-- What is remembered is never replaced. -/
theorem liveNext_finalized (l : LiveSession) (op : LiveOp) (m : Manifest)
    (h : l.finalized = some m) : (liveNext lib q l op).finalized = some m := by
  cases op with
  | finalize d fault => simp [liveNext, LiveSession.finalize, h]
  | _ => exact h

theorem run_finalized (ops : List LiveOp) (l : LiveSession) (m : Manifest)
    (h : l.finalized = some m) : (run (liveNext lib q) l ops).finalized = some m :=
  run_invariant (liveNext lib q) (fun l => l.finalized = some m)
    (fun l op h => liveNext_finalized lib q l op m h) l ops h

theorem run_steady (ops : List LiveOp) (l : LiveSession) (h : Steady l.pipeline) :
    Steady (run (liveNext lib q) l ops).pipeline := by
  apply run_invariant (liveNext lib q) (fun l => Steady l.pipeline) _ l ops h
  intro l op hl
  cases op with
  | ingest op => exact (next_advances lib l.pipeline op hl).steady
  | stored store => exact hl
  | finalize d fault =>
    rw [liveNext, finalize_pipeline]
    exact hl

theorem newLiveSession_settled (sessionID : Bytes) (store : Database) :
    Settled (newLiveSession sessionID store) :=
  ⟨newPipeline_steady,fun _ h => nomatch h⟩

theorem Settled.agrees (l : LiveSession) (m : Manifest) (h : Settled l)
    (hm : l.finalized = some m) : Agrees m l := by
  obtain ⟨d, hd⟩ := h.built m hm
  exact agrees_of_built l d m h.steady hd

/-- A manifest that is remembered was returned by an earlier `Finalize`. -/
theorem finalized_returned (l : LiveSession) (ops : List LiveOp) (m : Manifest)
    (hfresh : l.finalized = none) (h : (run (liveNext lib q) l ops).finalized = some m) :
    ∃ before d fault after, ops = before++.finalize d fault::after ∧
      ((run (liveNext lib q) l before).finalize q d fault).2 = .ok m := by
  induction ops using List.reverseRecOn with
  | nil =>
    rw [show (run (liveNext lib q) l []).finalized = none from hfresh] at h
    cases h
  | append_singleton ops op ih =>
    have hearlier : (run (liveNext lib q) l ops).finalized = some m →
        ∃ before d fault after, ops++[op] = before++.finalize d fault::after ∧
          ((run (liveNext lib q) l before).finalize q d fault).2 = .ok m := by
      intro hops
      obtain ⟨before, d, fault, after, rfl, hreturned⟩ := ih hops
      exact ⟨before,d,fault,after++[op],by simp,hreturned⟩
    rw [run_append] at h
    cases op with
    | ingest op => exact hearlier h
    | stored store => exact hearlier h
    | finalize d fault =>
      exact ⟨ops,d,fault,[],rfl,(finalize_returned q _ d fault m).mpr h⟩

theorem agrees_counts (l l' : LiveSession) (m : Manifest) (h : Agrees m l) (h' : Agrees m l') :
    Int64.ofNat l.pipeline.sink.leaves.length = Int64.ofNat l'.pipeline.sink.leaves.length := by
  obtain ⟨snap, hsnap, hcount, -⟩ := h.snapshot
  obtain ⟨snap', hsnap', hcount', -⟩ := h'.snapshot
  rw [← snapshot_count l snap hsnap, ← snapshot_count l' snap' hsnap', hcount, hcount']

theorem delivered_disagrees (l : LiveSession) (op : Op) (m : Manifest) (hs : Steady l.pipeline)
    (h : Agrees m l) (hdelivers : Delivers lib l.pipeline op) :
    ¬Agrees m { l with pipeline := next lib l.pipeline op } := by
  intro h'
  obtain ⟨hsteady, more, hsegments, hlength⟩ := next_advances lib l.pipeline op hs
  have hcount := agrees_counts l _ m h h'
  rw [hs.leaves, hsteady.leaves, hsegments, List.length_map, List.length_map, List.length_append,
    hlength, if_pos hdelivers, Int64.ofNat_add] at hcount
  have hone : Int64.ofNat 1 = 0 := Int64.add_eq_left.mp hcount.symm
  cases hone

/-- After a `Finalize` that returns a manifest the live view stays that of the
manifest exactly if no frame and no close hands over a segment any more. -/
theorem finalised_is_final (sessionID : Bytes) (store : Database) (ops : List LiveOp) :
    FinalIsFinal lib q (newLiveSession sessionID store) ops ↔
      Along (liveNext lib q) (Quiet lib) (newLiveSession sessionID store) ops := by
  have hsettled := newLiveSession_settled sessionID store
  constructor
  · intro h
    rw [along_iff]
    intro before op hop
    cases op with
    | finalize d fault => trivial
    | stored store => trivial
    | ingest op =>
      intro hfinal hdelivers
      obtain ⟨m, hm⟩ := Option.isSome_iff_exists.mp hfinal
      obtain ⟨earlier, d, fault, after, rfl, hreturned⟩ :=
        finalized_returned lib q _ before m rfl hm
      have hbefore := h earlier after d fault m ((List.prefix_append _ _).trans hop) hreturned
      have hafter := h earlier (after++[.ingest op]) d fault m (by simpa using hop) hreturned
      have hsteady := run_steady lib q (earlier++.finalize d fault::after) _ hsettled.steady
      apply delivered_disagrees lib _ op m hsteady hbefore hdelivers
      rw [← List.cons_append, ← List.append_assoc, run_append] at hafter
      exact hafter
  · rintro halong before after d fault m ⟨rest, rfl⟩ hreturned
    rw [along_append] at halong
    have hend := along_invariant (liveNext lib q) (Quiet lib) Settled
      (fun l op hl hquiet => liveNext_settled lib q l op hl hquiet) _ _ hsettled halong.1
    apply hend.agrees
    rw [run_append]
    exact run_finalized lib q after _ m ((finalize_returned q _ d fault m).mp hreturned)

section Samples

def sampleSession : LiveSession := newLiveSession (ascii "s1") KeyValue.Map.empty

def closedStream : List LiveOp := [.ingest (.onVideoFrame sampleKeyframe), .ingest .close]

def lateKeyframe : List LiveOp := closedStream++.finalize 6 none::closedStream

/-- The close does not keep the segmenter from a segment that was not pinned. -/
theorem late_keyframe_unpinned :
    let l := run (liveNext sampleMp4 ⟨0, 0⟩) sampleSession (closedStream++[.finalize 6 none])
    let l' := run (liveNext sampleMp4 ⟨0, 0⟩) sampleSession lateKeyframe
    (l.finalized.map Manifest.segmentCount = some 1 ∧ l'.pipeline.sink.leaves.length = 2) ∧
    ¬FinalIsFinal sampleMp4 ⟨0, 0⟩ sampleSession lateKeyframe := by
  intro l l'
  have hpinned : l.finalized.map Manifest.segmentCount = some 1 := by decide +kernel
  have hone : l.pipeline.sink.leaves.length = 1 := by decide +kernel
  have htwo : l'.pipeline.sink.leaves.length = 2 := by decide +kernel
  refine ⟨⟨hpinned,htwo⟩, ?_⟩
  intro h
  obtain ⟨m, hm, -⟩ := Option.map_eq_some_iff.mp hpinned
  have hl : l = ((run (liveNext sampleMp4 ⟨0, 0⟩) sampleSession closedStream).finalize ⟨0, 0⟩ 6 none).1 :=
    run_append _ _ _ _
  rw [hl, ← finalize_returned] at hm
  have hcount := agrees_counts l l' m
    (h closedStream [] 6 none m ⟨closedStream,by simp [lateKeyframe]⟩ hm)
    (h closedStream closedStream 6 none m (List.prefix_refl _) hm)
  rw [hone, htwo] at hcount
  exact absurd hcount (by decide)

end Samples

end Aevia.Whip
