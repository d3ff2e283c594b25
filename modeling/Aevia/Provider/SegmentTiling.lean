import Aevia.Foundation.Chunking
import Aevia.Foundation.Fallible
import Aevia.Foundation.Run
import Aevia.Provider.Segmenter

/-!
# Segments tile the stream

The segmenter refines a stream that is cut into chunks: emitted segments are the
kept chunks, in order, segments without a keyframe are dropped ones, and the
pending samples are what is still to be cut. The sink and the segmenter count
segments in 32 bits and agree on the count.
-/

set_option autoImplicit false

namespace Aevia.Whip
open Aevia.Chunking Aevia.Fallible Aevia.GoError Aevia.Manifests Aevia.Run

structure MediaCall where
  index : UInt32
  bytes : Bytes
  durationTicks : UInt32
  accepted : Bool
  deriving DecidableEq

def SinkCall.media : SinkCall → Option MediaCall
  | .onMediaSegment index bytes ticks accepted => some ⟨index, bytes, ticks, accepted⟩
  | _ => none

def SinkCall.isInit : SinkCall → Bool
  | .onInitSegment .. => true
  | _ => false

def mediaCalls (calls : List SinkCall) : List MediaCall := calls.filterMap SinkCall.media

@[simp] theorem mediaCalls_append (calls more : List SinkCall) :
    mediaCalls (calls++more) = mediaCalls calls++mediaCalls more :=
  List.filterMap_append

def sampleData (f : VideoFrame) : Bytes := encodeAVCCSample f.nal

variable (lib : Mp4)

def Carries (call : MediaCall) (chunk : List VideoFrame) : Prop :=
  ∃ sequenceNumber samples, samples.map Sample.data = chunk.map sampleData ∧
    lib.encodeSegment ⟨sequenceNumber, 1, fullSamples lib true samples⟩ = .ok call.bytes ∧
    call.durationTicks = totalTicks samples

structure SegmentsSucceed : Prop where
  create : ∀ sequenceNumber trackID, (lib.createFragment sequenceNumber trackID).isOk = true
  encode : ∀ fragment, (lib.encodeSegment fragment).isOk = true

/-- The pipeline as a chunked stream. -/
structure Refines (c : Chunks VideoFrame) (s : Pipeline) : Prop where
  samples : s.seg.segmentSamples.map Sample.data = c.pending.map sampleData
  key : s.seg.segmentHasKey = c.pending.any VideoFrame.keyframe
  dropped : ∀ chunk ∈ c.dropped, ∀ f ∈ chunk, f.keyframe = false
  media : List.Forall₂ (Carries lib) (mediaCalls s.calls) c.kept
  counted : ∀ (i : ℕ) (call : MediaCall), (mediaCalls s.calls)[i]? = some call →
    call.index = UInt32.ofNat i ∧ call.accepted = true
  nextIndex : s.seg.nextSegmentIndex = UInt32.ofNat (mediaCalls s.calls).length
  stored : s.sink.segments = (mediaCalls s.calls).map MediaCall.bytes
  leaves : s.sink.leaves = s.sink.segments.map hashLeaf

structure Untouched (s s' : Pipeline) : Prop where
  samples : s'.seg.segmentSamples.map Sample.data = s.seg.segmentSamples.map Sample.data
  key : s'.seg.segmentHasKey = s.seg.segmentHasKey
  nextIndex : s'.seg.nextSegmentIndex = s.seg.nextSegmentIndex
  media : mediaCalls s'.calls = mediaCalls s.calls
  stored : s'.sink.segments = s.sink.segments
  leaves : s'.sink.leaves = s.sink.leaves

theorem Refines.untouched (c : Chunks VideoFrame) (s s' : Pipeline) (h : Refines lib c s)
    (hs : Untouched s s') : Refines lib c s' where
  samples := hs.samples.trans h.samples
  key := hs.key.trans h.key
  dropped := h.dropped
  media := by
    rw [hs.media]
    exact h.media
  counted := by
    rw [hs.media]
    exact h.counted
  nextIndex := by
    rw [hs.nextIndex, hs.media]
    exact h.nextIndex
  stored := by
    rw [hs.stored, hs.media]
    exact h.stored
  leaves := by
    rw [hs.leaves, hs.stored]
    exact h.leaves

@[simp] theorem map_data_modifyLast (g : Sample → Sample) (hg : ∀ s, (g s).data = s.data)
    (samples : List Sample) :
    (samples.modifyLast g).map Sample.data = samples.map Sample.data := by
  rcases List.eq_nil_or_concat samples with rfl | ⟨front, last, rfl⟩
  · rfl
  · simp [List.modifyLast_concat, hg]

theorem map_data_stampLast (samples : List Sample) :
    (stampLast samples).map Sample.data = samples.map Sample.data := by
  apply map_data_modifyLast
  intro s
  by_cases h : s.dur = 0
  · rw [if_pos h]
  · rw [if_neg h]

structure Emits (s s' : Pipeline) : Prop where
  initEmitted : s'.seg.initEmitted = s.seg.initEmitted
  calls : ∃ more, s'.calls = s.calls++more ∧ ∀ call ∈ more, call.isInit = false

theorem Emits.silent (s s' : Pipeline) (hinit : s'.seg.initEmitted = s.seg.initEmitted)
    (hcalls : s'.calls = s.calls) : Emits s s' :=
  ⟨hinit,[],by rw [hcalls, List.append_nil],fun _ h => (List.not_mem_nil h).elim⟩

theorem Emits.one (s s' : Pipeline) (hinit : s'.seg.initEmitted = s.seg.initEmitted)
    (call : SinkCall) (hcalls : s'.calls = s.calls++[call]) (hcall : call.isInit = false) :
    Emits s s' := by
  refine ⟨hinit, [call], hcalls, ?_⟩
  intro other hother
  rw [List.mem_singleton.mp hother]
  exact hcall

theorem Emits.trans (s t u : Pipeline) (h : Emits s t) (g : Emits t u) : Emits s u := by
  obtain ⟨more, hmore, hnone⟩ := h.calls
  obtain ⟨rest, hrest, hnone'⟩ := g.calls
  refine ⟨g.initEmitted.trans h.initEmitted, more++rest, ?_, ?_⟩
  · rw [hrest, hmore, List.append_assoc]
  · intro call hcall
    rcases List.mem_append.mp hcall with hcall | hcall
    · exact hnone call hcall
    · exact hnone' call hcall

theorem buildMediaSegment_ok (hlib : SegmentsSucceed lib) (seg : CMAFSegmenter) :
    ∃ bytes, lib.encodeSegment ⟨seg.sequenceNumber, 1, fullSamples lib true seg.segmentSamples⟩ =
      .ok bytes ∧ buildMediaSegment lib seg = .ok (bytes, totalTicks seg.segmentSamples) := by
  obtain ⟨u, hcreate⟩ := exists_ok _ (hlib.create seg.sequenceNumber 1)
  obtain ⟨bytes, hencode⟩ := exists_ok _
    (hlib.encode ⟨seg.sequenceNumber, 1, fullSamples lib true seg.segmentSamples⟩)
  refine ⟨bytes, hencode, ?_⟩
  rw [buildMediaSegment, hcreate, hencode]
  rfl

theorem onMediaSegment_accepted (s : Pipeline) (index : UInt32) (bytes : Bytes) (ticks : UInt32)
    (h : UInt32.ofNat s.sink.leaves.length = index) :
    s.onMediaSegment index bytes ticks =
      ({ s with
        sink := { s.sink with
          leaves := s.sink.leaves++[hashLeaf bytes]
          segments := s.sink.segments++[bytes] }
        calls := s.calls++[.onMediaSegment index bytes ticks true] }, none) := by
  simp [Pipeline.onMediaSegment, LivePinSink.onMediaSegment, h]

theorem Refines.length (c : Chunks VideoFrame) (s : Pipeline) (h : Refines lib c s) :
    UInt32.ofNat s.sink.leaves.length = s.seg.nextSegmentIndex := by
  rw [h.leaves, h.stored, h.nextIndex, List.length_map, List.length_map]

theorem any_keyframe_false (frames : List VideoFrame)
    (h : frames.any VideoFrame.keyframe = false) : ∀ f ∈ frames, f.keyframe = false := by
  simpa using h

def flushed (s : Pipeline) (bytes : Bytes) : Pipeline where
  seg := { s.seg with
    nextSegmentIndex := s.seg.nextSegmentIndex+1
    totalSegments := s.seg.totalSegments+1
    sequenceNumber := s.seg.sequenceNumber+1
    segmentSamples := []
    segmentHasKey := false }
  sink := { s.sink with
    leaves := s.sink.leaves++[hashLeaf bytes]
    segments := s.sink.segments++[bytes] }
  calls := s.calls++[.onMediaSegment s.seg.nextSegmentIndex bytes
    (totalTicks (stampLast s.seg.segmentSamples)) true]

theorem flushLocked_keyed (hlib : SegmentsSucceed lib) (c : Chunks VideoFrame) (s : Pipeline)
    (h : Refines lib c s) (hsamples : s.seg.segmentSamples ≠ [])
    (hkey : s.seg.segmentHasKey = true) :
    ∃ bytes, lib.encodeSegment ⟨s.seg.sequenceNumber, 1,
        fullSamples lib true (stampLast s.seg.segmentSamples)⟩ = .ok bytes ∧
      flushLocked lib s = (flushed s bytes, none) := by
  obtain ⟨bytes, hencode, hbuild⟩ := buildMediaSegment_ok lib hlib
    { s.seg with segmentSamples := stampLast s.seg.segmentSamples }
  refine ⟨bytes, hencode, ?_⟩
  have hkeyed : ¬s.seg.segmentHasKey = false := by
    rw [hkey]
    decide
  simp only [flushLocked, if_neg hsamples, if_neg hkeyed, hbuild]
  exact onMediaSegment_accepted _ _ _ _ (Refines.length lib c s h)

theorem Refines.flushed (c : Chunks VideoFrame) (s : Pipeline) (h : Refines lib c s)
    (bytes : Bytes)
    (hencode : lib.encodeSegment ⟨s.seg.sequenceNumber, 1,
      fullSamples lib true (stampLast s.seg.segmentSamples)⟩ = .ok bytes) :
    Refines lib (c.cut true) (flushed s bytes) := by
  have hcalls : mediaCalls (Whip.flushed s bytes).calls = mediaCalls s.calls++
      [⟨s.seg.nextSegmentIndex, bytes, totalTicks (stampLast s.seg.segmentSamples), true⟩] := by
    simp [Whip.flushed, mediaCalls, SinkCall.media]
  constructor
  · rfl
  · rfl
  · rw [Chunks.dropped_cut_true]
    exact h.dropped
  · rw [hcalls, Chunks.kept_cut_true]
    apply List.rel_append h.media
    refine .cons ⟨s.seg.sequenceNumber, _, ?_, hencode, rfl⟩ .nil
    rw [map_data_stampLast, h.samples]
  · intro i call hi
    rw [hcalls] at hi
    rcases lt_or_ge i (mediaCalls s.calls).length with hlt | hge
    · rw [List.getElem?_append_left hlt] at hi
      exact h.counted i call hi
    · rw [List.getElem?_append_right hge, List.getElem?_singleton] at hi
      split_ifs at hi with hzero
      obtain rfl := Option.some.inj hi
      have hi : i = (mediaCalls s.calls).length := by omega
      exact ⟨by rw [hi]; exact h.nextIndex,rfl⟩
  · rw [hcalls, List.length_append, List.length_singleton, UInt32.ofNat_add]
    exact congrArg (·+1) h.nextIndex
  · rw [hcalls, List.map_append, ← h.stored]
    rfl
  · simp [Whip.flushed, h.leaves]

theorem Refines.discarded (c : Chunks VideoFrame) (s : Pipeline) (h : Refines lib c s)
    (hkey : s.seg.segmentHasKey = false) :
    Refines lib (c.cut false) { s with seg := { s.seg with segmentSamples := [] } } where
  samples := rfl
  key := hkey
  dropped := by
    intro chunk hchunk
    rw [Chunks.dropped_cut_false, List.mem_append, List.mem_singleton] at hchunk
    rcases hchunk with hchunk | rfl
    · exact h.dropped chunk hchunk
    · exact any_keyframe_false c.pending (h.key ▸ hkey)
  media := by
    rw [Chunks.kept_cut_false]
    exact h.media
  counted := h.counted
  nextIndex := h.nextIndex
  stored := h.stored
  leaves := h.leaves

theorem flushLocked_refines (hlib : SegmentsSucceed lib) (c : Chunks VideoFrame) (s : Pipeline)
    (h : Refines lib c s) :
    ∃ c', Refines lib c' (flushLocked lib s).1 ∧ c'.contents = c.contents ∧
      (flushLocked lib s).2 = none ∧ Emits s (flushLocked lib s).1 := by
  by_cases hsamples : s.seg.segmentSamples = []
  · rw [flushLocked, if_pos hsamples]
    exact ⟨c,h,rfl,rfl,Emits.silent s _ rfl rfl⟩
  · cases hkey : s.seg.segmentHasKey with
    | false =>
      rw [flushLocked, if_neg hsamples, if_pos hkey]
      exact ⟨c.cut false,h.discarded lib c s hkey,Chunks.contents_cut c false,rfl,
        Emits.silent s _ rfl rfl⟩
    | true =>
      obtain ⟨bytes, hencode, hflush⟩ := flushLocked_keyed lib hlib c s h hsamples hkey
      rw [hflush]
      exact ⟨c.cut true,h.flushed lib c s bytes hencode,Chunks.contents_cut c true,rfl,
        Emits.one s _ rfl _ rfl rfl⟩

theorem emitPartLocked_untouched (s : Pipeline) :
    Untouched s (emitPartLocked lib s).1 ∧ Emits s (emitPartLocked lib s).1 := by
  have hself : Untouched s s ∧ Emits s s := ⟨⟨rfl,rfl,rfl,rfl,rfl,rfl⟩,Emits.silent s s rfl rfl⟩
  by_cases hdone : s.seg.segmentSamples.length ≤ s.seg.partStartSampleIdx
  · rwa [emitPartLocked, if_pos hdone]
  · simp only [emitPartLocked, if_neg hdone]
    split
    · exact hself
    · simp only [Pipeline.onMediaPart]
      split
      · rename_i sink hsink
        simp only [LivePinSink.onMediaPart, guard_ok, Except.ok.injEq] at hsink
        obtain ⟨-, rfl⟩ := hsink
        exact ⟨⟨rfl,rfl,rfl,by simp [mediaCalls, SinkCall.media],rfl,rfl⟩,Emits.one s _ rfl _ rfl rfl⟩
      · exact ⟨⟨rfl,rfl,rfl,by simp [mediaCalls, SinkCall.media],rfl,rfl⟩,Emits.one s _ rfl _ rfl rfl⟩

theorem emitDuePart_untouched (s : Pipeline) (f : VideoFrame) :
    Untouched s (emitDuePart lib s f).1 ∧ Emits s (emitDuePart lib s f).1 := by
  unfold emitDuePart
  split
  · exact emitPartLocked_untouched lib s
  · exact ⟨⟨rfl,rfl,rfl,rfl,rfl,rfl⟩,Emits.silent s s rfl rfl⟩

theorem startSegment_untouched (s : Pipeline) (f : VideoFrame) :
    Untouched s (startSegment s f) ∧ Emits s (startSegment s f) :=
  ⟨⟨rfl,rfl,rfl,rfl,rfl,rfl⟩,Emits.silent s _ rfl rfl⟩

theorem cutSegment_refines (hlib : SegmentsSucceed lib) (c : Chunks VideoFrame) (s : Pipeline)
    (f : VideoFrame) (h : Refines lib c s) :
    ∃ c', Refines lib c' (cutSegment lib s f).1 ∧ c'.contents = c.contents ∧
      (cutSegment lib s f).2 = none ∧ Emits s (cutSegment lib s f).1 := by
  unfold cutSegment
  split
  · obtain ⟨c', hc', hcontents, hnone, hemits⟩ := flushLocked_refines lib hlib c s h
    generalize flushLocked lib s = outcome at hc' hnone hemits ⊢
    obtain ⟨t, e⟩ := outcome
    obtain rfl : e = none := hnone
    obtain ⟨hsame, hsilent⟩ := startSegment_untouched t f
    exact ⟨c',hc'.untouched lib c' t _ hsame,hcontents,rfl,Emits.trans s t _ hemits hsilent⟩
  · exact ⟨c,h,rfl,rfl,Emits.silent s s rfl rfl⟩

theorem appendSample_refines (c : Chunks VideoFrame) (s : Pipeline) (f : VideoFrame)
    (h : Refines lib c s) : Refines lib (c.push f) (appendSample s f) where
  samples := by
    simp only [appendSample, Chunks.push, List.map_append, List.map_cons, List.map_nil]
    rw [map_data_modifyLast, h.samples]
    · rfl
    · intro x
      rfl
  key := by
    simp only [appendSample, Chunks.push, List.any_append, ← h.key]
    cases hf : f.keyframe <;> simp [hf]
  dropped := h.dropped
  media := h.media
  counted := h.counted
  nextIndex := h.nextIndex
  stored := h.stored
  leaves := h.leaves

/-- Before the init segment nothing was called for and nothing is pending; after
it, it was the first call and the only one of its kind. -/
structure InitOnce (s : Pipeline) : Prop where
  before : s.seg.initEmitted = false →
    s.calls = [] ∧ s.sink.initSeg = [] ∧ s.seg.segmentSamples = []
  after : s.seg.initEmitted = true →
    ∃ bytes rest, s.calls = .onInitSegment bytes true::rest ∧ ∀ call ∈ rest, call.isInit = false

theorem InitOnce.emits (s t : Pipeline) (hs : InitOnce s) (hinit : s.seg.initEmitted = true)
    (h : Emits s t) : InitOnce t where
  before := by
    intro hfalse
    rw [h.initEmitted, hinit] at hfalse
    cases hfalse
  after := by
    intro _
    obtain ⟨bytes, rest, hcalls, hrest⟩ := hs.after hinit
    obtain ⟨more, hmore, hnone⟩ := h.calls
    refine ⟨bytes, rest++more, by rw [hmore, hcalls, List.cons_append], ?_⟩
    intro call hcall
    rcases List.mem_append.mp hcall with hcall | hcall
    · exact hrest call hcall
    · exact hnone call hcall

theorem captureUnit_same (seg : CMAFSegmenter) (unit : Bytes) :
    ∃ sps pps, captureUnit seg unit = { seg with sps := sps, pps := pps } := by
  unfold captureUnit
  split_ifs
  · exact ⟨seg.sps,seg.pps,rfl⟩
  · exact ⟨unit,seg.pps,rfl⟩
  · exact ⟨seg.sps,unit,rfl⟩
  · exact ⟨seg.sps,seg.pps,rfl⟩

theorem captureUnits_same (units : List Bytes) (seg : CMAFSegmenter) :
    ∃ sps pps, units.foldl captureUnit seg = { seg with sps := sps, pps := pps } := by
  induction units generalizing seg with
  | nil => exact ⟨seg.sps,seg.pps,rfl⟩
  | cons unit units ih =>
    obtain ⟨sps, pps, hunit⟩ := captureUnit_same seg unit
    obtain ⟨sps', pps', hrest⟩ := ih (captureUnit seg unit)
    refine ⟨sps', pps', ?_⟩
    rw [List.foldl_cons, hrest, hunit]

theorem captureParameterSets_untouched (s : Pipeline) (f : VideoFrame) :
    Untouched s (captureParameterSets s f) ∧
    (captureParameterSets s f).seg.initEmitted = s.seg.initEmitted ∧
    (InitOnce s → InitOnce (captureParameterSets s f)) := by
  obtain ⟨sps, pps, hseg⟩ := captureUnits_same (splitNALUnits f.nal) s.seg
  rw [captureParameterSets, hseg]
  exact ⟨⟨rfl,rfl,rfl,rfl,rfl,rfl⟩,rfl,fun h => ⟨h.before,h.after⟩⟩

/-- What precedes the buffering of a frame leaves the buffer, its clock and its
cursors alone, and calls for nothing but the init segment. -/
structure Prepared (s s' : Pipeline) : Prop where
  seg : ∃ sps pps emitted, s'.seg = { s.seg with sps := sps, pps := pps, initEmitted := emitted }
  calls : ∃ more, s'.calls = s.calls++more ∧ ∀ call ∈ more, call.isInit = true
  segments : s'.sink.segments = s.sink.segments
  leaves : s'.sink.leaves = s.sink.leaves
  parts : s'.sink.parts = s.sink.parts

theorem onInitSegment_prepared (s : Pipeline) (bytes : Bytes) :
    (s.onInitSegment bytes).1.seg = s.seg ∧ Prepared s (s.onInitSegment bytes).1 := by
  have hseg : ∃ sps pps emitted, s.seg = { s.seg with sps := sps, pps := pps, initEmitted := emitted } :=
    ⟨s.seg.sps,s.seg.pps,s.seg.initEmitted,rfl⟩
  unfold Pipeline.onInitSegment
  cases hsink : s.sink.onInitSegment bytes with
  | error e => exact ⟨rfl,hseg,⟨_,rfl,by simp [SinkCall.isInit]⟩,rfl,rfl,rfl⟩
  | ok sink =>
    simp only [LivePinSink.onInitSegment, guard_ok, Except.ok.injEq] at hsink
    obtain ⟨-, rfl⟩ := hsink
    exact ⟨rfl,hseg,⟨_,rfl,by simp [SinkCall.isInit]⟩,rfl,rfl,rfl⟩

theorem emitInit_prepared (s : Pipeline) : Prepared s (emitInit lib s).1 := by
  have hself : Prepared s s :=
    ⟨⟨s.seg.sps,s.seg.pps,s.seg.initEmitted,rfl⟩,⟨[],by simp⟩,rfl,rfl,rfl⟩
  fun_cases emitInit
  case case1 => exact hself
  case case2 hdue initBytes hbuild t e hcall =>
    obtain ⟨-, hprepared⟩ := onInitSegment_prepared s initBytes
    rw [hcall] at hprepared
    exact hprepared
  case case3 hdue initBytes hbuild t hcall =>
    obtain ⟨hseg, hprepared⟩ := onInitSegment_prepared s initBytes
    rw [hcall] at hseg hprepared
    have hseg : t.seg = s.seg := hseg
    refine ⟨⟨s.seg.sps,s.seg.pps,true,?_⟩, hprepared.calls, hprepared.segments, hprepared.leaves,
      hprepared.parts⟩
    rw [hseg]
  case case4 => exact hself

theorem prepared (s : Pipeline) (f : VideoFrame) :
    Prepared s (emitInit lib (captureParameterSets s f)).1 := by
  have hemit := emitInit_prepared lib (captureParameterSets s f)
  obtain ⟨sps, pps, hcapture⟩ := captureUnits_same (splitNALUnits f.nal) s.seg
  obtain ⟨sps', pps', emitted, hseg⟩ := hemit.seg
  refine ⟨⟨sps',pps',emitted,?_⟩, hemit.calls, hemit.segments, hemit.leaves, hemit.parts⟩
  rw [hseg, captureParameterSets, hcapture]

theorem mediaCalls_inits (calls : List SinkCall) (h : ∀ call ∈ calls, call.isInit = true) :
    mediaCalls calls = [] := by
  rw [mediaCalls, List.filterMap_eq_nil_iff]
  intro call hcall
  cases call with
  | onInitSegment bytes accepted => rfl
  | _ => cases h _ hcall

theorem Prepared.untouched (s s' : Pipeline) (h : Prepared s s') : Untouched s s' := by
  obtain ⟨sps, pps, emitted, hseg⟩ := h.seg
  obtain ⟨more, hcalls, hinits⟩ := h.calls
  refine ⟨?_, ?_, ?_, ?_, h.segments, h.leaves⟩
  · rw [hseg]
  · rw [hseg]
  · rw [hseg]
  · rw [hcalls, mediaCalls_append, mediaCalls_inits more hinits, List.append_nil]

theorem emitInit_once (c : Chunks VideoFrame) (s : Pipeline) (h : Refines lib c s)
    (hs : InitOnce s) :
    Refines lib c (emitInit lib s).1 ∧ InitOnce (emitInit lib s).1 ∧
    ((emitInit lib s).2 ≠ none → (emitInit lib s).1.seg.initEmitted = false) ∧
    (s.seg.initEmitted = true → (emitInit lib s).1.seg.initEmitted = true) := by
  by_cases hdue : s.seg.initEmitted = false ∧ s.seg.sps ≠ [] ∧ s.seg.pps ≠ []
  · obtain ⟨hcalls, hunset, hsamples⟩ := hs.before hdue.1
    have hfalse : s.seg.initEmitted = true → False := by
      intro htrue
      rw [hdue.1] at htrue
      cases htrue
    rw [emitInit, if_pos hdue]
    cases hbuild : buildInitSegment lib s.seg with
    | error e => exact ⟨h,hs,fun _ => hdue.1,fun htrue => (hfalse htrue).elim⟩
    | ok initBytes =>
      simp only [Pipeline.onInitSegment, LivePinSink.onInitSegment, if_neg (not_not.mpr hunset),
        hcalls, List.nil_append]
      have hmedia : mediaCalls s.calls = mediaCalls [.onInitSegment initBytes true] := by
        rw [hcalls]
        rfl
      refine ⟨h.untouched lib c s _ ⟨rfl,rfl,rfl,hmedia.symm,rfl,rfl⟩, ⟨?_, ?_⟩, ?_, fun _ => trivial⟩
      · intro hinit
        cases hinit
      · intro _
        exact ⟨initBytes,[],rfl,fun _ hmem => (List.not_mem_nil hmem).elim⟩
      · intro hne
        exact (hne rfl).elim
  · rw [emitInit, if_neg hdue]
    exact ⟨h,hs,fun hne => (hne rfl).elim,id⟩

theorem bufferFrame_refines (hlib : SegmentsSucceed lib) (c : Chunks VideoFrame) (s : Pipeline)
    (f : VideoFrame) (h : Refines lib c s) :
    ∃ c', Refines lib c' (bufferFrame lib s f).1 ∧ c'.contents = c.contents++[f] ∧
      Emits s (bufferFrame lib s f).1 := by
  have hstart : ∀ t, t = (if s.seg.segmentSamples = [] then startSegment s f else s) →
      Refines lib c t ∧ Emits s t := by
    intro t ht
    by_cases hempty : s.seg.segmentSamples = []
    · rw [ht, if_pos hempty]
      obtain ⟨hsame, hsilent⟩ := startSegment_untouched s f
      exact ⟨h.untouched lib c s _ hsame,hsilent⟩
    · rw [ht, if_neg hempty]
      exact ⟨h,Emits.silent s s rfl rfl⟩
  unfold bufferFrame
  generalize (if s.seg.segmentSamples = [] then startSegment s f else s) = t at hstart
  obtain ⟨ht, hemits⟩ := hstart t rfl
  obtain ⟨c', hc', hcontents, hnone, hcut⟩ := cutSegment_refines lib hlib c t f ht
  simp only
  generalize cutSegment lib t f = outcome at hc' hnone hcut ⊢
  obtain ⟨u, e⟩ := outcome
  obtain rfl : e = none := hnone
  have happend := appendSample_refines lib c' u f hc'
  obtain ⟨hsame, hpart⟩ := emitDuePart_untouched lib (appendSample u f) f
  refine ⟨c'.push f, happend.untouched lib _ _ _ hsame, ?_, ?_⟩
  · rw [Chunks.contents_push, hcontents]
  · exact Emits.trans s u _ (Emits.trans s t u hemits hcut)
      (Emits.trans u (appendSample u f) _ (Emits.silent u _ rfl rfl) hpart)

theorem onVideoFrame_refines (hlib : SegmentsSucceed lib) (c : Chunks VideoFrame) (s : Pipeline)
    (f : VideoFrame) (h : Refines lib c s) (hs : InitOnce s) :
    ∃ c', Refines lib c' (onVideoFrame lib s f) ∧ InitOnce (onVideoFrame lib s f) ∧
      c'.contents = c.contents++
        if (onVideoFrame lib s f).seg.initEmitted then [f] else [] := by
  obtain ⟨hsame, -, honce⟩ := captureParameterSets_untouched s f
  obtain ⟨hrefines, hinit, herror, -⟩ := emitInit_once lib c (captureParameterSets s f)
    (h.untouched lib c s _ hsame) (honce hs)
  rw [onVideoFrame, ingestFrame]
  generalize emitInit lib (captureParameterSets s f) = outcome at hrefines hinit herror ⊢
  obtain ⟨t, e⟩ := outcome
  cases e with
  | some e =>
    have hfalse : t.seg.initEmitted = false := herror (by simp)
    exact ⟨c,hrefines,hinit,by simp [hfalse]⟩
  | none =>
    by_cases hemitted : t.seg.initEmitted = false
    · simp only [if_pos hemitted]
      exact ⟨c,hrefines,hinit,by simp [hemitted]⟩
    · simp only [if_neg hemitted]
      rw [Bool.not_eq_false] at hemitted
      obtain ⟨c', hc', hcontents, hemits⟩ := bufferFrame_refines lib hlib c t f hrefines
      refine ⟨c', hc', hinit.emits t _ hemitted hemits, ?_⟩
      rw [hcontents, hemits.initEmitted, hemitted]
      rfl

theorem close_refines (hlib : SegmentsSucceed lib) (c : Chunks VideoFrame) (s : Pipeline)
    (h : Refines lib c s) (hs : InitOnce s) :
    ∃ c', Refines lib c' (close lib s).1 ∧ InitOnce (close lib s).1 ∧
      c'.contents = c.contents := by
  unfold close
  split
  · rename_i hpending
    obtain ⟨c', hc', hcontents, -, hemits⟩ := flushLocked_refines lib hlib c s h
    have hinit : s.seg.initEmitted = true := by
      by_contra hfalse
      rw [Bool.not_eq_true] at hfalse
      rw [(hs.before hfalse).2.2] at hpending
      exact lt_irrefl _ hpending
    exact ⟨c',hc',hs.emits s _ hinit hemits,hcontents⟩
  · exact ⟨c,h,hs,rfl⟩

def arrived : Pipeline → List Op → List VideoFrame
  | _, [] => []
  | s, .onVideoFrame f::ops =>
    (if (onVideoFrame lib s f).seg.initEmitted then [f] else [])++
      arrived (onVideoFrame lib s f) ops
  | s, .close::ops => arrived (close lib s).1 ops

theorem run_refines (hlib : SegmentsSucceed lib) (ops : List Op) (c : Chunks VideoFrame)
    (s : Pipeline) (h : Refines lib c s) (hs : InitOnce s) :
    ∃ c', Refines lib c' (run (next lib) s ops) ∧ InitOnce (run (next lib) s ops) ∧
      c'.contents = c.contents++arrived lib s ops := by
  induction ops generalizing c s with
  | nil => exact ⟨c,h,hs,(List.append_nil _).symm⟩
  | cons op ops ih =>
    cases op with
    | onVideoFrame f =>
      obtain ⟨c', hc', hinit, hcontents⟩ := onVideoFrame_refines lib hlib c s f h hs
      obtain ⟨c'', hc'', hinit', hcontents'⟩ := ih c' _ hc' hinit
      refine ⟨c'', hc'', hinit', ?_⟩
      rw [hcontents', hcontents, List.append_assoc]
      rfl
    | close =>
      obtain ⟨c', hc', hinit, hcontents⟩ := close_refines lib hlib c s h hs
      obtain ⟨c'', hc'', hinit', hcontents'⟩ := ih c' _ hc' hinit
      refine ⟨c'', hc'', hinit', ?_⟩
      rw [hcontents', hcontents]
      rfl

theorem newPipeline_refines : Refines lib Chunks.empty newPipeline where
  samples := rfl
  key := rfl
  dropped := fun _ h => (List.not_mem_nil h).elim
  media := .nil
  counted := fun _ _ h => by cases h
  nextIndex := rfl
  stored := rfl
  leaves := rfl

theorem newPipeline_once : InitOnce newPipeline :=
  ⟨fun _ => ⟨rfl,rfl,rfl⟩,fun h => by cases h⟩

/-- After any frames and closes, the frames ingested since the init segment are,
in order, the chunks that were closed and the pending buffer. The kept chunks are
carried by the segments handed to the sink, one by one, and no dropped chunk has
a keyframe. The sink refuses no segment; the `i`-th has index `i` in 32 bits.
The init segment was the first call, and the only one of its kind. -/
theorem segments_tile_stream (hlib : SegmentsSucceed lib) (ops : List Op) :
    let s := run (next lib) newPipeline ops
    (∃ c : Chunks VideoFrame, c.contents = arrived lib newPipeline ops ∧
      s.seg.segmentSamples.map Sample.data = c.pending.map sampleData ∧
      List.Forall₂ (Carries lib) (mediaCalls s.calls) c.kept ∧
      (∀ chunk ∈ c.dropped, ∀ f ∈ chunk, f.keyframe = false) ∧
      (c.kept.flatten++c.pending).Sublist (arrived lib newPipeline ops)) ∧
    (∀ (i : ℕ) (call : MediaCall), (mediaCalls s.calls)[i]? = some call →
      call.index = UInt32.ofNat i ∧ call.accepted = true) ∧
    s.sink.segments = (mediaCalls s.calls).map MediaCall.bytes ∧
    (s.calls = [] ∨ ∃ bytes rest, s.calls = .onInitSegment bytes true::rest ∧
      ∀ call ∈ rest, call.isInit = false) := by
  intro s
  obtain ⟨c, hc, hinit, hcontents⟩ := run_refines lib hlib ops Chunks.empty newPipeline
    (newPipeline_refines lib) newPipeline_once
  have harrived : c.contents = arrived lib newPipeline ops := hcontents
  refine ⟨⟨c, harrived, hc.samples, hc.media, hc.dropped, ?_⟩, hc.counted, hc.stored, ?_⟩
  · rw [← harrived]
    exact c.kept_sublist
  · cases hemitted : s.seg.initEmitted with
    | false => exact .inl (hinit.before hemitted).1
    | true => exact .inr (hinit.after hemitted)

section Samples

def sampleMp4 : Mp4 where
  nonSyncSampleFlags := 0x10000
  parseSPSNALUnit := fun _ => .ok (1280, 720)
  setAVCDescriptor := fun _ _ _ => .ok ()
  encodeInit := fun _ => .ok [1]
  createFragment := fun _ _ => .ok ()
  encodeSegment := fun fragment => .ok (fragment.samples.flatMap FullSample.data)

theorem sampleMp4_succeeds : SegmentsSucceed sampleMp4 := ⟨fun _ _ => rfl,fun _ => rfl⟩

def sampleKeyframe : VideoFrame :=
  ⟨[0x67, 1]++startCode++[0x68, 2]++startCode++[0x65, 3], 0, true⟩

def samplePicture : VideoFrame := ⟨[0x41, 4], 3000, false⟩

def sampleStream : List Op := [.onVideoFrame samplePicture, .onVideoFrame sampleKeyframe,
  .onVideoFrame samplePicture, .close, .onVideoFrame samplePicture]

theorem segments_tile_stream_sample :
    arrived sampleMp4 newPipeline sampleStream =
      [sampleKeyframe, samplePicture, samplePicture] ∧
    (run (next sampleMp4) newPipeline sampleStream).sink.segments.length = 1 ∧
    ∃ c : Chunks VideoFrame, c.contents = arrived sampleMp4 newPipeline sampleStream := by
  obtain ⟨⟨c, hc, -⟩, -⟩ := segments_tile_stream sampleMp4 sampleMp4_succeeds sampleStream
  exact ⟨by decide +kernel,by decide +kernel,c,hc⟩

end Samples

/-- A frame that opens a segment is never due for a cut or a part. -/
theorem bufferFrame_first (s : Pipeline) (f : VideoFrame) (hempty : s.seg.segmentSamples = []) :
    bufferFrame lib s f = (appendSample (startSegment s f) f, none) := by
  have hcut : cutSegment lib (startSegment s f) f = (startSegment s f, none) := by
    simp [cutSegment, segmentDue, startSegment, hempty]
  have hpart : emitDuePart lib (appendSample (startSegment s f) f) f =
      (appendSample (startSegment s f) f, none) := by
    simp [emitDuePart, appendSample, startSegment, partTargetDuration, videoTimescale]
  rw [bufferFrame, if_pos hempty]
  simp only [hcut, hpart]

structure Idle (s : Pipeline) : Prop where
  initEmitted : s.seg.initEmitted = true
  empty : s.seg.segmentSamples = []

theorem ingestFrame_idle (s : Pipeline) (f : VideoFrame) (hidle : Idle s) :
    ∃ t, Idle t ∧ Untouched s t ∧
      onVideoFrame lib s f = appendSample (startSegment t f) f := by
  obtain ⟨hsame, hinit, -⟩ := captureParameterSets_untouched s f
  have hempty : (captureParameterSets s f).seg.segmentSamples = [] := by
    have hdata := hsame.samples
    rw [hidle.empty] at hdata
    exact List.map_eq_nil_iff.mp hdata
  have hemitted : (captureParameterSets s f).seg.initEmitted = true := by
    rw [hinit, hidle.initEmitted]
  refine ⟨captureParameterSets s f, ⟨hemitted,hempty⟩, hsame, ?_⟩
  have hnodue : emitInit lib (captureParameterSets s f) = (captureParameterSets s f, none) := by
    rw [emitInit, if_neg (by simp [hemitted])]
  rw [onVideoFrame, ingestFrame, hnodue]
  simp only [if_neg (show ¬(captureParameterSets s f).seg.initEmitted = false by simp [hemitted]),
    bufferFrame_first lib _ f hempty]

theorem keyframe_close (hlib : SegmentsSucceed lib) (c : Chunks VideoFrame) (s : Pipeline)
    (f : VideoFrame) (h : Refines lib c s) (hidle : Idle s) (hkey : f.keyframe = true) :
    Idle (close lib (onVideoFrame lib s f)).1 ∧
    (mediaCalls (close lib (onVideoFrame lib s f)).1.calls).length =
      (mediaCalls s.calls).length+1 := by
  obtain ⟨t, ht, hsame, hframe⟩ := ingestFrame_idle lib s f hidle
  have hrefines : Refines lib (c.push f) (appendSample (startSegment t f) f) := by
    apply appendSample_refines
    exact (h.untouched lib c s t hsame).untouched lib c t _ (startSegment_untouched t f).1
  have hpending : (appendSample (startSegment t f) f).seg.segmentSamples ≠ [] := by
    simp [appendSample]
  have hkeyed : (appendSample (startSegment t f) f).seg.segmentHasKey = true := by
    simp [appendSample, hkey]
  obtain ⟨bytes, -, hflush⟩ := flushLocked_keyed lib hlib _ _ hrefines hpending hkeyed
  rw [hframe, close, if_pos (List.length_pos_iff.mpr hpending), hflush]
  refine ⟨⟨ht.initEmitted,rfl⟩, ?_⟩
  have hcalls : (appendSample (startSegment t f) f).calls = t.calls := rfl
  simp only [flushed, hcalls, mediaCalls_append, List.length_append, hsame.media]
  rfl

def keyframes (n : ℕ) : List Op :=
  (List.replicate n [Op.onVideoFrame sampleKeyframe, Op.close]).flatten

theorem keyframes_segments (n : ℕ) (s : Pipeline) (c : Chunks VideoFrame)
    (h : Refines sampleMp4 c s) (hs : InitOnce s) (hidle : Idle s) :
    (mediaCalls (run (next sampleMp4) s (keyframes n)).calls).length =
      (mediaCalls s.calls).length+n := by
  induction n generalizing s c with
  | zero => rfl
  | succ n ih =>
    obtain ⟨hidle', hlength⟩ := keyframe_close sampleMp4 sampleMp4_succeeds c s sampleKeyframe h
      hidle rfl
    obtain ⟨c', hc', hs', -⟩ := run_refines sampleMp4 sampleMp4_succeeds
      [.onVideoFrame sampleKeyframe, .close] c s h hs
    have hstep : keyframes (n+1) = [.onVideoFrame sampleKeyframe, .close]++keyframes n := rfl
    rw [hstep, run_append, ih _ c' hc' hs' hidle']
    show (mediaCalls (close sampleMp4 (onVideoFrame sampleMp4 s sampleKeyframe)).1.calls).length+n = _
    omega

theorem keyframes_from_start (n : ℕ) :
    (mediaCalls (run (next sampleMp4) newPipeline (keyframes (n+1))).calls).length = n+1 := by
  obtain ⟨c, hc, hs, -⟩ := run_refines sampleMp4 sampleMp4_succeeds (keyframes 1) Chunks.empty
    newPipeline (newPipeline_refines sampleMp4) newPipeline_once
  have hidle : Idle (run (next sampleMp4) newPipeline (keyframes 1)) :=
    ⟨by decide +kernel,by decide +kernel⟩
  have hfirst : (mediaCalls (run (next sampleMp4) newPipeline (keyframes 1)).calls).length = 1 := by
    decide +kernel
  have hstep : keyframes (n+1) = keyframes 1++keyframes n := rfl
  rw [hstep, run_append, keyframes_segments n _ c hc hs hidle, hfirst, Nat.add_comm]

/-- An index is 32 bits wide, so longer numberings are not told apart. -/
theorem indices_not_counting (calls : List MediaCall) (h : 2^32 < calls.length) :
    calls.map (fun call => call.index.toNat) ≠ List.range calls.length := by
  intro heq
  have hentry := congrArg (·[2^32]?) heq
  simp only [List.getElem?_map, List.getElem?_range h, Option.map_eq_some_iff] at hentry
  obtain ⟨call, -, hindex⟩ := hentry
  exact absurd call.index.toNat_lt (by omega)

/-- With one segment more than there are indices, they are not `0, 1, 2, ...`. -/
theorem segment_index_wraps :
    (mediaCalls (run (next sampleMp4) newPipeline (keyframes (2^32+1))).calls).map
        (fun call => call.index.toNat) ≠
      List.range (mediaCalls (run (next sampleMp4) newPipeline (keyframes (2^32+1))).calls).length := by
  apply indices_not_counting
  rw [keyframes_from_start]
  omega

end Aevia.Whip
