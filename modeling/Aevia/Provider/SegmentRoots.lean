import Aevia.Provider.SegmentTiling

/-!
# Segments start at keyframes

The first sample of a segment is marked as a sync sample, whatever it is. It is
one if the buffer never holds other frames when a keyframe joins it: a keyframe
that neither opens a segment nor closes one has to find one that has a keyframe.
-/

set_option autoImplicit false

namespace Aevia.Whip
open Aevia.Run

def Op.frames : Op → List VideoFrame
  | .onVideoFrame f => [f]
  | .close => []

def framesOf (ops : List Op) : List VideoFrame := ops.flatMap Op.frames

def Flagged (f : VideoFrame) : Prop := f.keyframe = isKeyframe f.nal

def StartsAtIDR (chunk : List VideoFrame) : Prop :=
  ∃ f rest, chunk = f::rest ∧ ∃ unit ∈ splitNALUnits f.nal, nalType unit = 5

variable (lib : Mp4)

/-- The segments handed over are made of frames of the stream, in order, and the
sync mark on the first sample of each is true. -/
def SyncTruthful (frames : List VideoFrame) (calls : List MediaCall) : Prop :=
  ∃ chunks : List (List VideoFrame), chunks.flatten.Sublist frames ∧
    List.Forall₂ (Carries lib) calls chunks ∧ ∀ chunk ∈ chunks, StartsAtIDR chunk

/-- A keyframe opens a segment, or joins one with a keyframe, or closes one. -/
def Rootable (s : Pipeline) : Op → Prop
  | .onVideoFrame f => f.keyframe = true → s.seg.segmentSamples = [] ∨
      s.seg.segmentHasKey = true ∨ segmentDue s.seg f = true
  | .close => True

instance (s : Pipeline) : ∀ op, Decidable (Rootable s op)
  | .onVideoFrame f => inferInstanceAs (Decidable (f.keyframe = true → _ ∨ _ ∨ _))
  | .close => .isTrue trivial

def StartsAtKeyframe (chunk : List VideoFrame) : Prop :=
  ∃ f rest, chunk = f::rest ∧ f.keyframe = true

/-- The pending frames are the last of what has been buffered, and a keyframe
leads them if there is one. -/
structure Rooted (frames pending : List VideoFrame) (chunks : List (List VideoFrame))
    (s : Pipeline) : Prop where
  samples : s.seg.segmentSamples.map Sample.data = pending.map sampleData
  root : s.seg.segmentHasKey = true → StartsAtKeyframe pending
  media : List.Forall₂ (Carries lib) (mediaCalls s.calls) chunks
  rooted : ∀ chunk ∈ chunks, StartsAtKeyframe chunk
  order : (chunks.flatten++pending).Sublist frames

section Steps
variable (frames pending : List VideoFrame) (chunks : List (List VideoFrame))

theorem Rooted.untouched (s s' : Pipeline) (h : Rooted lib frames pending chunks s)
    (hs : Untouched s s') : Rooted lib frames pending chunks s' where
  samples := hs.samples.trans h.samples
  root := by
    rw [hs.key]
    exact h.root
  media := by
    rw [hs.media]
    exact h.media
  rooted := h.rooted
  order := h.order

theorem Rooted.skip (s : Pipeline) (h : Rooted lib frames pending chunks s)
    (more : List VideoFrame) : Rooted lib (frames++more) pending chunks s :=
  { h with order := h.order.trans (List.sublist_append_left frames more) }

theorem mediaCalls_onMediaSegment (s : Pipeline) (index : UInt32) (bytes : Bytes) (ticks : UInt32) :
    ∃ accepted, mediaCalls (s.onMediaSegment index bytes ticks).1.calls =
        mediaCalls s.calls++[⟨index,bytes,ticks,accepted⟩] ∧
      (s.onMediaSegment index bytes ticks).1.seg = s.seg := by
  fun_cases Pipeline.onMediaSegment
  case case1 => exact ⟨true,by simp [mediaCalls, SinkCall.media],rfl⟩
  case case2 => exact ⟨false,by simp [mediaCalls, SinkCall.media],rfl⟩

theorem Rooted.pending_nil (s : Pipeline) (h : Rooted lib frames pending chunks s)
    (hnil : s.seg.segmentSamples = []) : pending = [] := by
  have hsamples := h.samples
  rw [hnil] at hsamples
  exact List.map_eq_nil_iff.mp hsamples.symm

theorem buildMediaSegment_carries (seg : CMAFSegmenter) (index : UInt32) (bytes : Bytes)
    (ticks : UInt32) (accepted : Bool) (chunk : List VideoFrame)
    (hbuild : buildMediaSegment lib seg = .ok (bytes, ticks))
    (hsamples : seg.segmentSamples.map Sample.data = chunk.map sampleData) :
    Carries lib ⟨index,bytes,ticks,accepted⟩ chunk := by
  obtain ⟨u, hcreate, hrest⟩ := (Fallible.bind_ok _ _ _).mp hbuild
  obtain ⟨encoded, hencode, hbytes⟩ := (Fallible.bind_ok _ _ _).mp hrest
  cases hbytes
  rw [GoError.context_ok] at hencode
  exact ⟨seg.sequenceNumber,seg.segmentSamples,hsamples,hencode,rfl⟩

theorem flushLocked_rooted (s : Pipeline) (h : Rooted lib frames pending chunks s) :
    ∃ pending' chunks', Rooted lib frames pending' chunks' (flushLocked lib s).1 ∧
      ((flushLocked lib s).2 = none → pending' = []) := by
  have hsub : chunks.flatten.Sublist frames := (List.sublist_append_left _ _).trans h.order
  fun_cases flushLocked
  case case1 hnil => exact ⟨pending,chunks,h,fun _ => h.pending_nil lib frames pending chunks s hnil⟩
  case case2 hsome hkeyless =>
    refine ⟨[], chunks, ?_, fun _ => rfl⟩
    exact {
      samples := rfl
      root := fun hkey => absurd hkey (by simp [hkeyless])
      media := h.media
      rooted := h.rooted
      order := by
        rw [List.append_nil]
        exact hsub }
  case case3 hsome hkeyed stamped e hbuild =>
    refine ⟨pending, chunks, ?_, fun hnone => nomatch hnone⟩
    exact { h with samples := (map_data_stampLast s.seg.segmentSamples).trans h.samples }
  case case4 hsome hkeyed stamped segBytes ticks hbuild =>
    have hkey : s.seg.segmentHasKey = true := Bool.eq_true_of_not_eq_false hkeyed
    obtain ⟨accepted, hmedia, hseg⟩ := mediaCalls_onMediaSegment { s with seg := { stamped with
      nextSegmentIndex := stamped.nextSegmentIndex+1
      totalSegments := stamped.totalSegments+1
      sequenceNumber := stamped.sequenceNumber+1
      segmentSamples := []
      segmentHasKey := false } } stamped.nextSegmentIndex segBytes ticks
    have hcarries := buildMediaSegment_carries lib stamped stamped.nextSegmentIndex segBytes ticks
      accepted pending hbuild ((map_data_stampLast s.seg.segmentSamples).trans h.samples)
    refine ⟨[], chunks++[pending], ?_, fun _ => rfl⟩
    constructor
    · rw [hseg]
      rfl
    · rw [hseg]
      exact fun hfalse => nomatch hfalse
    · rw [hmedia]
      exact List.rel_append h.media (.cons hcarries .nil)
    · intro chunk hchunk
      rcases List.mem_append.mp hchunk with hchunk | hchunk
      · exact h.rooted chunk hchunk
      · rw [List.mem_singleton.mp hchunk]
        exact h.root hkey
    · simpa using h.order

theorem appendSample_rooted (s : Pipeline) (f : VideoFrame) (h : Rooted lib frames pending chunks s)
    (hallowed : f.keyframe = true → pending = [] ∨ s.seg.segmentHasKey = true) :
    Rooted lib (frames++[f]) (pending++[f]) chunks (appendSample s f) where
  samples := by
    simp only [appendSample, List.map_append, List.map_cons, List.map_nil]
    rw [map_data_modifyLast, h.samples]
    · rfl
    · intro x
      rfl
  root := by
    intro hkey
    have hextend : StartsAtKeyframe pending → StartsAtKeyframe (pending++[f]) := by
      rintro ⟨g, rest, rfl, hg⟩
      exact ⟨g,rest++[f],rfl,hg⟩
    by_cases hkeyed : s.seg.segmentHasKey = true
    · exact hextend (h.root hkeyed)
    · have hf : f.keyframe = true := by
        by_contra hnot
        simp [appendSample, hnot, hkeyed] at hkey
      rcases hallowed hf with rfl | hcontra
      · exact ⟨f,[],rfl,hf⟩
      · exact absurd hcontra hkeyed
  media := h.media
  rooted := h.rooted
  order := by
    rw [← List.append_assoc]
    exact h.order.append_right [f]

theorem bufferFrame_rooted (s : Pipeline) (f : VideoFrame) (h : Rooted lib frames pending chunks s)
    (hrootable : Rootable s (.onVideoFrame f)) :
    ∃ pending' chunks', Rooted lib (frames++[f]) pending' chunks' (bufferFrame lib s f).1 := by
  by_cases hnil : s.seg.segmentSamples = []
  · rw [bufferFrame_first lib s f hnil]
    refine ⟨pending++[f], chunks, ?_⟩
    apply appendSample_rooted
    · exact h.untouched lib frames pending chunks s _ (startSegment_untouched s f).1
    · exact fun _ => .inl (h.pending_nil lib frames pending chunks s hnil)
  · have hpart : ∀ t pending' chunks', Rooted lib (frames++[f]) pending' chunks' (appendSample t f) →
        ∃ pending' chunks',
          Rooted lib (frames++[f]) pending' chunks' (emitDuePart lib (appendSample t f) f).1 := by
      intro t pending' chunks' ht
      exact ⟨pending',chunks',ht.untouched lib _ _ _ _ _ (emitDuePart_untouched lib _ f).1⟩
    rw [bufferFrame, if_neg hnil]
    simp only [cutSegment]
    by_cases hdue : segmentDue s.seg f = true
    · obtain ⟨pending', chunks', hflush, hnone⟩ :=
        flushLocked_rooted lib frames pending chunks s h
      rw [if_pos hdue]
      generalize flushLocked lib s = outcome at hflush hnone ⊢
      obtain ⟨t, e⟩ := outcome
      cases e with
      | some e => exact ⟨pending',chunks',hflush.skip lib frames pending' chunks' t [f]⟩
      | none =>
        apply hpart (startSegment t f) (pending'++[f]) chunks'
        apply appendSample_rooted
        · exact hflush.untouched lib frames pending' chunks' t _ (startSegment_untouched t f).1
        · exact fun _ => .inl (hnone rfl)
    · rw [if_neg hdue]
      apply hpart s (pending++[f]) chunks
      apply appendSample_rooted lib frames pending chunks s f h
      intro hkey
      rcases hrootable hkey with hnil' | hkeyed | hdue'
      · exact absurd hnil' hnil
      · exact .inr hkeyed
      · exact absurd hdue' hdue

theorem next_rooted (s : Pipeline) (op : Op) (h : Rooted lib frames pending chunks s)
    (hrootable : Rootable s op) :
    ∃ pending' chunks', Rooted lib (frames++op.frames) pending' chunks' (next lib s op) := by
  cases op with
  | close =>
    show ∃ pending' chunks', Rooted lib (frames++[]) pending' chunks' (close lib s).1
    rw [List.append_nil, close]
    by_cases hpending : 0 < s.seg.segmentSamples.length
    · rw [if_pos hpending]
      obtain ⟨pending', chunks', hflush, -⟩ := flushLocked_rooted lib frames pending chunks s h
      exact ⟨pending',chunks',hflush⟩
    · rw [if_neg hpending]
      exact ⟨pending,chunks,h⟩
  | onVideoFrame f =>
    show ∃ pending' chunks', Rooted lib (frames++[f]) pending' chunks' (ingestFrame lib s f).1
    have hprepared : Rooted lib frames pending chunks (emitInit lib (captureParameterSets s f)).1 :=
      h.untouched lib frames pending chunks s _ ((prepared lib s f).untouched s _)
    obtain ⟨sps, pps, emitted, hseg⟩ := (prepared lib s f).seg
    rw [ingestFrame]
    generalize emitInit lib (captureParameterSets s f) = outcome at hprepared hseg ⊢
    obtain ⟨t, e⟩ := outcome
    cases e with
    | some e => exact ⟨pending,chunks,hprepared.skip lib frames pending chunks t [f]⟩
    | none =>
      by_cases hout : t.seg.initEmitted = false
      · simp only [if_pos hout]
        exact ⟨pending,chunks,hprepared.skip lib frames pending chunks t [f]⟩
      · simp only [if_neg hout]
        apply bufferFrame_rooted lib frames pending chunks t f hprepared
        intro hkey
        have hseg : t.seg = { s.seg with sps := sps, pps := pps, initEmitted := emitted } := hseg
        rw [hseg]
        exact hrootable hkey

end Steps

theorem newPipeline_rooted : Rooted lib [] [] [] newPipeline where
  samples := rfl
  root := fun h => nomatch h
  media := .nil
  rooted := fun _ h => nomatch h
  order := .slnil

theorem run_rooted (ops : List Op) (frames pending : List VideoFrame)
    (chunks : List (List VideoFrame)) (s : Pipeline) (h : Rooted lib frames pending chunks s)
    (hrootable : Along (next lib) Rootable s ops) :
    ∃ pending' chunks',
      Rooted lib (frames++framesOf ops) pending' chunks' (run (next lib) s ops) := by
  induction ops generalizing frames pending chunks s with
  | nil =>
    rw [framesOf, List.flatMap_nil, List.append_nil]
    exact ⟨pending,chunks,h⟩
  | cons op ops ih =>
    obtain ⟨pending', chunks', hnext⟩ := next_rooted lib frames pending chunks s op h hrootable.1
    obtain ⟨pending'', chunks'', hrun⟩ := ih _ pending' chunks' _ hnext hrootable.2
    refine ⟨pending'', chunks'', ?_⟩
    rw [framesOf, List.flatMap_cons, ← List.append_assoc]
    exact hrun

/-- In a stream whose flags tell the IDR frames, every segment that is handed
over starts at one, as long as no keyframe joins a buffer without a keyframe. -/
theorem segments_start_at_keyframes (ops : List Op) (hflags : ∀ f ∈ framesOf ops, Flagged f)
    (h : Along (next lib) Rootable newPipeline ops) :
    SyncTruthful lib (framesOf ops) (mediaCalls (run (next lib) newPipeline ops).calls) := by
  obtain ⟨pending, chunks, hrooted⟩ := run_rooted lib ops [] [] [] newPipeline
    (newPipeline_rooted lib) h
  have horder : chunks.flatten.Sublist (framesOf ops) :=
    (List.sublist_append_left _ _).trans hrooted.order
  refine ⟨chunks, horder, hrooted.media, ?_⟩
  intro chunk hchunk
  obtain ⟨f, rest, rfl, hkey⟩ := hrooted.rooted chunk hchunk
  have hmem : f ∈ framesOf ops :=
    horder.subset (List.mem_flatten.mpr ⟨_,hchunk,List.mem_cons_self⟩)
  refine ⟨f, rest, rfl, (isKeyframe_iff f.nal).mp ?_⟩
  rw [← hflags f hmem]
  exact hkey

section Samples

def parameterSets : VideoFrame := ⟨[0x67, 1]++startCode++[0x68, 2],0,false⟩

def idrPicture : VideoFrame := ⟨[0x65, 3],3000,true⟩

instance (f : VideoFrame) : Decidable (Flagged f) :=
  inferInstanceAs (Decidable (f.keyframe = isKeyframe f.nal))

theorem keyframe_segments_start :
    let ops := [Op.onVideoFrame sampleKeyframe, .onVideoFrame samplePicture, .close]
    (mediaCalls (run (next sampleMp4) newPipeline ops).calls).length = 1 ∧
    SyncTruthful sampleMp4 (framesOf ops) (mediaCalls (run (next sampleMp4) newPipeline ops).calls) := by
  intro ops
  have hflags : ∀ f ∈ framesOf ops, Flagged f := by decide +kernel
  have hrootable : Along (next sampleMp4) Rootable newPipeline ops := by decide +kernel
  exact ⟨by decide +kernel,segments_start_at_keyframes sampleMp4 ops hflags hrootable⟩

def splitKeyframe : List Op := [.onVideoFrame parameterSets, .onVideoFrame idrPicture, .close]

theorem fullSamples_data (sync : Bool) (samples : List Sample) :
    (fullSamples lib sync samples).flatMap FullSample.data = (samples.map Sample.data).flatten := by
  cases samples with
  | nil => rfl
  | cons s rest =>
    simp only [fullSamples, List.flatMap_cons, List.map_cons, List.flatten_cons, fullSample,
      List.flatMap_map]
    rw [List.flatMap_def]

/-- The segment starts with the parameter sets, marked as a sync sample. -/
theorem split_keyframe_unsynced :
    (∀ f ∈ framesOf splitKeyframe, Flagged f) ∧
    (mediaCalls (run (next sampleMp4) newPipeline splitKeyframe).calls).map MediaCall.bytes =
      [sampleData parameterSets++sampleData idrPicture] ∧
    ¬ SyncTruthful sampleMp4 (framesOf splitKeyframe)
      (mediaCalls (run (next sampleMp4) newPipeline splitKeyframe).calls) := by
  have hbytes : (mediaCalls (run (next sampleMp4) newPipeline splitKeyframe).calls).map
      MediaCall.bytes = [sampleData parameterSets++sampleData idrPicture] := by decide +kernel
  refine ⟨by decide +kernel, hbytes, ?_⟩
  rintro ⟨chunks, hsub, hmedia, hstarts⟩
  obtain ⟨call, hcalls, hcall⟩ := List.map_eq_singleton_iff.mp hbytes
  rw [hcalls] at hmedia
  cases hmedia with
  | cons hcarries hnil =>
    cases hnil
    obtain ⟨f, rest, rfl, hidr⟩ := hstarts _ List.mem_cons_self
    have hframes : framesOf splitKeyframe = [parameterSets, idrPicture] := rfl
    have hsub : (f::rest).Sublist [parameterSets, idrPicture] := by simpa [hframes] using hsub
    -- only the picture has an IDR unit, and nothing follows it
    have hpicture : f::rest = [idrPicture] := by
      cases hsub with
      | cons_cons _ _ =>
        have hnone : ¬∃ unit ∈ splitNALUnits parameterSets.nal, nalType unit = 5 := by decide
        exact absurd hidr hnone
      | cons _ hsub =>
        cases hsub with
        | cons_cons _ hrest => rw [List.sublist_nil.mp hrest]
        | cons _ hnil => cases hnil
    rw [hpicture] at hcarries
    obtain ⟨n, samples, hsamples, hencode, -⟩ := hcarries
    have hdata : call.bytes = sampleData idrPicture := by
      have hencode : (fullSamples sampleMp4 true samples).flatMap FullSample.data = call.bytes :=
        Except.ok.inj hencode
      rw [← hencode, fullSamples_data, hsamples]
      simp
    rw [hcall] at hdata
    exact absurd hdata (by decide)

end Samples

end Aevia.Whip
