import Aevia.Provider.SegmentTiling

/-!
# Parts agree with their segment

Parts are counted by the segmenter within the buffer that it fills and by the
sink under the index of the segment that the buffer will become. A buffer that is
dropped passes its index on to the next one, and the parts that were handed over
under it stay.
-/

set_option autoImplicit false

namespace Aevia.Whip
open Aevia.Chunking Aevia.Fallible Aevia.GoError Aevia.Run

structure PartCall where
  segIdx : UInt32
  record : PartRecord
  accepted : Bool
  deriving DecidableEq

def SinkCall.part : SinkCall → Option PartCall
  | .onMediaPart segIdx partIdx bytes ticks independent accepted =>
    some ⟨segIdx, ⟨partIdx, bytes, ticks, independent⟩, accepted⟩
  | _ => none

def partCalls (calls : List SinkCall) : List PartCall := calls.filterMap SinkCall.part

def partsOf (calls : List SinkCall) (segIdx : UInt32) : List PartRecord :=
  ((partCalls calls).filter (fun p => p.segIdx = segIdx)).map PartCall.record

@[simp] theorem partCalls_append (calls more : List SinkCall) :
    partCalls (calls++more) = partCalls calls++partCalls more :=
  List.filterMap_append

theorem partsOf_append (calls more : List SinkCall) (segIdx : UInt32) :
    partsOf (calls++more) segIdx = partsOf calls segIdx++partsOf more segIdx := by
  simp [partsOf]

variable (lib : Mp4)

def PartCarries (part : PartRecord) (frames : List VideoFrame) : Prop :=
  ∃ sequenceNumber samples, samples.map Sample.data = frames.map sampleData ∧
    lib.encodeSegment ⟨sequenceNumber, 1, fullSamples lib part.independent samples⟩ = .ok part.bytes ∧
    part.durationT = totalTicks samples

/-- Parts are numbered from zero and carry the frames of these cuts. -/
def Numbered (parts : List PartRecord) : Prop :=
  parts.map (fun part => part.index.toNat) = List.range parts.length

/-- What the sink holds is what was handed over, in numbered parts of the cuts. -/
structure Recorded (cuts : UInt32 → List (List VideoFrame)) (s : Pipeline) : Prop where
  stored : ∀ i, s.sink.parts i = partsOf s.calls i
  accepted : ∀ p ∈ partCalls s.calls, p.accepted = true
  numbered : ∀ i, Numbered (s.sink.parts i)
  carried : ∀ i, List.Forall₂ (PartCarries lib) (s.sink.parts i) (cuts i)

/-- The cuts of a closed index are the first frames of its segment, those of the
index in the making the first of the pending frames, up to the cursor. -/
structure Aligned (c : Chunks VideoFrame) (cuts : UInt32 → List (List VideoFrame))
    (parts : UInt32 → List PartRecord) (seg : CMAFSegmenter) : Prop where
  few : c.kept.length < 2^32
  index : seg.nextSegmentIndex.toNat = c.kept.length
  closed : ∀ (i : UInt32) (hi : i.toNat < c.kept.length), (cuts i).flatten <+: c.kept[i.toNat]
  later : ∀ i : UInt32, c.kept.length < i.toNat → parts i = []
  idle : c.pending = [] → parts seg.nextSegmentIndex = []
  cursor : c.pending ≠ [] → seg.partStartSampleIdx ≤ c.pending.length
  covered : c.pending ≠ [] →
    (cuts seg.nextSegmentIndex).flatten = c.pending.take seg.partStartSampleIdx
  count : c.pending ≠ [] →
    seg.partIndexInSegment.toNat = (parts seg.nextSegmentIndex).length

structure PartsTiled (c : Chunks VideoFrame) (cuts : UInt32 → List (List VideoFrame))
    (s : Pipeline) : Prop where
  refines : Refines lib c s
  recorded : Recorded lib cuts s
  aligned : Aligned c cuts s.sink.parts s.seg

section Steps
variable (c : Chunks VideoFrame) (cuts : UInt32 → List (List VideoFrame)) (s : Pipeline)

theorem Recorded.same (s' : Pipeline) (h : Recorded lib cuts s)
    (hparts : s'.sink.parts = s.sink.parts) (hcalls : partCalls s'.calls = partCalls s.calls) :
    Recorded lib cuts s' where
  stored := by
    intro i
    rw [hparts, h.stored i, partsOf, partsOf, hcalls]
  accepted := by
    rw [hcalls]
    exact h.accepted
  numbered := by
    rw [hparts]
    exact h.numbered
  carried := by
    rw [hparts]
    exact h.carried

structure SameParts (s s' : Pipeline) : Prop where
  untouched : Untouched s s'
  parts : s'.sink.parts = s.sink.parts
  calls : partCalls s'.calls = partCalls s.calls
  start : s'.seg.partStartSampleIdx = s.seg.partStartSampleIdx
  count : s'.seg.partIndexInSegment = s.seg.partIndexInSegment

theorem PartsTiled.same (s' : Pipeline) (h : PartsTiled lib c cuts s) (hs : SameParts s s') :
    PartsTiled lib c cuts s' where
  refines := h.refines.untouched lib c s s' hs.untouched
  recorded := h.recorded.same lib cuts s s' hs.parts hs.calls
  aligned := by
    have ha := h.aligned
    rw [hs.parts]
    constructor
    · exact ha.few
    · rw [hs.untouched.nextIndex]
      exact ha.index
    · exact ha.closed
    · exact ha.later
    · rw [hs.untouched.nextIndex]
      exact ha.idle
    · rw [hs.start]
      exact ha.cursor
    · rw [hs.start, hs.untouched.nextIndex]
      exact ha.covered
    · rw [hs.count, hs.untouched.nextIndex]
      exact ha.count

theorem partCalls_inits (calls : List SinkCall) (h : ∀ call ∈ calls, call.isInit = true) :
    partCalls calls = [] := by
  rw [partCalls, List.filterMap_eq_nil_iff]
  intro call hcall
  cases call with
  | onInitSegment bytes accepted => rfl
  | _ => cases h _ hcall

theorem prepared_same (f : VideoFrame) :
    SameParts s (emitInit lib (captureParameterSets s f)).1 := by
  have h := prepared lib s f
  obtain ⟨sps, pps, emitted, hseg⟩ := h.seg
  obtain ⟨more, hcalls, hinits⟩ := h.calls
  refine ⟨h.untouched s _, h.parts, ?_, ?_, ?_⟩
  · rw [hcalls, partCalls_append, partCalls_inits more hinits, List.append_nil]
  · rw [hseg]
  · rw [hseg]

/-- A segment that has just been started holds nothing, so its cursors are free. -/
theorem PartsTiled.started (f : VideoFrame) (h : PartsTiled lib c cuts s) (hempty : c.pending = []) :
    PartsTiled lib c cuts (startSegment s f) where
  refines := h.refines.untouched lib c s _ (startSegment_untouched s f).1
  recorded := h.recorded.same lib cuts s _ rfl rfl
  aligned := {
    h.aligned with
    cursor := fun hne => absurd hempty hne
    covered := fun hne => absurd hempty hne
    count := fun hne => absurd hempty hne }

theorem PartsTiled.appended (f : VideoFrame) (h : PartsTiled lib c cuts s)
    (hstart : c.pending = [] → s.seg.partStartSampleIdx = 0 ∧ s.seg.partIndexInSegment = 0) :
    PartsTiled lib (c.push f) cuts (appendSample s f) := by
  have hcuts : c.pending = [] → cuts s.seg.nextSegmentIndex = [] := by
    intro hempty
    have hcarried := h.recorded.carried s.seg.nextSegmentIndex
    rw [h.aligned.idle hempty] at hcarried
    exact List.forall₂_nil_left_iff.mp hcarried
  refine ⟨appendSample_refines lib c s f h.refines, h.recorded.same lib cuts s _ rfl rfl, ?_⟩
  constructor
  · exact h.aligned.few
  · exact h.aligned.index
  · exact h.aligned.closed
  · exact h.aligned.later
  · intro hnil
    simp [Chunks.push] at hnil
  · intro _
    show s.seg.partStartSampleIdx ≤ (c.pending++[f]).length
    by_cases hempty : c.pending = []
    · rw [(hstart hempty).1]
      exact Nat.zero_le _
    · have hcursor := h.aligned.cursor hempty
      rw [List.length_append]
      omega
  · intro _
    show (cuts s.seg.nextSegmentIndex).flatten = (c.pending++[f]).take s.seg.partStartSampleIdx
    by_cases hempty : c.pending = []
    · rw [hcuts hempty, (hstart hempty).1]
      rfl
    · rw [h.aligned.covered hempty, List.take_append_of_le_length (h.aligned.cursor hempty)]
  · intro _
    show s.seg.partIndexInSegment.toNat = (s.sink.parts s.seg.nextSegmentIndex).length
    by_cases hempty : c.pending = []
    · rw [h.aligned.idle hempty, (hstart hempty).2]
      rfl
    · exact h.aligned.count hempty

theorem PartsTiled.discarded (h : PartsTiled lib c cuts s) (hpending : c.pending ≠ [])
    (hkey : s.seg.segmentHasKey = false) (hcount : s.seg.partIndexInSegment = 0) :
    PartsTiled lib (c.cut false) cuts { s with seg := { s.seg with segmentSamples := [] } } := by
  have hnone : s.sink.parts s.seg.nextSegmentIndex = [] := by
    have hlength := h.aligned.count hpending
    rw [hcount] at hlength
    exact List.length_eq_zero_iff.mp hlength.symm
  refine ⟨h.refines.discarded lib c s hkey, h.recorded.same lib cuts s _ rfl rfl, ?_⟩
  constructor
  · rw [Chunks.kept_cut_false]
    exact h.aligned.few
  · rw [Chunks.kept_cut_false]
    exact h.aligned.index
  · intro i hi
    simp only [Chunks.kept_cut_false] at hi ⊢
    exact h.aligned.closed i hi
  · intro i hi
    rw [Chunks.kept_cut_false] at hi
    exact h.aligned.later i hi
  · exact fun _ => hnone
  · exact fun hne => absurd rfl hne
  · exact fun hne => absurd rfl hne
  · exact fun hne => absurd rfl hne

theorem PartsTiled.flushed (h : PartsTiled lib c cuts s) (hpending : c.pending ≠ []) (bytes : Bytes)
    (hencode : lib.encodeSegment ⟨s.seg.sequenceNumber, 1,
      fullSamples lib true (stampLast s.seg.segmentSamples)⟩ = .ok bytes)
    (hfew : s.seg.nextSegmentIndex.toNat+1 < 2^32) :
    PartsTiled lib (c.cut true) cuts (Whip.flushed s bytes) := by
  have hindex := h.aligned.index
  have hnext : (s.seg.nextSegmentIndex+1).toNat = c.kept.length+1 := by
    rw [UInt32.toNat_add]
    show (s.seg.nextSegmentIndex.toNat+1)%2^32 = _
    omega
  have hlength : (c.cut true).kept.length = c.kept.length+1 := by
    rw [Chunks.kept_cut_true, List.length_append, List.length_singleton]
  refine ⟨h.refines.flushed lib c s bytes hencode, ?_, ?_⟩
  · apply h.recorded.same lib cuts s (Whip.flushed s bytes) rfl
    rw [Whip.flushed, partCalls_append]
    exact List.append_nil _
  · constructor
    · omega
    · rw [hlength]
      exact hnext
    · intro i hi
      rw [hlength] at hi
      simp only [Chunks.kept_cut_true]
      by_cases hlast : i.toNat = c.kept.length
      · have hi : i = s.seg.nextSegmentIndex := UInt32.toNat_inj.mp (hlast.trans hindex.symm)
        rw [List.getElem_append_right (by omega)]
        simp only [hlast, Nat.sub_self, List.getElem_cons_zero]
        rw [hi, h.aligned.covered hpending]
        exact List.take_prefix _ _
      · have hbefore : i.toNat < c.kept.length := by omega
        rw [List.getElem_append_left hbefore]
        exact h.aligned.closed i hbefore
    · intro i hi
      rw [hlength] at hi
      exact h.aligned.later i (by omega)
    · intro _
      apply h.aligned.later
      show c.kept.length < (s.seg.nextSegmentIndex+1).toNat
      omega
    · exact fun hne => absurd rfl hne
    · exact fun hne => absurd rfl hne
    · exact fun hne => absurd rfl hne

def parted (s : Pipeline) (bytes : Bytes) : Pipeline :=
  let ticks := totalTicks (stampLast (s.seg.segmentSamples.drop s.seg.partStartSampleIdx))
  let record : PartRecord := ⟨s.seg.partIndexInSegment, bytes, ticks, s.seg.partStartsOnKeyframe⟩
  { seg := { s.seg with
      sequenceNumber := s.seg.sequenceNumber+1
      partStartSampleIdx := s.seg.segmentSamples.length
      partIndexInSegment := s.seg.partIndexInSegment+1
      partStartsOnKeyframe := false
      partStartTS := s.seg.partStartTS+ticks }
    sink := { s.sink with
      parts := Function.update s.sink.parts s.seg.nextSegmentIndex
        (s.sink.parts s.seg.nextSegmentIndex++[record]) }
    calls := s.calls++[.onMediaPart s.seg.nextSegmentIndex s.seg.partIndexInSegment bytes ticks
      s.seg.partStartsOnKeyframe true] }

theorem emitPartLocked_parted (hlib : SegmentsSucceed lib)
    (hstart : s.seg.partStartSampleIdx < s.seg.segmentSamples.length)
    (hcount : s.seg.partIndexInSegment.toNat = (s.sink.parts s.seg.nextSegmentIndex).length) :
    ∃ bytes, lib.encodeSegment ⟨s.seg.sequenceNumber, 1, fullSamples lib s.seg.partStartsOnKeyframe
        (stampLast (s.seg.segmentSamples.drop s.seg.partStartSampleIdx))⟩ = .ok bytes ∧
      emitPartLocked lib s = (parted s bytes, none) := by
  obtain ⟨u, hcreate⟩ := exists_ok _ (hlib.create s.seg.sequenceNumber 1)
  obtain ⟨bytes, hencode⟩ := exists_ok _ (hlib.encode ⟨s.seg.sequenceNumber, 1,
    fullSamples lib s.seg.partStartsOnKeyframe
      (stampLast (s.seg.segmentSamples.drop s.seg.partStartSampleIdx))⟩)
  refine ⟨bytes, hencode, ?_⟩
  have hsome : stampLast (s.seg.segmentSamples.drop s.seg.partStartSampleIdx) ≠ [] := by
    intro hnil
    have hdata := map_data_stampLast (s.seg.segmentSamples.drop s.seg.partStartSampleIdx)
    rw [hnil] at hdata
    have hempty := List.map_eq_nil_iff.mp hdata.symm
    rw [List.drop_eq_nil_iff] at hempty
    omega
  have htaken : UInt32.ofNat (s.sink.parts s.seg.nextSegmentIndex).length = s.seg.partIndexInSegment := by
    rw [← hcount, UInt32.ofNat_toNat]
  have hbuild : buildPartSegment lib s.seg.sequenceNumber
      (stampLast (s.seg.segmentSamples.drop s.seg.partStartSampleIdx)) s.seg.partStartsOnKeyframe =
      .ok (bytes, totalTicks (stampLast (s.seg.segmentSamples.drop s.seg.partStartSampleIdx))) := by
    rw [buildPartSegment, if_neg hsome, hcreate, hencode]
    rfl
  rw [emitPartLocked, if_neg (Nat.not_le_of_lt hstart)]
  simp only [hbuild, Pipeline.onMediaPart, LivePinSink.onMediaPart, htaken, ne_eq,
    not_true_eq_false, if_false]
  rfl

theorem Recorded.parted (h : Recorded lib cuts s) (href : Refines lib c s) (bytes : Bytes)
    (hencode : lib.encodeSegment ⟨s.seg.sequenceNumber, 1, fullSamples lib s.seg.partStartsOnKeyframe
      (stampLast (s.seg.segmentSamples.drop s.seg.partStartSampleIdx))⟩ = .ok bytes)
    (hcount : s.seg.partIndexInSegment.toNat = (s.sink.parts s.seg.nextSegmentIndex).length) :
    Recorded lib (Function.update cuts s.seg.nextSegmentIndex
      (cuts s.seg.nextSegmentIndex++[c.pending.drop s.seg.partStartSampleIdx])) (Whip.parted s bytes) where
  stored := by
    intro i
    rw [Whip.parted, partsOf_append, ← h.stored i]
    by_cases hi : i = s.seg.nextSegmentIndex
    · subst hi
      simp [partsOf, partCalls, SinkCall.part]
    · simp [partsOf, partCalls, SinkCall.part, Function.update_of_ne hi, Ne.symm hi]
  accepted := by
    intro p hp
    rw [Whip.parted, partCalls_append] at hp
    rcases List.mem_append.mp hp with hp | hp
    · exact h.accepted p hp
    · simp only [partCalls, SinkCall.part, List.filterMap_cons, List.filterMap_nil,
        List.mem_singleton] at hp
      rw [hp]
  numbered := by
    intro i
    by_cases hi : i = s.seg.nextSegmentIndex
    · subst hi
      have hnumbered := h.numbered s.seg.nextSegmentIndex
      simp only [Whip.parted, Function.update_self, Numbered, List.map_append, List.map_cons,
        List.map_nil, List.length_append, List.length_singleton, List.range_succ]
      rw [hnumbered, hcount]
    · simp only [Whip.parted, Function.update_of_ne hi]
      exact h.numbered i
  carried := by
    intro i
    by_cases hi : i = s.seg.nextSegmentIndex
    · subst hi
      simp only [Whip.parted, Function.update_self]
      apply List.rel_append (h.carried s.seg.nextSegmentIndex)
      refine .cons ⟨s.seg.sequenceNumber, _, ?_, hencode, rfl⟩ .nil
      rw [map_data_stampLast, List.map_drop, href.samples, List.map_drop]
    · simp only [Whip.parted, Function.update_of_ne hi]
      exact h.carried i

/-- The cursor stands behind the last pending frame, and only the index in the making
has changed. -/
theorem Aligned.parted (h : Aligned c cuts s.sink.parts s.seg) (hpending : c.pending ≠ [])
    (hlength : s.seg.segmentSamples.length = c.pending.length) (bytes : Bytes)
    (hfew : s.seg.partIndexInSegment.toNat+1 < 2^32) :
    Aligned c (Function.update cuts s.seg.nextSegmentIndex
      (cuts s.seg.nextSegmentIndex++[c.pending.drop s.seg.partStartSampleIdx]))
      (Whip.parted s bytes).sink.parts (Whip.parted s bytes).seg := by
  have hcount := h.count hpending
  have hother : ∀ i, i.toNat ≠ c.kept.length → i ≠ s.seg.nextSegmentIndex := by
    intro i hi heq
    rw [heq, h.index] at hi
    exact hi rfl
  constructor
  · exact h.few
  · exact h.index
  · intro i hi
    rw [Function.update_of_ne (hother i (by omega))]
    exact h.closed i hi
  · intro i hi
    simp only [Whip.parted, Function.update_of_ne (hother i (by omega))]
    exact h.later i hi
  · exact fun hempty => absurd hempty hpending
  · intro _
    exact hlength.le
  · intro _
    simp only [Whip.parted, Function.update_self]
    rw [List.flatten_append, h.covered hpending, List.flatten_singleton,
      List.take_append_drop, hlength, List.take_length]
  · intro _
    simp only [Whip.parted, Function.update_self, List.length_append, List.length_singleton]
    rw [UInt32.toNat_add]
    show (s.seg.partIndexInSegment.toNat+1)%2^32 = _
    omega

theorem PartsTiled.parted (h : PartsTiled lib c cuts s) (hpending : c.pending ≠ []) (bytes : Bytes)
    (hencode : lib.encodeSegment ⟨s.seg.sequenceNumber, 1, fullSamples lib s.seg.partStartsOnKeyframe
      (stampLast (s.seg.segmentSamples.drop s.seg.partStartSampleIdx))⟩ = .ok bytes)
    (hfew : s.seg.partIndexInSegment.toNat+1 < 2^32) :
    PartsTiled lib c (Function.update cuts s.seg.nextSegmentIndex
      (cuts s.seg.nextSegmentIndex++[c.pending.drop s.seg.partStartSampleIdx])) (Whip.parted s bytes) := by
  have hlength : s.seg.segmentSamples.length = c.pending.length := by
    have hlengths := congrArg List.length h.refines.samples
    rwa [List.length_map, List.length_map] at hlengths
  have huntouched : Untouched s (Whip.parted s bytes) := by
    refine ⟨rfl, rfl, rfl, ?_, rfl, rfl⟩
    simp [Whip.parted, mediaCalls, SinkCall.media]
  exact ⟨h.refines.untouched lib c s _ huntouched,
    h.recorded.parted lib c cuts s h.refines bytes hencode (h.aligned.count hpending),
    h.aligned.parted c cuts s hpending hlength bytes hfew⟩

end Steps

/-- A buffer that is flushed has a keyframe, and an index that is not the last,
or it has given no part. -/
def Flushable (seg : CMAFSegmenter) : Prop :=
  seg.segmentSamples ≠ [] →
    if seg.segmentHasKey then seg.nextSegmentIndex.toNat+1 < 2^32 else seg.partIndexInSegment = 0

def PartsFit (s : Pipeline) : Op → Prop
  | .onVideoFrame f =>
    (segmentDue s.seg f = true → Flushable s.seg) ∧ s.seg.partIndexInSegment.toNat+1 < 2^32
  | .close => Flushable s.seg

instance (seg : CMAFSegmenter) : Decidable (Flushable seg) :=
  inferInstanceAs (Decidable (seg.segmentSamples ≠ [] → ite _ _ _))

instance (s : Pipeline) : ∀ op, Decidable (PartsFit s op)
  | .onVideoFrame _ => inferInstanceAs (Decidable ((_ → _) ∧ _))
  | .close => inferInstanceAs (Decidable (Flushable s.seg))

section Runs
variable (hlib : SegmentsSucceed lib)

theorem pending_iff (c : Chunks VideoFrame) (s : Pipeline) (h : Refines lib c s) :
    s.seg.segmentSamples = [] ↔ c.pending = [] := by
  rw [← List.map_eq_nil_iff (f := Sample.data), h.samples, List.map_eq_nil_iff]

include hlib in
theorem flushLocked_parts (c : Chunks VideoFrame) (cuts : UInt32 → List (List VideoFrame))
    (s : Pipeline) (h : PartsTiled lib c cuts s) (hflush : Flushable s.seg) :
    ∃ c', PartsTiled lib c' cuts (flushLocked lib s).1 ∧ c'.contents = c.contents ∧
      c'.pending = [] ∧ (flushLocked lib s).2 = none := by
  by_cases hsamples : s.seg.segmentSamples = []
  · rw [flushLocked, if_pos hsamples]
    exact ⟨c,h,rfl,(pending_iff lib c s h.refines).mp hsamples,rfl⟩
  · have hpending : c.pending ≠ [] := fun hnil => hsamples ((pending_iff lib c s h.refines).mpr hnil)
    have hfit := hflush hsamples
    cases hkey : s.seg.segmentHasKey with
    | false =>
      rw [hkey] at hfit
      rw [flushLocked, if_neg hsamples, if_pos hkey]
      exact ⟨c.cut false,h.discarded lib c cuts s hpending hkey hfit,Chunks.contents_cut c false,rfl,rfl⟩
    | true =>
      rw [hkey] at hfit
      obtain ⟨bytes, hencode, hflushed⟩ :=
        flushLocked_keyed lib hlib c s h.refines hsamples hkey
      rw [hflushed]
      exact ⟨c.cut true,h.flushed lib c cuts s hpending bytes hencode hfit,Chunks.contents_cut c true,
        rfl,rfl⟩

include hlib in
theorem emitDuePart_parts (c : Chunks VideoFrame) (cuts : UInt32 → List (List VideoFrame))
    (s : Pipeline) (f : VideoFrame) (h : PartsTiled lib c cuts s) (hpending : c.pending ≠ [])
    (hfew : s.seg.partIndexInSegment.toNat+1 < 2^32) :
    ∃ cuts', PartsTiled lib c cuts' (emitDuePart lib s f).1 := by
  by_cases hdue : partTargetDuration*videoTimescale ≤ (f.timestamp-s.seg.partStartTS).toNat
  · rw [emitDuePart, if_pos hdue]
    by_cases hstart : s.seg.partStartSampleIdx < s.seg.segmentSamples.length
    · obtain ⟨bytes, hencode, hemit⟩ :=
        emitPartLocked_parted lib s hlib hstart (h.aligned.count hpending)
      rw [hemit]
      exact ⟨_,h.parted lib c cuts s hpending bytes hencode hfew⟩
    · rw [emitPartLocked, if_pos (Nat.le_of_not_lt hstart)]
      exact ⟨cuts,h⟩
  · rw [emitDuePart, if_neg hdue]
    exact ⟨cuts,h⟩

theorem push_pending (c : Chunks VideoFrame) (f : VideoFrame) : (c.push f).pending ≠ [] := by
  simp [Chunks.push]

include hlib in
theorem bufferFrame_parts (c : Chunks VideoFrame) (cuts : UInt32 → List (List VideoFrame))
    (s : Pipeline) (f : VideoFrame) (h : PartsTiled lib c cuts s)
    (hfit : PartsFit s (.onVideoFrame f)) :
    ∃ c' cuts', PartsTiled lib c' cuts' (bufferFrame lib s f).1 ∧
      c'.contents = c.contents++[f] := by
  by_cases hsamples : s.seg.segmentSamples = []
  · have hempty := (pending_iff lib c s h.refines).mp hsamples
    rw [bufferFrame_first lib s f hsamples]
    refine ⟨c.push f, cuts, ?_, Chunks.contents_push c f⟩
    exact (h.started lib c cuts s f hempty).appended lib c cuts _ f (fun _ => ⟨rfl,rfl⟩)
  · have hpending : c.pending ≠ [] := fun hnil => hsamples ((pending_iff lib c s h.refines).mpr hnil)
    rw [bufferFrame, if_neg hsamples]
    simp only [cutSegment]
    by_cases hdue : segmentDue s.seg f = true
    · obtain ⟨c', hflush, hcontents, hempty, hnone⟩ :=
        flushLocked_parts lib hlib c cuts s h (hfit.1 hdue)
      rw [if_pos hdue]
      generalize flushLocked lib s = outcome at hflush hnone ⊢
      obtain ⟨t, e⟩ := outcome
      obtain rfl : e = none := hnone
      have happend := (hflush.started lib c' cuts t f hempty).appended lib c' cuts _ f
        (fun _ => ⟨rfl,rfl⟩)
      obtain ⟨cuts', hparts⟩ := emitDuePart_parts lib hlib (c'.push f) cuts _ f happend
        (push_pending c' f) (show (0 : UInt32).toNat+1 < 2^32 by decide)
      exact ⟨c'.push f,cuts',hparts,by rw [Chunks.contents_push, hcontents]⟩
    · rw [if_neg hdue]
      have happend := h.appended lib c cuts s f (fun hnil => absurd hnil hpending)
      obtain ⟨cuts', hparts⟩ := emitDuePart_parts lib hlib (c.push f) cuts _ f happend
        (push_pending c f) hfit.2
      exact ⟨c.push f,cuts',hparts,Chunks.contents_push c f⟩

include hlib in
theorem onVideoFrame_parts (c : Chunks VideoFrame) (cuts : UInt32 → List (List VideoFrame))
    (s : Pipeline) (f : VideoFrame) (h : PartsTiled lib c cuts s) (hs : InitOnce s)
    (hfit : PartsFit s (.onVideoFrame f)) :
    ∃ c' cuts', PartsTiled lib c' cuts' (onVideoFrame lib s f) ∧
      c'.contents = c.contents++if (onVideoFrame lib s f).seg.initEmitted then [f] else [] := by
  have hprepared := h.same lib c cuts s _ (prepared_same lib s f)
  obtain ⟨hsame, -, honce⟩ := captureParameterSets_untouched s f
  obtain ⟨-, -, herror, -⟩ := emitInit_once lib c (captureParameterSets s f)
    (h.refines.untouched lib c s _ hsame) (honce hs)
  obtain ⟨sps, pps, emitted, hseg⟩ := (prepared lib s f).seg
  rw [onVideoFrame, ingestFrame]
  generalize emitInit lib (captureParameterSets s f) = outcome at hprepared herror hseg ⊢
  obtain ⟨t, e⟩ := outcome
  cases e with
  | some e =>
    have hfalse : t.seg.initEmitted = false := herror (by simp)
    exact ⟨c,cuts,hprepared,by simp [hfalse]⟩
  | none =>
    by_cases hemitted : t.seg.initEmitted = false
    · simp only [if_pos hemitted]
      exact ⟨c,cuts,hprepared,by simp [hemitted]⟩
    · simp only [if_neg hemitted]
      have hseg : t.seg = { s.seg with sps := sps, pps := pps, initEmitted := emitted } := hseg
      have hfits : PartsFit t (.onVideoFrame f) := by
        show (segmentDue t.seg f = true → Flushable t.seg) ∧ t.seg.partIndexInSegment.toNat+1 < 2^32
        rw [hseg]
        exact hfit
      obtain ⟨c', cuts', hparts, hcontents⟩ := bufferFrame_parts lib hlib c cuts t f hprepared hfits
      obtain ⟨-, -, -, hemits⟩ := bufferFrame_refines lib hlib c t f hprepared.refines
      refine ⟨c', cuts', hparts, ?_⟩
      rw [hcontents, hemits.initEmitted, Bool.eq_true_of_not_eq_false hemitted]
      rfl

include hlib in
theorem close_parts (c : Chunks VideoFrame) (cuts : UInt32 → List (List VideoFrame)) (s : Pipeline)
    (h : PartsTiled lib c cuts s) (hfit : PartsFit s .close) :
    ∃ c', PartsTiled lib c' cuts (close lib s).1 ∧ c'.contents = c.contents := by
  by_cases hpending : 0 < s.seg.segmentSamples.length
  · rw [close, if_pos hpending]
    obtain ⟨c', hflush, hcontents, -, -⟩ := flushLocked_parts lib hlib c cuts s h hfit
    exact ⟨c',hflush,hcontents⟩
  · rw [close, if_neg hpending]
    exact ⟨c,h,rfl⟩

include hlib in
theorem run_parts (ops : List Op) (c : Chunks VideoFrame) (cuts : UInt32 → List (List VideoFrame))
    (s : Pipeline) (h : PartsTiled lib c cuts s) (hs : InitOnce s)
    (hfit : Along (next lib) PartsFit s ops) :
    ∃ c' cuts', PartsTiled lib c' cuts' (run (next lib) s ops) ∧
      c'.contents = c.contents++arrived lib s ops := by
  induction ops generalizing c cuts s with
  | nil => exact ⟨c,cuts,h,(List.append_nil _).symm⟩
  | cons op ops ih =>
    cases op with
    | onVideoFrame f =>
      obtain ⟨c', cuts', hnext, hcontents⟩ := onVideoFrame_parts lib hlib c cuts s f h hs hfit.1
      obtain ⟨-, -, hinit, -⟩ := onVideoFrame_refines lib hlib c s f h.refines hs
      obtain ⟨c'', cuts'', hrun, hcontents'⟩ := ih c' cuts' _ hnext hinit hfit.2
      refine ⟨c'', cuts'', hrun, ?_⟩
      rw [hcontents', hcontents, List.append_assoc]
      rfl
    | close =>
      obtain ⟨c', hnext, hcontents⟩ := close_parts lib hlib c cuts s h hfit.1
      obtain ⟨-, -, hinit, -⟩ := close_refines lib hlib c s h.refines hs
      obtain ⟨c'', cuts'', hrun, hcontents'⟩ := ih c' cuts _ hnext hinit hfit.2
      refine ⟨c'', cuts'', hrun, ?_⟩
      rw [hcontents', hcontents]
      rfl

end Runs

theorem newPipeline_parts : PartsTiled lib Chunks.empty (fun _ => []) newPipeline where
  refines := newPipeline_refines lib
  recorded := ⟨fun _ => rfl,fun _ h => (List.not_mem_nil h).elim,fun _ => rfl,fun _ => .nil⟩
  aligned := {
    few := by decide
    index := rfl
    closed := fun _ hi => absurd hi (Nat.not_lt_zero _)
    later := fun _ _ => rfl
    idle := fun _ => rfl
    cursor := fun hne => absurd rfl hne
    covered := fun hne => absurd rfl hne
    count := fun hne => absurd rfl hne }

def segmentFrames (c : Chunks VideoFrame) (i : ℕ) : List VideoFrame :=
  ((c.kept++[c.pending])[i]?).getD []

/-- Under every index the sink was given the parts `0, 1, 2, ...`, took all of
them, and they carry the first frames of the segment of this index. -/
def PartsAgree (c : Chunks VideoFrame) (s : Pipeline) : Prop :=
  (∀ p ∈ partCalls s.calls, p.accepted = true) ∧
  ∀ i : UInt32, s.sink.parts i = partsOf s.calls i ∧ Numbered (s.sink.parts i) ∧
    ∃ cuts, List.Forall₂ (PartCarries lib) (s.sink.parts i) cuts ∧
      cuts.flatten <+: segmentFrames c i.toNat

theorem PartsTiled.agree (c : Chunks VideoFrame) (cuts : UInt32 → List (List VideoFrame))
    (s : Pipeline) (h : PartsTiled lib c cuts s) : PartsAgree lib c s := by
  refine ⟨h.recorded.accepted, fun i => ⟨h.recorded.stored i, h.recorded.numbered i, cuts i,
    h.recorded.carried i, ?_⟩⟩
  have hnone : s.sink.parts i = [] → cuts i = [] := by
    intro hparts
    have hcarried := h.recorded.carried i
    rw [hparts] at hcarried
    exact List.forall₂_nil_left_iff.mp hcarried
  rcases lt_trichotomy i.toNat c.kept.length with hlt | heq | hgt
  · have hget : segmentFrames c i.toNat = c.kept[i.toNat] := by
      rw [segmentFrames, List.getElem?_append_left hlt, List.getElem?_eq_getElem hlt, Option.getD_some]
    rw [hget]
    exact h.aligned.closed i hlt
  · have hi : i = s.seg.nextSegmentIndex := UInt32.toNat_inj.mp (heq.trans h.aligned.index.symm)
    have hget : segmentFrames c i.toNat = c.pending := by
      rw [segmentFrames, heq, List.getElem?_append_right le_rfl, Nat.sub_self]
      rfl
    rw [hget]
    by_cases hpending : c.pending = []
    · rw [hnone (hi ▸ h.aligned.idle hpending)]
      exact List.nil_prefix
    · rw [hi, h.aligned.covered hpending]
      exact List.take_prefix _ _
  · rw [hnone (h.aligned.later i hgt)]
    exact List.nil_prefix

/-- As long as no buffer is dropped that has given a part, and no index runs out,
the parts of every index agree with the segment that is handed over, or still
filled, under it: the frames that have arrived are cut into segments, and every
segment's parts carry its first frames. -/
theorem parts_agree (hlib : SegmentsSucceed lib) (ops : List Op)
    (h : Along (next lib) PartsFit newPipeline ops) :
    let s := run (next lib) newPipeline ops
    ∃ c : Chunks VideoFrame, c.contents = arrived lib newPipeline ops ∧
      s.seg.segmentSamples.map Sample.data = c.pending.map sampleData ∧
      List.Forall₂ (Carries lib) (mediaCalls s.calls) c.kept ∧ PartsAgree lib c s := by
  intro s
  obtain ⟨c, cuts, hrun, hcontents⟩ := run_parts lib hlib ops Chunks.empty (fun _ => []) newPipeline
    (newPipeline_parts lib) newPipeline_once h
  exact ⟨c,hcontents,hrun.refines.samples,hrun.refines.media,hrun.agree lib c cuts s⟩

section Samples

def sampleAt (timestamp : UInt32) : VideoFrame := ⟨[0x41, 4],timestamp,false⟩

def keyframeAt (timestamp : UInt32) : VideoFrame := { sampleKeyframe with timestamp := timestamp }

def twoParts : List Op := [.onVideoFrame (keyframeAt 0), .onVideoFrame (sampleAt 180000),
  .onVideoFrame (keyframeAt 540000), .onVideoFrame (sampleAt 720000)]

theorem two_parts_agree :
    Along (next sampleMp4) PartsFit newPipeline twoParts ∧
    (partCalls (run (next sampleMp4) newPipeline twoParts).calls).length = 2 ∧
    ∃ c : Chunks VideoFrame, c.contents = arrived sampleMp4 newPipeline twoParts ∧
      PartsAgree sampleMp4 c (run (next sampleMp4) newPipeline twoParts) := by
  have hfit : Along (next sampleMp4) PartsFit newPipeline twoParts := by decide +kernel
  obtain ⟨c, hcontents, -, -, hagree⟩ := parts_agree sampleMp4 sampleMp4_succeeds twoParts hfit
  exact ⟨hfit,by decide +kernel,c,hcontents,hagree⟩

def droppedPart : List Op := [.onVideoFrame ⟨[0x67, 1]++startCode++[0x68, 2],0,false⟩,
  .onVideoFrame (sampleAt 180000), .onVideoFrame (keyframeAt 540000),
  .onVideoFrame (sampleAt 720000)]

/-- The first part of the next buffer is refused. -/
theorem dropped_part_refuses :
    let s := run (next sampleMp4) newPipeline droppedPart
    (partCalls s.calls).map (fun p => (p.segIdx, p.record.index, p.accepted)) =
      [(0, 0, true), (0, 0, false)] ∧ ∀ c, ¬ PartsAgree sampleMp4 c s := by
  intro s
  have hcalls : (partCalls s.calls).map (fun p => (p.segIdx, p.record.index, p.accepted)) =
      [(0, 0, true), (0, 0, false)] := by decide +kernel
  refine ⟨hcalls, ?_⟩
  intro c h
  have hrefused : ((0, 0, false) : UInt32 × UInt32 × Bool) ∈
      (partCalls s.calls).map (fun p => (p.segIdx, p.record.index, p.accepted)) := by
    rw [hcalls]
    simp
  obtain ⟨p, hp, heq⟩ := List.mem_map.mp hrefused
  have haccepted := h.1 p hp
  rw [Prod.mk.injEq, Prod.mk.injEq] at heq
  rw [heq.2.2] at haccepted
  cases haccepted

end Samples

end Aevia.Whip
