import Aevia.Provider.PartTiling

/-!
# Durations of segments

A buffered sample gets its duration when the next frame arrives, so the pending
samples are those of the pending frames up to the last of them. A cut stamps that
last one with a thirtieth of a second, before the keyframe that caused it is looked
at: the segment ends where the keyframe begins only if the keyframe is that far away.
-/

set_option autoImplicit false

namespace Aevia.Whip
open Aevia.Chunking Aevia.Run

def gaps (times : List UInt32) : List UInt32 := List.zipWith (fun a b => b-a) times times.tail

def samplesUntil (frames : List VideoFrame) (next : UInt32) : List Sample :=
  List.zipWith Sample.mk (frames.map sampleData) (gaps (frames.map VideoFrame.timestamp++[next]))

def lastTime (frames : List VideoFrame) : UInt32 :=
  (frames.getLast?.map VideoFrame.timestamp).getD 0

theorem gaps_concat (front : List UInt32) (a b : UInt32) :
    gaps (front++[a]++[b]) = gaps (front++[a])++[b-a] := by
  induction front with
  | nil => rfl
  | cons x front ih =>
    cases front with
    | nil => rfl
    | cons y front => exact congrArg (List.cons (y-x)) ih

theorem length_gaps (front : List UInt32) (a : UInt32) : (gaps (front++[a])).length = front.length := by
  simp [gaps]

theorem samplesUntil_concat (front : List VideoFrame) (last : VideoFrame) (next : UInt32) :
    samplesUntil (front++[last]) next =
      samplesUntil front last.timestamp++[⟨sampleData last, next-last.timestamp⟩] := by
  rw [samplesUntil, samplesUntil, List.map_append, List.map_append, List.map_singleton,
    List.map_singleton, gaps_concat, List.zipWith_append]
  · rfl
  · rw [length_gaps, List.length_map, List.length_map]

@[simp] theorem lastTime_concat (front : List VideoFrame) (last : VideoFrame) :
    lastTime (front++[last]) = last.timestamp := by
  simp [lastTime]

theorem samplesUntil_data (frames : List VideoFrame) (next : UInt32) :
    (samplesUntil frames next).map Sample.data = frames.map sampleData := by
  induction frames using List.reverseRecOn generalizing next with
  | nil => rfl
  | append_singleton front last ih =>
    rw [samplesUntil_concat, List.map_append, ih, List.map_append]
    rfl

theorem samplesUntil_dur (frames : List VideoFrame) (next : UInt32) :
    (samplesUntil frames next).map Sample.dur =
      gaps (frames.map VideoFrame.timestamp++[next]) := by
  induction frames using List.reverseRecOn generalizing next with
  | nil => rfl
  | append_singleton front last ih =>
    rw [samplesUntil_concat, List.map_append, ih, List.map_append, List.map_singleton,
      List.map_singleton, gaps_concat]

theorem totalTicks_concat (samples : List Sample) (s : Sample) :
    totalTicks (samples++[s]) = totalTicks samples+s.dur := by
  rw [totalTicks, List.foldl_append]
  rfl

theorem totalTicks_samplesUntil (frames : List VideoFrame) (first : VideoFrame)
    (hfirst : frames.head? = some first) (next : UInt32) :
    totalTicks (samplesUntil frames next) = next-first.timestamp := by
  obtain ⟨rest, rfl⟩ := List.head?_eq_some_iff.mp hfirst
  clear hfirst
  induction rest using List.reverseRecOn generalizing next with
  | nil => exact UInt32.zero_add _
  | append_singleton rest last ih =>
    rw [← List.cons_append, samplesUntil_concat, totalTicks_concat, ih]
    grind

theorem samplesUntil_inj (front : List VideoFrame) (last : VideoFrame) (next next' : UInt32) :
    (samplesUntil (front++[last]) next).map Sample.dur =
      (samplesUntil (front++[last]) next').map Sample.dur ↔ next = next' := by
  rw [samplesUntil_concat, samplesUntil_concat, List.map_append, List.map_append,
    List.append_cancel_left_eq, List.map_singleton, List.map_singleton, List.singleton_inj]
  constructor
  · intro h
    grind
  · intro h
    rw [h]

theorem stampLast_samplesUntil (front : List VideoFrame) (last : VideoFrame) :
    stampLast (samplesUntil (front++[last]) last.timestamp) =
      samplesUntil (front++[last]) (last.timestamp+3000) := by
  have hstamp : last.timestamp+3000-last.timestamp = 3000 := by grind
  rw [samplesUntil_concat, samplesUntil_concat, stampLast, List.modifyLast_concat, hstamp,
    UInt32.sub_self]
  rfl

section Invariant
variable (lib : Mp4) (c : Chunks VideoFrame) (s : Pipeline)

structure Clocked : Prop where
  refines : Refines lib c s
  samples : s.seg.segmentSamples = samplesUntil c.pending (lastTime c.pending)
  start : ∀ first, c.pending.head? = some first → s.seg.segmentStartTS = first.timestamp

structure SameClock (s s' : Pipeline) : Prop where
  untouched : Untouched s s'
  samples : s'.seg.segmentSamples = s.seg.segmentSamples
  start : s'.seg.segmentStartTS = s.seg.segmentStartTS

theorem Clocked.same (s' : Pipeline) (h : Clocked lib c s) (hs : SameClock s s') :
    Clocked lib c s' where
  refines := h.refines.untouched lib c s s' hs.untouched
  samples := hs.samples.trans h.samples
  start := fun first hfirst => hs.start.trans (h.start first hfirst)

theorem prepared_clock (f : VideoFrame) :
    SameClock s (emitInit lib (captureParameterSets s f)).1 := by
  have h := prepared lib s f
  obtain ⟨sps, pps, emitted, hseg⟩ := h.seg
  refine ⟨h.untouched s _, ?_, ?_⟩
  · rw [hseg]
  · rw [hseg]

theorem emitPartLocked_clock :
    (emitPartLocked lib s).1.seg.segmentSamples = s.seg.segmentSamples ∧
    (emitPartLocked lib s).1.seg.segmentStartTS = s.seg.segmentStartTS := by
  by_cases hdone : s.seg.segmentSamples.length ≤ s.seg.partStartSampleIdx
  · rw [emitPartLocked, if_pos hdone]
    exact ⟨rfl,rfl⟩
  · simp only [emitPartLocked, if_neg hdone]
    split
    · exact ⟨rfl,rfl⟩
    · simp only [Pipeline.onMediaPart]
      split <;> exact ⟨rfl,rfl⟩

theorem emitDuePart_clock (f : VideoFrame) : SameClock s (emitDuePart lib s f).1 := by
  have hsame : (emitDuePart lib s f).1.seg.segmentSamples = s.seg.segmentSamples ∧
      (emitDuePart lib s f).1.seg.segmentStartTS = s.seg.segmentStartTS := by
    unfold emitDuePart
    split
    · exact emitPartLocked_clock lib s
    · exact ⟨rfl,rfl⟩
  exact ⟨(emitDuePart_untouched lib s f).1,hsame.1,hsame.2⟩

theorem Clocked.appended (f : VideoFrame) (h : Clocked lib c s)
    (hfirst : c.pending = [] → s.seg.segmentStartTS = f.timestamp) :
    Clocked lib (c.push f) (appendSample s f) := by
  refine ⟨appendSample_refines lib c s f h.refines, ?_, ?_⟩
  · show s.seg.segmentSamples.modifyLast _++_ = samplesUntil (c.pending++[f]) (lastTime (c.pending++[f]))
    rw [h.samples, lastTime_concat, samplesUntil_concat, UInt32.sub_self]
    refine congrArg (·++[_]) ?_
    rcases List.eq_nil_or_concat c.pending with hnil | ⟨front, last, hpending⟩
    · rw [hnil]
      rfl
    · rw [List.concat_eq_append] at hpending
      obtain ⟨first, hhead⟩ := Option.ne_none_iff_exists'.mp
        (show c.pending.head? ≠ none by simp [hpending])
      have hlast : s.seg.segmentStartTS+totalTicks (samplesUntil c.pending (lastTime c.pending)) =
          last.timestamp := by
        rw [totalTicks_samplesUntil _ first hhead, h.start first hhead, hpending, lastTime_concat]
        grind
      rw [hlast, hpending, lastTime_concat, samplesUntil_concat, samplesUntil_concat,
        List.modifyLast_concat]
  · intro first hhead
    show s.seg.segmentStartTS = first.timestamp
    cases hpending : c.pending with
    | nil =>
      rw [Chunks.push, hpending] at hhead
      rw [hfirst hpending, ← Option.some.inj hhead]
    | cons first' rest =>
      rw [Chunks.push, hpending] at hhead
      rw [← Option.some.inj hhead]
      exact h.start first' (by rw [hpending]; rfl)

theorem Clocked.emptied (s' : Pipeline) (hrefines : Refines lib c s') (hempty : c.pending = [])
    (hsamples : s'.seg.segmentSamples = []) : Clocked lib c s' where
  refines := hrefines
  samples := by
    rw [hsamples, hempty]
    rfl
  start := by
    intro first hfirst
    rw [hempty] at hfirst
    cases hfirst

theorem Clocked.started (f : VideoFrame) (h : Clocked lib c s) (hempty : c.pending = []) :
    Clocked lib c (startSegment s f) :=
  Clocked.emptied lib c _ (h.refines.untouched lib c s _ (startSegment_untouched s f).1) hempty
    ((pending_iff lib c s h.refines).mpr hempty)

end Invariant

section Runs
variable (lib : Mp4) (hlib : SegmentsSucceed lib)

include hlib

theorem flushLocked_clocked (c : Chunks VideoFrame) (s : Pipeline) (h : Clocked lib c s) :
    ∃ c', Clocked lib c' (flushLocked lib s).1 ∧ c'.contents = c.contents ∧ c'.pending = [] ∧
      (flushLocked lib s).2 = none := by
  by_cases hsamples : s.seg.segmentSamples = []
  · rw [flushLocked, if_pos hsamples]
    exact ⟨c,h,rfl,(pending_iff lib c s h.refines).mp hsamples,rfl⟩
  · cases hkey : s.seg.segmentHasKey with
    | false =>
      rw [flushLocked, if_neg hsamples, if_pos hkey]
      exact ⟨c.cut false,Clocked.emptied lib _ _ (h.refines.discarded lib c s hkey) rfl rfl,
        Chunks.contents_cut c false,rfl,rfl⟩
    | true =>
      obtain ⟨bytes, hencode, hflush⟩ := flushLocked_keyed lib hlib c s h.refines hsamples hkey
      rw [hflush]
      exact ⟨c.cut true,Clocked.emptied lib _ _ (h.refines.flushed lib c s bytes hencode) rfl rfl,
        Chunks.contents_cut c true,rfl,rfl⟩

theorem bufferFrame_clocked (c : Chunks VideoFrame) (s : Pipeline) (f : VideoFrame)
    (h : Clocked lib c s) :
    ∃ c', Clocked lib c' (bufferFrame lib s f).1 ∧ c'.contents = c.contents++[f] := by
  by_cases hsamples : s.seg.segmentSamples = []
  · have hempty := (pending_iff lib c s h.refines).mp hsamples
    rw [bufferFrame_first lib s f hsamples]
    exact ⟨c.push f,(h.started lib c s f hempty).appended lib c _ f (fun _ => rfl),
      Chunks.contents_push c f⟩
  · have hpending : c.pending ≠ [] :=
      fun hnil => hsamples ((pending_iff lib c s h.refines).mpr hnil)
    rw [bufferFrame, if_neg hsamples]
    simp only [cutSegment]
    by_cases hdue : segmentDue s.seg f = true
    · obtain ⟨c', hflush, hcontents, hempty, hnone⟩ := flushLocked_clocked lib hlib c s h
      rw [if_pos hdue]
      generalize flushLocked lib s = outcome at hflush hnone ⊢
      obtain ⟨t, e⟩ := outcome
      obtain rfl : e = none := hnone
      have happend := (hflush.started lib c' t f hempty).appended lib c' _ f (fun _ => rfl)
      exact ⟨c'.push f,happend.same lib _ _ _ (emitDuePart_clock lib _ f),
        by rw [Chunks.contents_push, hcontents]⟩
    · rw [if_neg hdue]
      have happend := h.appended lib c s f (fun hnil => absurd hnil hpending)
      exact ⟨c.push f,happend.same lib _ _ _ (emitDuePart_clock lib _ f),Chunks.contents_push c f⟩

omit hlib in
theorem onVideoFrame_cases (c : Chunks VideoFrame) (s : Pipeline) (f : VideoFrame)
    (h : Refines lib c s) (hs : InitOnce s) :
    let t := (emitInit lib (captureParameterSets s f)).1
    (t.seg.initEmitted = false ∧ onVideoFrame lib s f = t) ∨
      (t.seg.initEmitted = true ∧ onVideoFrame lib s f = (bufferFrame lib t f).1) := by
  obtain ⟨hsame, -, honce⟩ := captureParameterSets_untouched s f
  obtain ⟨-, -, herror, -⟩ := emitInit_once lib c (captureParameterSets s f)
    (h.untouched lib c s _ hsame) (honce hs)
  rw [onVideoFrame, ingestFrame]
  generalize emitInit lib (captureParameterSets s f) = outcome at herror ⊢
  obtain ⟨t, e⟩ := outcome
  cases e with
  | some e => exact .inl ⟨herror (by simp),rfl⟩
  | none =>
    by_cases hemitted : t.seg.initEmitted = false
    · simp only [if_pos hemitted]
      exact .inl ⟨hemitted,trivial⟩
    · simp only [if_neg hemitted]
      exact .inr ⟨Bool.eq_true_of_not_eq_false hemitted,trivial⟩

theorem onVideoFrame_clocked (c : Chunks VideoFrame) (s : Pipeline) (f : VideoFrame)
    (h : Clocked lib c s) (hs : InitOnce s) :
    ∃ c', Clocked lib c' (onVideoFrame lib s f) ∧
      c'.contents = c.contents++if (onVideoFrame lib s f).seg.initEmitted then [f] else [] := by
  have hprepared := h.same lib c s _ (prepared_clock lib s f)
  rcases onVideoFrame_cases lib c s f h.refines hs with ⟨hemitted, hframe⟩ | ⟨hemitted, hframe⟩
  · rw [hframe, hemitted]
    exact ⟨c,hprepared,(List.append_nil _).symm⟩
  · obtain ⟨c', hc', hcontents⟩ := bufferFrame_clocked lib hlib c _ f hprepared
    obtain ⟨-, -, -, hemits⟩ := bufferFrame_refines lib hlib c _ f hprepared.refines
    rw [hframe, hemits.initEmitted, hemitted]
    exact ⟨c',hc',hcontents⟩

theorem close_clocked (c : Chunks VideoFrame) (s : Pipeline) (h : Clocked lib c s) :
    ∃ c', Clocked lib c' (close lib s).1 ∧ c'.contents = c.contents := by
  unfold close
  split
  · obtain ⟨c', hc', hcontents, -, -⟩ := flushLocked_clocked lib hlib c s h
    exact ⟨c',hc',hcontents⟩
  · exact ⟨c,h,rfl⟩

theorem run_clocked (ops : List Op) (c : Chunks VideoFrame) (s : Pipeline) (h : Clocked lib c s)
    (hs : InitOnce s) :
    ∃ c', Clocked lib c' (run (next lib) s ops) ∧ InitOnce (run (next lib) s ops) ∧
      c'.contents = c.contents++arrived lib s ops := by
  induction ops generalizing c s with
  | nil => exact ⟨c,h,hs,(List.append_nil _).symm⟩
  | cons op ops ih =>
    cases op with
    | onVideoFrame f =>
      obtain ⟨c', hc', hcontents⟩ := onVideoFrame_clocked lib hlib c s f h hs
      obtain ⟨-, -, hinit, -⟩ := onVideoFrame_refines lib hlib c s f h.refines hs
      obtain ⟨c'', hc'', hinit', hcontents'⟩ := ih c' _ hc' hinit
      refine ⟨c'', hc'', hinit', ?_⟩
      rw [hcontents', hcontents, List.append_assoc]
      rfl
    | close =>
      obtain ⟨c', hc', hcontents⟩ := close_clocked lib hlib c s h
      obtain ⟨-, -, hinit, -⟩ := close_refines lib hlib c s h.refines hs
      obtain ⟨c'', hc'', hinit', hcontents'⟩ := ih c' _ hc' hinit
      refine ⟨c'', hc'', hinit', ?_⟩
      rw [hcontents', hcontents]
      rfl

omit hlib in
theorem newPipeline_clocked : Clocked lib Chunks.empty newPipeline :=
  Clocked.emptied lib _ _ (newPipeline_refines lib) rfl rfl

/-- The call hands over the buffer as a cut by a keyframe stamps it. -/
structure Closes (s : Pipeline) (f : VideoFrame) (call : MediaCall) : Prop where
  keyframe : f.keyframe = true
  buffered : s.seg.segmentSamples ≠ []
  encoded : lib.encodeSegment ⟨s.seg.sequenceNumber, 1,
    fullSamples lib true (stampLast s.seg.segmentSamples)⟩ = .ok call.bytes
  ticks : call.durationTicks = totalTicks (stampLast s.seg.segmentSamples)

omit hlib in
theorem append_ne_self (calls more : List MediaCall) (call : MediaCall) (h : more = calls)
    (hcall : more = calls++[call]) : False := by
  rw [h] at hcall
  exact List.cons_ne_nil call [] (List.self_eq_append_right.mp hcall)

theorem bufferFrame_closes (c : Chunks VideoFrame) (s : Pipeline) (f : VideoFrame)
    (call : MediaCall) (h : Refines lib c s)
    (hcall : mediaCalls (bufferFrame lib s f).1.calls = mediaCalls s.calls++[call]) :
    Closes lib s f call := by
  by_cases hsamples : s.seg.segmentSamples = []
  · rw [bufferFrame_first lib s f hsamples] at hcall
    exact (append_ne_self _ _ call rfl hcall).elim
  · rw [bufferFrame, if_neg hsamples] at hcall
    simp only [cutSegment] at hcall
    by_cases hdue : segmentDue s.seg f = true
    · have hkeyframe : f.keyframe = true := by
        simp only [segmentDue, Bool.and_eq_true] at hdue
        exact hdue.1.1
      rw [if_pos hdue] at hcall
      cases hkey : s.seg.segmentHasKey with
      | false =>
        simp only [flushLocked, if_neg hsamples, if_pos hkey] at hcall
        exact (append_ne_self _ _ call (emitDuePart_clock lib _ f).untouched.media hcall).elim
      | true =>
        obtain ⟨bytes, hencode, hflush⟩ := flushLocked_keyed lib hlib c s h hsamples hkey
        simp only [hflush] at hcall
        rw [(emitDuePart_clock lib _ f).untouched.media] at hcall
        have hflushed : mediaCalls (flushed s bytes).calls = mediaCalls s.calls++[call] := hcall
        rw [flushed, mediaCalls_append, List.append_cancel_left_eq] at hflushed
        obtain rfl := List.singleton_inj.mp hflushed
        exact ⟨hkeyframe,hsamples,hencode,rfl⟩
    · rw [if_neg hdue] at hcall
      exact (append_ne_self _ _ call (emitDuePart_clock lib _ f).untouched.media hcall).elim

theorem onVideoFrame_closes (c : Chunks VideoFrame) (s : Pipeline) (f : VideoFrame)
    (call : MediaCall) (h : Clocked lib c s) (hs : InitOnce s)
    (hcall : mediaCalls (onVideoFrame lib s f).calls = mediaCalls s.calls++[call]) :
    Closes lib s f call := by
  have hprepared := h.same lib c s _ (prepared_clock lib s f)
  have hmedia := (prepared_clock lib s f).untouched.media
  rcases onVideoFrame_cases lib c s f h.refines hs with ⟨-, hframe⟩ | ⟨-, hframe⟩
  · rw [hframe] at hcall
    exact (append_ne_self _ _ call hmedia hcall).elim
  · rw [hframe, ← hmedia] at hcall
    have hcloses := bufferFrame_closes lib hlib c _ f call hprepared.refines hcall
    obtain ⟨sps, pps, emitted, hseg⟩ := (prepared lib s f).seg
    refine ⟨hcloses.keyframe, ?_, ?_, ?_⟩
    · have hbuffered := hcloses.buffered
      rwa [hseg] at hbuffered
    · have hencoded := hcloses.encoded
      rwa [hseg] at hencoded
    · have hticks := hcloses.ticks
      rwa [hseg] at hticks

omit hlib in
def bufferedFrames (ops : List Op) : List VideoFrame :=
  (arrived lib newPipeline ops).rtake
    (run (next lib) newPipeline ops).seg.segmentSamples.length

theorem bufferedFrames_pending (ops : List Op) :
    ∃ c, Clocked lib c (run (next lib) newPipeline ops) ∧
      InitOnce (run (next lib) newPipeline ops) ∧ c.pending = bufferedFrames lib ops := by
  obtain ⟨c, hc, hinit, hcontents⟩ := run_clocked lib hlib ops Chunks.empty newPipeline
    (newPipeline_clocked lib) newPipeline_once
  refine ⟨c, hc, hinit, ?_⟩
  have hlength : (run (next lib) newPipeline ops).seg.segmentSamples.length = c.pending.length := by
    have hdata := congrArg List.length hc.refines.samples
    rwa [List.length_map, List.length_map] at hdata
  have harrived : arrived lib newPipeline ops = (c.closed.map Prod.fst).flatten++c.pending :=
    hcontents.symm
  rw [bufferedFrames, hlength, harrived, List.rtake_eq_reverse_take_reverse, List.reverse_append,
    ← List.length_reverse, List.take_left, List.reverse_reverse]

/-- A segment that a keyframe closes holds the latest frames. Its ticks run from the
first of them to the keyframe, and every sample lasts until the next frame, if and only
if the keyframe comes 3000 ticks after the last of them. -/
theorem segment_durations_exact (ops : List Op) (f : VideoFrame) (call : MediaCall)
    (hcall : mediaCalls (onVideoFrame lib (run (next lib) newPipeline ops) f).calls =
      mediaCalls (run (next lib) newPipeline ops).calls++[call]) :
    let s := run (next lib) newPipeline ops
    let frames := bufferedFrames lib ops
    let samples := stampLast s.seg.segmentSamples
    Closes lib s f call ∧ samples.map Sample.data = frames.map sampleData ∧
    ∃ first last, frames.head? = some first ∧ frames.getLast? = some last ∧
      ((call.durationTicks = f.timestamp-first.timestamp ∧
        samples.map Sample.dur = gaps (frames.map VideoFrame.timestamp++[f.timestamp])) ↔
          f.timestamp-last.timestamp = 3000) := by
  intro s frames samples
  obtain ⟨c, hc, hinit, hbuffered⟩ := bufferedFrames_pending lib hlib ops
  have hpending : c.pending = frames := hbuffered
  have hcloses := onVideoFrame_closes lib hlib c s f call hc hinit hcall
  have hne : frames ≠ [] := by
    intro hnil
    rw [← hpending] at hnil
    exact hcloses.buffered ((pending_iff lib c s hc.refines).mpr hnil)
  obtain ⟨front, last, hframes⟩ := List.eq_nil_or_concat frames |>.resolve_left hne
  rw [List.concat_eq_append] at hframes
  obtain ⟨first, hfirst⟩ := Option.ne_none_iff_exists'.mp
    (show frames.head? ≠ none by simp [hframes])
  have hsamples : samples = samplesUntil frames (last.timestamp+3000) := by
    show stampLast s.seg.segmentSamples = _
    rw [hc.samples, hpending, hframes, lastTime_concat, stampLast_samplesUntil]
  refine ⟨hcloses, ?_, first, last, hfirst, ?_, ?_⟩
  · rw [hsamples, samplesUntil_data]
  · rw [hframes, List.getLast?_concat]
  · have hticks : call.durationTicks = last.timestamp+3000-first.timestamp := by
      rw [hcloses.ticks]
      show totalTicks samples = _
      rw [hsamples, totalTicks_samplesUntil frames first hfirst]
    rw [hticks, hsamples, ← samplesUntil_dur, hframes, samplesUntil_inj]
    constructor
    · rintro ⟨-, hnext⟩
      grind
    · intro hgap
      have hnext : last.timestamp+3000 = f.timestamp := by grind
      exact ⟨by rw [hnext],hnext⟩

end Runs

section Samples

def steadyFrames : List Op := [.onVideoFrame (keyframeAt 0), .onVideoFrame (sampleAt 537000)]

theorem segment_durations_exact_steady :
    (stampLast (run (next sampleMp4) newPipeline steadyFrames).seg.segmentSamples).map Sample.dur =
      gaps ((bufferedFrames sampleMp4 steadyFrames).map VideoFrame.timestamp++[540000]) := by
  obtain ⟨-, -, first, last, -, hlast, hiff⟩ := segment_durations_exact sampleMp4 sampleMp4_succeeds
    steadyFrames (keyframeAt 540000)
    ⟨0, [0, 0, 0, 2, 103, 1, 0, 0, 0, 2, 104, 2, 0, 0, 0, 2, 101, 3, 0, 0, 0, 2, 65, 4], 540000,
      true⟩ (by decide +kernel)
  have hend : (bufferedFrames sampleMp4 steadyFrames).getLast? = some (sampleAt 537000) := by
    decide +kernel
  obtain rfl := Option.some.inj (hend.symm.trans hlast)
  exact (hiff.mpr (by decide)).2

/-- Of the three seconds up to the keyframe a thirtieth of one is reported. -/
theorem last_picture_cut_short :
    let ops := [.onVideoFrame (keyframeAt 0), .onVideoFrame (sampleAt 270000)]
    let s := run (next sampleMp4) newPipeline ops
    (bufferedFrames sampleMp4 ops).map VideoFrame.timestamp = [0, 270000] ∧
    mediaCalls s.calls = [] ∧
    (mediaCalls (onVideoFrame sampleMp4 s (keyframeAt 540000)).calls).map
      MediaCall.durationTicks = [273000] ∧
    (273000 : UInt32) ≠ (keyframeAt 540000).timestamp-(keyframeAt 0).timestamp := by
  decide +kernel

end Samples

end Aevia.Whip
