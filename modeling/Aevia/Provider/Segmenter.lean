import Aevia.Provider.Frames
import Aevia.Provider.LivePin
import Mathlib.Data.List.ModifyLast

/-!
# The CMAF segmenter

Frames are gathered into media segments that are cut at keyframes, and into
parts of them. The mp4 package is a parameter: what it does with the samples of
a fragment is outside, and each of its calls may fail. The sink is a live sink,
which takes parts too, so the optional part sink is set.
-/

set_option autoImplicit false

namespace Aevia.Whip
open Aevia.GoError

def videoTimescale : ℕ := 90000

def targetSegmentDuration : ℕ := 6

def partTargetDuration : ℕ := 2

structure FullSample where
  dur : UInt32
  size : UInt32
  flags : UInt32
  data : Bytes
  deriving DecidableEq

structure Fragment where
  sequenceNumber : UInt32
  trackID : UInt32
  samples : List FullSample
  deriving DecidableEq

structure InitTrack where
  timescale : ℕ
  mediaType : String
  lang : String
  sampleEntry : String
  spss : List Bytes
  ppss : List Bytes
  width : UInt16
  height : UInt16

/-- The calls of the mp4 package. -/
structure Mp4 where
  nonSyncSampleFlags : UInt32
  parseSPSNALUnit : Bytes → Except GoError (ℕ × ℕ)
  setAVCDescriptor : (sampleEntry : String) → (spss ppss : List Bytes) → Except GoError Unit
  encodeInit : InitTrack → Except GoError Bytes
  createFragment : (sequenceNumber trackID : UInt32) → Except GoError Unit
  encodeSegment : Fragment → Except GoError Bytes

/-- An entry of `segmentSampleBufs` with the one of `segmentDurations` beside it.
Both slices are appended to and cut back together. -/
structure Sample where
  data : Bytes
  dur : UInt32
  deriving DecidableEq

structure CMAFSegmenter where
  sps : Bytes
  pps : Bytes
  initEmitted : Bool
  segmentStartTS : UInt32
  segmentHasKey : Bool
  segmentSamples : List Sample
  nextSegmentIndex : UInt32
  totalSegments : UInt32
  sequenceNumber : UInt32
  partStartTS : UInt32
  partStartSampleIdx : ℕ
  partIndexInSegment : UInt32
  partStartsOnKeyframe : Bool

def newCMAFSegmenter : CMAFSegmenter where
  sps := []
  pps := []
  initEmitted := false
  segmentStartTS := 0
  segmentHasKey := false
  segmentSamples := []
  nextSegmentIndex := 0
  totalSegments := 0
  sequenceNumber := 1
  partStartTS := 0
  partStartSampleIdx := 0
  partIndexInSegment := 0
  partStartsOnKeyframe := false

inductive SinkCall where
  | onInitSegment (bytes : Bytes) (accepted : Bool)
  | onMediaSegment (index : UInt32) (bytes : Bytes) (durationTicks : UInt32) (accepted : Bool)
  | onMediaPart (segIdx partIdx : UInt32) (bytes : Bytes) (durationTicks : UInt32)
      (independent accepted : Bool)
  deriving DecidableEq

/-- A segmenter with the sink it feeds, and the calls it has made of it. -/
structure Pipeline where
  seg : CMAFSegmenter
  sink : LivePinSink
  calls : List SinkCall

def newPipeline : Pipeline := ⟨newCMAFSegmenter, newLivePinSink, []⟩

/-- A method may change the state and still report an error. -/
abbrev Outcome := Pipeline × Option GoError

namespace Pipeline

def onInitSegment (s : Pipeline) (bytes : Bytes) : Outcome :=
  match s.sink.onInitSegment bytes with
  | .ok sink => ({ s with sink := sink, calls := s.calls++[.onInitSegment bytes true] }, none)
  | .error e => ({ s with calls := s.calls++[.onInitSegment bytes false] },
      some (.wrap "sink OnInitSegment: %w" [] e))

def onMediaSegment (s : Pipeline) (index : UInt32) (bytes : Bytes) (durationTicks : UInt32) :
    Outcome :=
  match s.sink.onMediaSegment index bytes with
  | .ok sink => ({ s with
      sink := sink, calls := s.calls++[.onMediaSegment index bytes durationTicks true] }, none)
  | .error e => ({ s with calls := s.calls++[.onMediaSegment index bytes durationTicks false] },
      some (.wrap "sink OnMediaSegment: %w" [] e))

def onMediaPart (s : Pipeline) (segIdx partIdx : UInt32) (bytes : Bytes) (durationTicks : UInt32)
    (independent : Bool) : Outcome :=
  match s.sink.onMediaPart segIdx partIdx bytes durationTicks independent with
  | .ok sink => ({ s with
      sink := sink
      calls := s.calls++[.onMediaPart segIdx partIdx bytes durationTicks independent true] }, none)
  | .error e => ({ s with
      calls := s.calls++[.onMediaPart segIdx partIdx bytes durationTicks independent false] },
      some e)

end Pipeline

variable (lib : Mp4)

def buildInitSegment (seg : CMAFSegmenter) : Except GoError Bytes := do
  let dims ← context "parse SPS: %w" (lib.parseSPSNALUnit seg.sps)
  context "SetAVCDescriptor: %w" (lib.setAVCDescriptor "avc3" [seg.sps] [seg.pps])
  context "encode init: %w" (lib.encodeInit
    { timescale := videoTimescale, mediaType := "video", lang := "und", sampleEntry := "avc3"
      spss := [seg.sps], ppss := [seg.pps]
      width := UInt16.ofNat dims.1, height := UInt16.ofNat dims.2 })

def fullSample (flags : UInt32) (s : Sample) : FullSample :=
  ⟨s.dur, UInt32.ofNat s.data.length, flags, s.data⟩

/-- Every sample but a first one that starts at a sync point is marked as non-sync. -/
def fullSamples (sync : Bool) : List Sample → List FullSample
  | [] => []
  | s::rest => fullSample (if sync then 0 else lib.nonSyncSampleFlags) s::
      rest.map (fullSample lib.nonSyncSampleFlags)

def totalTicks (samples : List Sample) : UInt32 :=
  samples.foldl (fun total s => total+s.dur) 0

def buildMediaSegment (seg : CMAFSegmenter) : Except GoError (Bytes × UInt32) := do
  context "CreateFragment: %w" (lib.createFragment seg.sequenceNumber 1)
  let bytes ← context "encode media segment: %w"
    (lib.encodeSegment ⟨seg.sequenceNumber, 1, fullSamples lib true seg.segmentSamples⟩)
  .ok (bytes, totalTicks seg.segmentSamples)

def buildPartSegment (sequenceNumber : UInt32) (samples : List Sample) (startsOnKeyframe : Bool) :
    Except GoError (Bytes × UInt32) :=
  if samples = [] then .error (.new "segmenter: cannot build zero-sample part")
  else do
    context "segmenter: CreateFragment: %w" (lib.createFragment sequenceNumber 1)
    let bytes ← context "segmenter: encode part: %w"
      (lib.encodeSegment ⟨sequenceNumber, 1, fullSamples lib startsOnKeyframe samples⟩)
    .ok (bytes, totalTicks samples)

/-- A thirtieth of a second for a last sample whose duration is still the placeholder. -/
def stampLast (samples : List Sample) : List Sample :=
  samples.modifyLast (fun s =>
    if s.dur = 0 then { s with dur := UInt32.ofNat (videoTimescale/30) } else s)

def flushLocked (s : Pipeline) : Outcome :=
  if s.seg.segmentSamples = [] then (s, none)
  else if s.seg.segmentHasKey = false then
    ({ s with seg := { s.seg with segmentSamples := [] } }, none)
  else
    let stamped := { s.seg with segmentSamples := stampLast s.seg.segmentSamples }
    match buildMediaSegment lib stamped with
    | .error e => ({ s with seg := stamped }, some (.wrap "build media segment: %w" [] e))
    | .ok (segBytes, ticks) =>
      Pipeline.onMediaSegment { s with seg := { stamped with
          nextSegmentIndex := stamped.nextSegmentIndex+1
          totalSegments := stamped.totalSegments+1
          sequenceNumber := stamped.sequenceNumber+1
          segmentSamples := []
          segmentHasKey := false } }
        stamped.nextSegmentIndex segBytes ticks

/-- The cursors move before the sink is called, so they have moved also when it refuses. -/
def emitPartLocked (s : Pipeline) : Outcome :=
  if s.seg.segmentSamples.length ≤ s.seg.partStartSampleIdx then (s, none)
  else
    let samples := stampLast (s.seg.segmentSamples.drop s.seg.partStartSampleIdx)
    match buildPartSegment lib s.seg.sequenceNumber samples s.seg.partStartsOnKeyframe with
    | .error e => (s, some (.wrap "emit part: %w" [] e))
    | .ok (bytes, ticks) =>
      Pipeline.onMediaPart { s with seg := { s.seg with
          sequenceNumber := s.seg.sequenceNumber+1
          partStartSampleIdx := s.seg.segmentSamples.length
          partIndexInSegment := s.seg.partIndexInSegment+1
          partStartsOnKeyframe := false
          partStartTS := s.seg.partStartTS+ticks } }
        s.seg.nextSegmentIndex s.seg.partIndexInSegment bytes ticks s.seg.partStartsOnKeyframe

/-- SPS and PPS units of a frame replace the ones before. -/
def captureUnit (seg : CMAFSegmenter) (unit : Bytes) : CMAFSegmenter :=
  if unit = [] then seg
  else if nalType unit = 7 then { seg with sps := unit }
  else if nalType unit = 8 then { seg with pps := unit }
  else seg

def captureParameterSets (s : Pipeline) (f : VideoFrame) : Pipeline :=
  { s with seg := (splitNALUnits f.nal).foldl captureUnit s.seg }

def emitInit (s : Pipeline) : Outcome :=
  if s.seg.initEmitted = false ∧ s.seg.sps ≠ [] ∧ s.seg.pps ≠ [] then
    match buildInitSegment lib s.seg with
    | .error e => (s, some (.wrap "build init: %w" [] e))
    | .ok initBytes =>
      match s.onInitSegment initBytes with
      | (s, some e) => (s, some e)
      | (s, none) => ({ s with seg := { s.seg with initEmitted := true } }, none)
  else (s, none)

/-- The segment and its first part start at the frame. -/
def startSegment (s : Pipeline) (f : VideoFrame) : Pipeline :=
  { s with seg := { s.seg with
      segmentStartTS := f.timestamp
      partStartTS := f.timestamp
      partStartSampleIdx := 0
      partIndexInSegment := 0
      partStartsOnKeyframe := f.keyframe } }

def segmentDue (seg : CMAFSegmenter) (f : VideoFrame) : Bool :=
  f.keyframe &&
    decide (targetSegmentDuration*videoTimescale ≤ (f.timestamp-seg.segmentStartTS).toNat) &&
    decide (0 < seg.segmentSamples.length)

def cutSegment (s : Pipeline) (f : VideoFrame) : Outcome :=
  if segmentDue s.seg f then
    match flushLocked lib s with
    | (s, some e) => (s, some e)
    | (s, none) => (startSegment s f, none)
  else (s, none)

/-- The duration of the sample before is known now; the new one gets a placeholder. -/
def appendSample (s : Pipeline) (f : VideoFrame) : Pipeline :=
  let prevSampleTS := s.seg.segmentStartTS+totalTicks s.seg.segmentSamples
  let timed := s.seg.segmentSamples.modifyLast (fun x =>
    { x with dur := f.timestamp-prevSampleTS })
  { s with seg := { s.seg with
      segmentSamples := timed++[⟨encodeAVCCSample f.nal, 0⟩]
      segmentHasKey := if f.keyframe then true else s.seg.segmentHasKey } }

def emitDuePart (s : Pipeline) (f : VideoFrame) : Outcome :=
  if partTargetDuration*videoTimescale ≤ (f.timestamp-s.seg.partStartTS).toNat then
    emitPartLocked lib s
  else (s, none)

/-- What `ingestFrame` does with a frame once the init segment is out. -/
def bufferFrame (s : Pipeline) (f : VideoFrame) : Outcome :=
  let s := if s.seg.segmentSamples = [] then startSegment s f else s
  match cutSegment lib s f with
  | (s, some e) => (s, some e)
  | (s, none) => emitDuePart lib (appendSample s f) f

def ingestFrame (s : Pipeline) (f : VideoFrame) : Outcome :=
  match emitInit lib (captureParameterSets s f) with
  | (s, some e) => (s, some e)
  | (s, none) => if s.seg.initEmitted = false then (s, none) else bufferFrame lib s f

/-- Errors are dropped. -/
def onVideoFrame (s : Pipeline) (f : VideoFrame) : Pipeline := (ingestFrame lib s f).1

def close (s : Pipeline) : Outcome :=
  if 0 < s.seg.segmentSamples.length then flushLocked lib s else (s, none)

inductive Op where
  | onVideoFrame (f : VideoFrame)
  | close
  deriving DecidableEq

def next (s : Pipeline) : Op → Pipeline
  | .onVideoFrame f => onVideoFrame lib s f
  | .close => (close lib s).1

end Aevia.Whip
