import Aevia.Provider.Depacketizer
import Aevia.Provider.MirrorStream
import Aevia.Provider.SegmentTiling
import Mathlib.Data.List.Chain

/-!
# What an origin and its mirrors feed their pipelines

The origin takes packets from the publisher's track, a mirror from the frames of
a stream. Each depacketizes them and hands the units on as video frames. The
mirror does not say which are keyframes, and its segmenter cuts at keyframes only.
-/

set_option autoImplicit false

namespace Aevia.Mirror
open Aevia.Bytes Aevia.ByteReader Aevia.Run Aevia.Whip

structure RTPLib (π : Type) where
  sequenceNumber : π → UInt16
  timestamp : π → UInt32
  payload : π → Bytes
  marshal : π → Bytes
  unmarshal : Bytes → Option π

section Pumps
variable {π σ τ : Type} (rtp : RTPLib π) (codec : H264Codec σ) (write : Writer τ)

/-- The origin's loop over the packets of a track, up to the error that ends it. -/
def teeVideoTrack (depack : σ) : List π → List VideoFrame
  | [] => []
  | pkt::pkts =>
    let next := (codec.unmarshal depack (rtp.payload pkt)).2
    match (codec.unmarshal depack (rtp.payload pkt)).1 with
    | none => teeVideoTrack next pkts
    | some nal =>
      if nal = [] then teeVideoTrack next pkts
      else ⟨nal, rtp.timestamp pkt, isKeyframe nal⟩::teeVideoTrack next pkts

/-- The mirror's loop: its depacketizer, the stream it writes echoes to and what
it has handed to the frame sink, which is attached. -/
structure MirrorPump (σ τ : Type) where
  videoDepack : H264SeqAwareDepacketizer σ
  stream : τ
  fed : List VideoFrame

def newMirrorPump (stream : τ) : MirrorPump σ τ :=
  ⟨newH264SeqAwareDepacketizer codec, stream, []⟩

/-- The keyframe field of the frame is left out. -/
def handleVideo (s : MirrorPump σ τ) (pkt : π) : MirrorPump σ τ :=
  let out := depacketize codec s.videoDepack (rtp.sequenceNumber pkt) (rtp.payload pkt)
  if out.1.ok ∧ 0 < out.1.nal.length then
    { s with videoDepack := out.2, fed := s.fed++[⟨out.1.nal, rtp.timestamp pkt, false⟩] }
  else { s with videoDepack := out.2 }

/-- One round with a frame that has been read, and whether another follows. -/
def handleFrame (s : MirrorPump σ τ) (frame : Frame) : MirrorPump σ τ × Bool :=
  if frame.type = frameTypeVideoRTP ∨ frame.type = frameTypeAudioRTP then
    match frame.rtp with
    | none => (s, true)
    | some f => match rtp.unmarshal f.rtp with
      | none => (s, true)
      | some pkt =>
        (if frame.type = frameTypeVideoRTP then handleVideo rtp codec s pkt else s, true)
  else if frame.type = frameTypeProbe then
    match frame.probe with
    | none => (s, true)
    | some p => match writeProbeEcho write s.stream p with
      | .error _ => (s, false)
      | .ok stream => ({ s with stream := stream }, true)
  else (s, true)

def handleFrames (s : MirrorPump σ τ) : List Frame → MirrorPump σ τ
  | [] => s
  | frame::frames =>
    if (handleFrame rtp codec write s frame).2 then
      handleFrames (handleFrame rtp codec write s frame).1 frames
    else (handleFrame rtp codec write s frame).1

end Pumps

section Units
variable {π σ : Type} (rtp : RTPLib π) (codec : H264Codec σ)

def units (depack : σ) : List π → List (Bytes × UInt32)
  | [] => []
  | pkt::pkts =>
    let nal := (codec.unmarshal depack (rtp.payload pkt)).1.getD []
    (if nal = [] then [] else [(nal, rtp.timestamp pkt)])++
      units (codec.unmarshal depack (rtp.payload pkt)).2 pkts

theorem teeVideoTrack_units (depack : σ) (pkts : List π) : teeVideoTrack rtp codec depack pkts =
    (units rtp codec depack pkts).map (fun u => ⟨u.1, u.2, isKeyframe u.1⟩) := by
  induction pkts generalizing depack with
  | nil => rfl
  | cons pkt pkts ih =>
    rw [teeVideoTrack, units, List.map_append]
    cases hnal : (codec.unmarshal depack (rtp.payload pkt)).1 with
    | none => exact ih _
    | some nal =>
      by_cases hempty : nal = []
      · simp [hempty, ih]
      · simp [hempty, ih]

def InOrder (pkts : List π) : Prop :=
  pkts.IsChain (fun p q => rtp.sequenceNumber q = rtp.sequenceNumber p+1)

def NoGap (d : H264SeqAwareDepacketizer σ) (pkt : π) : Prop :=
  d.hasLast = true → rtp.sequenceNumber pkt = d.lastSeq+1

theorem noGap_gap (d : H264SeqAwareDepacketizer σ) (pkt : π) (h : NoGap rtp d pkt) :
    gap d (rtp.sequenceNumber pkt) (rtp.payload pkt) = false := by
  unfold gap
  cases hhas : d.hasLast with
  | false => rfl
  | true => simp [h hhas]

variable {τ : Type}

theorem handleVideo_next (s : MirrorPump σ τ) (pkt : π) (h : NoGap rtp s.videoDepack pkt) :
    handleVideo rtp codec s pkt =
      ⟨⟨(codec.unmarshal s.videoDepack.inner (rtp.payload pkt)).2, true, rtp.sequenceNumber pkt,
          s.videoDepack.dropCount⟩, s.stream,
        s.fed++(units rtp codec s.videoDepack.inner [pkt]).map (fun u => ⟨u.1, u.2, false⟩)⟩ := by
  rw [handleVideo, depacketize_next codec _ _ _ (noGap_gap rtp _ pkt h)]
  cases hnal : (codec.unmarshal s.videoDepack.inner (rtp.payload pkt)).1 with
  | none => simp [units, hnal]
  | some nal =>
    by_cases hempty : nal = []
    · simp [units, hnal, hempty]
    · simp [units, hnal, hempty, List.length_pos_iff]

theorem handleVideo_run (pkts : List π) (hpkts : InOrder rtp pkts) (s : MirrorPump σ τ)
    (hs : ∀ pkt ∈ pkts.head?, NoGap rtp s.videoDepack pkt) :
    (pkts.foldl (handleVideo rtp codec) s).fed =
      s.fed++(units rtp codec s.videoDepack.inner pkts).map (fun u => ⟨u.1, u.2, false⟩) := by
  induction pkts generalizing s with
  | nil => simp [units]
  | cons pkt pkts ih =>
    unfold InOrder at hpkts
    rw [List.isChain_cons] at hpkts
    rw [List.foldl_cons, handleVideo_next rtp codec s pkt (hs pkt rfl), ih hpkts.2]
    · simp [units]
    · intro next hnext _
      exact hpkts.1 next hnext

end Units

section Streams
variable {π σ τ : Type} (rtp : RTPLib π) (codec : H264Codec σ) (write : Writer τ)

def videoPacket : Sent → Option Bytes
  | .video _ packet => some packet.bytes
  | _ => none

theorem handleVideo_stream (pkts : List π) (s : MirrorPump σ τ) (stream : τ) :
    (pkts.foldl (handleVideo rtp codec) { s with stream := stream }).fed =
      (pkts.foldl (handleVideo rtp codec) s).fed := by
  induction pkts generalizing s with
  | nil => rfl
  | cons pkt pkts ih =>
    have hone : handleVideo rtp codec { s with stream := stream } pkt =
        { handleVideo rtp codec s pkt with stream := stream } := by
      simp only [handleVideo]
      split_ifs <;> rfl
    rw [List.foldl_cons, List.foldl_cons, hone, ih]

theorem writeProbeEcho_taken (hwrite : ∀ w b, ∃ w', write w b = .ok w') (w : τ) (p : ProbeFrame) :
    ∃ w', writeProbeEcho write w p = .ok w' := by
  obtain ⟨w₁, h₁⟩ := hwrite w (frameTypeProbeEcho::bigEndian 4 (marshalProbeBody p).length)
  obtain ⟨w₂, h₂⟩ := hwrite w₁ (marshalProbeBody p)
  have hbody : marshalProbeBody p ≠ [] := by
    intro h
    have hlength := marshalProbeBody_length p
    rw [h] at hlength
    cases hlength
  exact ⟨w₂,by simp [writeProbeEcho, writeFrame, GoError.context, bind, Except.bind, h₁, h₂, hbody]⟩

theorem handleFrames_sent (hwrite : ∀ w b, ∃ w', write w b = .ok w') (sent : List Sent)
    (pkts : List π) (hpkts : sent.filterMap videoPacket = pkts.map rtp.marshal)
    (hrtp : ∀ pkt ∈ pkts, rtp.unmarshal (rtp.marshal pkt) = some pkt) (s : MirrorPump σ τ) :
    (handleFrames rtp codec write s (sent.map Sent.frame)).fed =
      (pkts.foldl (handleVideo rtp codec) s).fed := by
  induction sent generalizing pkts s with
  | nil =>
    rw [List.map_eq_nil_iff.mp hpkts.symm]
    rfl
  | cons f sent ih =>
    cases f with
    | video originNS packet =>
      obtain ⟨pkt, rest, rfl, hbytes, hrest⟩ := List.map_eq_cons_iff.mp hpkts.symm
      have hpkt : rtp.unmarshal packet.bytes = some pkt := by
        rw [← hbytes]
        exact hrtp pkt List.mem_cons_self
      have hround : handleFrame rtp codec write s (Sent.video originNS packet).frame =
          (handleVideo rtp codec s pkt, true) := by
        simp [handleFrame, Sent.frame, hpkt]
      rw [List.map_cons, handleFrames, hround]
      exact ih rest hrest.symm (fun p hp => hrtp p (List.mem_cons_of_mem _ hp)) _
    | audio originNS packet =>
      have hround : handleFrame rtp codec write s (Sent.audio originNS packet).frame = (s, true) := by
        simp only [handleFrame, Sent.frame]
        cases rtp.unmarshal packet.bytes <;> rfl
      rw [List.map_cons, handleFrames, hround]
      exact ih pkts hpkts hrtp s
    | probe p =>
      obtain ⟨stream, hecho⟩ : ∃ stream, writeProbeEcho write s.stream p = .ok stream :=
        writeProbeEcho_taken write hwrite _ p
      have hround : handleFrame rtp codec write s (Sent.probe p).frame =
          ({ s with stream := stream }, true) := by
        simp only [handleFrame, Sent.frame, hecho]
        rfl
      rw [List.map_cons, handleFrames, hround]
      exact (ih pkts hpkts hrtp _).trans (handleVideo_stream rtp codec pkts s stream)
    | probeEcho p => exact ih pkts hpkts hrtp s

def sentBytes (sent : List Sent) : Bytes :=
  sent.flatMap Sent.encode++frameBytes frameTypeClose [] []

theorem sent_drains (sent : List Sent) :
    Drains readAnyFrame (sentBytes sent) (sent.map Sent.frame) eof [] := by
  have hall := drains_append readAnyFrame Sent.encode Sent.frame sent
    (fun f _ rest => f.readAnyFrame_append rest) _ _ _ _ (Drains.stop readAnyFrame_close)
  rwa [List.append_nil] at hall

/-- A mirror that gets all the packets feeds the frames that the origin feeds if
and only if none of their units is a keyframe. -/
theorem feeds_agree_iff (hwrite : ∀ w b, ∃ w', write w b = .ok w') (pkts : List π)
    (hrtp : ∀ pkt ∈ pkts, rtp.unmarshal (rtp.marshal pkt) = some pkt) (hpkts : InOrder rtp pkts)
    (sent : List Sent) (hsent : sent.filterMap videoPacket = pkts.map rtp.marshal)
    (frames : List Frame) (e : GoError) (left : Bytes) (stream : τ)
    (hread : Drains readAnyFrame (sentBytes sent) frames e left) :
    (handleFrames rtp codec write (newMirrorPump codec stream) frames).fed =
        teeVideoTrack rtp codec codec.new pkts ↔
      ∀ u ∈ units rtp codec codec.new pkts, isKeyframe u.1 = false := by
  rw [(hread.unique (sent_drains sent)).1,
    handleFrames_sent rtp codec write hwrite sent pkts hsent hrtp,
    handleVideo_run rtp codec pkts hpkts _ (fun _ _ h => absurd h Bool.false_ne_true),
    teeVideoTrack_units]
  show [] ++ (units rtp codec codec.new pkts).map _ = _ ↔ _
  rw [List.nil_append, List.map_inj_left]
  constructor
  · intro h u hu
    exact (congrArg VideoFrame.keyframe (h u hu)).symm
  · intro h u hu
    rw [h u hu]

end Streams

section Samples

structure PlainPacket where
  sequenceNumber : UInt16
  timestamp : UInt32
  payload : Bytes
  deriving DecidableEq

/-- Packets with nothing in the header but a payload type, a sequence number and
a timestamp. -/
def plainRTP : RTPLib PlainPacket where
  sequenceNumber := PlainPacket.sequenceNumber
  timestamp := PlainPacket.timestamp
  payload := PlainPacket.payload
  marshal p := [0x80, 0x60]++bigEndian 2 p.sequenceNumber.toNat++bigEndian 4 p.timestamp.toNat++
    [0, 0, 0, 0]++p.payload
  unmarshal raw :=
    if raw.length < 12 then none
    else some ⟨UInt16.ofNat (ofBigEndian ((raw.drop 2).take 2)),
      UInt32.ofNat (ofBigEndian ((raw.drop 4).take 4)), raw.drop 12⟩

def deltaPackets : List PlainPacket :=
  [⟨65534, 3000, [0x7C, 0x81, 0xAA]⟩, ⟨65535, 3000, [0x7C, 0x41, 0xEE]⟩, ⟨0, 6000, [0x61, 0xFF]⟩]

def deltaSent : List Sent :=
  [.video 1 ⟨plainRTP.marshal ⟨65534, 3000, [0x7C, 0x81, 0xAA]⟩, by decide⟩, .probe ⟨1, 2⟩,
    .video 2 ⟨plainRTP.marshal ⟨65535, 3000, [0x7C, 0x41, 0xEE]⟩, by decide⟩,
    .video 3 ⟨plainRTP.marshal ⟨0, 6000, [0x61, 0xFF]⟩, by decide⟩]

theorem deltas_agree :
    (handleFrames plainRTP plainCodec buffer (newMirrorPump plainCodec [])
        (deltaSent.map Sent.frame)).fed = teeVideoTrack plainRTP plainCodec plainCodec.new deltaPackets ↔
      ∀ u ∈ units plainRTP plainCodec plainCodec.new deltaPackets, isKeyframe u.1 = false :=
  feeds_agree_iff plainRTP plainCodec buffer (fun w b => ⟨w++b,rfl⟩) deltaPackets (by decide)
    (by unfold InOrder; decide) deltaSent (by decide) _ eof [] [] (sent_drains deltaSent)

def keyframePacket : PlainPacket := ⟨10, 3000, [0x65, 0xFF]⟩

def keyframeSent : List Sent := [.video 1 ⟨plainRTP.marshal keyframePacket, by decide⟩]

theorem keyframe_feeds_differ :
    InOrder plainRTP [keyframePacket] ∧
    keyframeSent.filterMap videoPacket = [keyframePacket].map plainRTP.marshal ∧
    (handleFrames plainRTP plainCodec buffer (newMirrorPump plainCodec [])
        (keyframeSent.map Sent.frame)).fed ≠
      teeVideoTrack plainRTP plainCodec plainCodec.new [keyframePacket] := by
  refine ⟨?_, rfl, ?_⟩
  · unfold InOrder
    decide
  · decide

end Samples

section Segments
variable {π σ τ : Type} (rtp : RTPLib π) (codec : H264Codec σ) (write : Writer τ)

theorem handleFrames_keyless (frames : List Frame) (s : MirrorPump σ τ)
    (hs : ∀ f ∈ s.fed, f.keyframe = false) :
    ∀ f ∈ (handleFrames rtp codec write s frames).fed, f.keyframe = false := by
  have hvideo : ∀ (s : MirrorPump σ τ) pkt, (∀ f ∈ s.fed, f.keyframe = false) →
      ∀ f ∈ (handleVideo rtp codec s pkt).fed, f.keyframe = false := by
    intro s pkt hs
    simp only [handleVideo]
    split_ifs
    · intro f hf
      rcases List.mem_append.mp hf with hf | hf
      · exact hs f hf
      · rw [List.mem_singleton.mp hf]
    · exact hs
  have hround : ∀ (s : MirrorPump σ τ) frame, (∀ f ∈ s.fed, f.keyframe = false) →
      ∀ f ∈ (handleFrame rtp codec write s frame).1.fed, f.keyframe = false := by
    intro s frame hs
    fun_cases handleFrame rtp codec write s frame
    case case3 pkt _ =>
      show ∀ f ∈ (if frame.type = frameTypeVideoRTP then handleVideo rtp codec s pkt else s).fed, _
      split_ifs
      · exact hvideo s pkt hs
      · exact hs
    all_goals exact hs
  induction frames generalizing s with
  | nil => exact hs
  | cons frame frames ih =>
    rw [handleFrames]
    split_ifs
    · exact ih _ (hround s frame hs)
    · exact hround s frame hs

/-- No media segment has been cut, and none will be without a keyframe. -/
def Uncut (s : Pipeline) : Prop := s.seg.segmentHasKey = false ∧ mediaCalls s.calls = []

theorem Uncut.untouched {s s' : Pipeline} (h : Uncut s) (hs : Untouched s s') : Uncut s' :=
  ⟨hs.key.trans h.1,hs.media.trans h.2⟩

variable (lib : Mp4)

theorem flushLocked_uncut (s : Pipeline) (hs : Uncut s) : Uncut (flushLocked lib s).1 := by
  unfold flushLocked
  by_cases hsamples : s.seg.segmentSamples = []
  · rwa [if_pos hsamples]
  · rwa [if_neg hsamples, if_pos hs.1]

theorem appendSample_uncut (s : Pipeline) (f : VideoFrame) (hf : f.keyframe = false)
    (hs : Uncut s) : Uncut (appendSample s f) := by
  refine ⟨?_, hs.2⟩
  show (if f.keyframe then true else s.seg.segmentHasKey) = false
  rw [hf]
  exact hs.1

theorem bufferFrame_uncut (s : Pipeline) (f : VideoFrame) (hf : f.keyframe = false)
    (hs : Uncut s) : Uncut (bufferFrame lib s f).1 := by
  have hstarted : ∀ t : Pipeline, Uncut t → Uncut (emitDuePart lib (appendSample t f) f).1 :=
    fun t ht => (appendSample_uncut t f hf ht).untouched (emitDuePart_untouched lib _ f).1
  -- only a keyframe makes a cut due
  have hcut : ∀ t : Pipeline, cutSegment lib t f = (t, none) := by
    intro t
    rw [cutSegment, segmentDue, hf]
    rfl
  unfold bufferFrame
  simp only [hcut]
  split_ifs
  · exact hstarted _ (hs.untouched (startSegment_untouched s f).1)
  · exact hstarted s hs

theorem onVideoFrame_uncut (s : Pipeline) (f : VideoFrame) (hf : f.keyframe = false)
    (hs : Uncut s) : Uncut (onVideoFrame lib s f) := by
  have hprepared : Uncut (emitInit lib (captureParameterSets s f)).1 :=
    hs.untouched (prepared lib s f).untouched
  unfold onVideoFrame ingestFrame
  generalize emitInit lib (captureParameterSets s f) = outcome at hprepared
  obtain ⟨t, e⟩ := outcome
  cases e with
  | some e => exact hprepared
  | none =>
    show Uncut (if t.seg.initEmitted = false then (t, none) else bufferFrame lib t f).1
    split_ifs
    · exact hprepared
    · exact bufferFrame_uncut lib t f hf hprepared

theorem close_uncut (s : Pipeline) (hs : Uncut s) : Uncut (close lib s).1 := by
  unfold close
  split_ifs
  · exact flushLocked_uncut lib s hs
  · exact hs

/-- The segmenter of a mirror never cuts a segment. -/
theorem mirror_never_cuts (frames : List Frame) (stream : τ) :
    mediaCalls (run (Whip.next lib) newPipeline
      ((handleFrames rtp codec write (newMirrorPump codec stream) frames).fed.map .onVideoFrame++
        [.close])).calls = [] := by
  have hkeyless := handleFrames_keyless rtp codec write frames (newMirrorPump codec stream) nofun
  generalize (handleFrames rtp codec write (newMirrorPump codec stream) frames).fed = fed at hkeyless
  have hfed : ∀ s : Pipeline, Uncut s → Uncut (run (Whip.next lib) s (fed.map .onVideoFrame)) := by
    induction fed with
    | nil => exact fun s hs => hs
    | cons f fed ih =>
      intro s hs
      obtain ⟨hf, hrest⟩ := List.forall_mem_cons.mp hkeyless
      exact ih hrest _ (onVideoFrame_uncut lib s f hf hs)
  rw [run_append]
  exact (close_uncut lib _ (hfed newPipeline ⟨rfl,rfl⟩)).2

end Segments

end Aevia.Mirror
