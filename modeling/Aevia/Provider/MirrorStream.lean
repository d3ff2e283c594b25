import Aevia.Provider.MirrorFrames

/-!
# Mirror streams are read as they are written

Each frame is told from what follows it by its type and the length of its body,
so a stream of any frames in any order is read back frame by frame, and the
reader is at the end when it meets the close frame.
-/

set_option autoImplicit false

namespace Aevia.Mirror
open Aevia.Bytes Aevia.ByteReader Aevia.Fallible

structure Packet where
  bytes : Bytes
  fits : bytes.length ≤ maxFrameBytes

/-- What a stream carries between its header and its close frame. -/
inductive Sent where
  | video (originNS : Int64) (packet : Packet)
  | audio (originNS : Int64) (packet : Packet)
  | probe (p : ProbeFrame)
  | probeEcho (p : ProbeFrame)

namespace Sent

def write {σ : Type} (write : Writer σ) (w : σ) : Sent → Except GoError σ
  | video originNS packet => writeRTPFrame write w frameTypeVideoRTP originNS packet.bytes
  | audio originNS packet => writeRTPFrame write w frameTypeAudioRTP originNS packet.bytes
  | probe p => writeProbe write w p
  | probeEcho p => writeProbeEcho write w p

def frame : Sent → Frame
  | video originNS packet =>
    ⟨frameTypeVideoRTP, some ⟨frameTypeVideoRTP, originNS, packet.bytes⟩, none⟩
  | audio originNS packet =>
    ⟨frameTypeAudioRTP, some ⟨frameTypeAudioRTP, originNS, packet.bytes⟩, none⟩
  | probe p => ⟨frameTypeProbe, none, some p⟩
  | probeEcho p => ⟨frameTypeProbeEcho, none, some p⟩

end Sent

section Writing
variable {σ : Type} (write : Writer σ) (w : σ)

def writeAll (sent : List Sent) : Except GoError σ := sent.foldlM (fun w f => f.write write w) w

def writeStream (h : Header) (sent : List Sent) : Except GoError σ := do
  let w ← writeHeader write w h
  let w ← writeAll write w sent
  writeCloseFrame write w

end Writing

section Bytes

def frameBytes (ft : FrameType) (framePrefix body : Bytes) : Bytes :=
  ft::(bigEndian 4 body.length++(framePrefix++body))

theorem writeFrame_buffer (w : Bytes) (ft : FrameType) (framePrefix body : Bytes) :
    writeFrame buffer w ft framePrefix body = .ok (w++frameBytes ft framePrefix body) := by
  by_cases hfront : framePrefix = [] <;> by_cases hbody : body = [] <;>
    simp [writeFrame, buffer, GoError.context, frameBytes, hfront, hbody, bind, Except.bind]

def originBytes (originNS : Int64) : Bytes := bigEndian 8 originNS.toUInt64.toNat

def Sent.type : Sent → FrameType
  | video _ _ => frameTypeVideoRTP
  | audio _ _ => frameTypeAudioRTP
  | probe _ => frameTypeProbe
  | probeEcho _ => frameTypeProbeEcho

def Sent.framePrefix : Sent → Bytes
  | video originNS _ | audio originNS _ => originBytes originNS
  | probe _ | probeEcho _ => []

def Sent.body : Sent → Bytes
  | video _ packet | audio _ packet => packet.bytes
  | probe p | probeEcho p => marshalProbeBody p

def Sent.encode (f : Sent) : Bytes := frameBytes f.type f.framePrefix f.body

theorem Sent.write_buffer (f : Sent) (w : Bytes) : f.write buffer w = .ok (w++f.encode) := by
  cases f with
  | video originNS packet | audio originNS packet =>
    rw [Sent.write, writeRTPFrame, if_neg (by decide), if_neg (Nat.not_lt.mpr packet.fits)]
    exact writeFrame_buffer w _ _ _
  | probe p | probeEcho p => exact writeFrame_buffer w _ _ _

theorem writeAll_buffer (sent : List Sent) (w : Bytes) :
    writeAll buffer w sent = .ok (w++sent.flatMap Sent.encode) := by
  induction sent generalizing w with
  | nil =>
    rw [List.flatMap_nil, List.append_nil]
    rfl
  | cons f sent ih =>
    rw [writeAll, List.foldlM_cons, f.write_buffer w]
    show writeAll buffer (w++f.encode) sent = _
    rw [ih, List.flatMap_cons, List.append_assoc]

theorem writeHeader_buffer (h : Header) (hfits : (headerJson h).print.length ≤ maxFrameBytes)
    (w : Bytes) :
    writeHeader buffer w h = .ok (w++frameBytes frameTypeHeader [] (headerJson h).print) := by
  rw [writeHeader, if_neg (Nat.not_lt.mpr hfits)]
  exact writeFrame_buffer w _ _ _

end Bytes

section Reading

theorem bodyLen_bound (n : ℕ) (hn : n ≤ maxFrameBytes) : ofBigEndian (bigEndian 4 n) = n := by
  rw [ofBigEndian_bigEndian]
  apply Nat.mod_eq_of_lt
  unfold maxFrameBytes at hn
  omega

theorem readFrame_header (ft : FrameType) (n : ℕ) (hn : n ≤ maxFrameBytes) (rest : Bytes) :
    readFrame (ft::(bigEndian 4 n++rest)) =
      (do
        let framePrefix ← readPrefix ft
        let body ← readBody n
        pure ⟨ft, framePrefix, body⟩ : Reader RawFrame) rest := by
  have hfull : readFull 5 (ft::(bigEndian 4 n++rest)) = (.ok (ft::bigEndian 4 n), rest) :=
    readFull_append 5 (ft::bigEndian 4 n) rest (by rw [List.length_cons, bigEndian_length])
  rw [readFrame, Reader.bind_ok _ _ _ _ _ hfull]
  show (if maxFrameBytes < ofBigEndian (bigEndian 4 n) then _ else (do
    let framePrefix ← readPrefix ft
    let body ← readBody (ofBigEndian (bigEndian 4 n))
    pure ⟨ft, framePrefix, body⟩) : Reader RawFrame) rest = _
  rw [bodyLen_bound n hn, if_neg (Nat.not_lt.mpr hn)]

theorem readBody_append (body rest : Bytes) : readBody body.length (body++rest) = (.ok body, rest) := by
  unfold readBody
  split
  · exact Reader.context_ok _ _ _ _ _ (readFull_append _ body rest rfl)
  · rename_i hempty
    obtain rfl : body = [] := List.length_eq_zero_iff.mp (by omega)
    rfl

theorem readFrame_append (ft : FrameType) (framePrefix body rest : Bytes)
    (hfront : readPrefix ft (framePrefix++(body++rest)) = (.ok framePrefix, body++rest))
    (hbody : body.length ≤ maxFrameBytes) :
    readFrame (frameBytes ft framePrefix body++rest) = (.ok ⟨ft, framePrefix, body⟩, rest) := by
  have hshape : frameBytes ft framePrefix body++rest =
      ft::(bigEndian 4 body.length++(framePrefix++(body++rest))) := by
    simp only [frameBytes, List.cons_append, List.append_assoc]
  rw [hshape, readFrame_header ft body.length hbody, Reader.bind_ok _ _ _ _ _ hfront,
    Reader.bind_ok _ _ _ _ _ (readBody_append body rest)]
  rfl

theorem Sent.readPrefix_append (f : Sent) (r : Bytes) :
    readPrefix f.type (f.framePrefix++r) = (.ok f.framePrefix, r) := by
  cases f with
  | video originNS packet | audio originNS packet =>
    exact Reader.context_ok _ _ _ _ _ (readFull_append 8 (originBytes originNS) r (bigEndian_length _ _))
  | probe p | probeEcho p => rfl

theorem marshalProbeBody_length (p : ProbeFrame) : (marshalProbeBody p).length = probeBodyBytes := by
  rw [marshalProbeBody, List.length_append, bigEndian_length, bigEndian_length]
  rfl

theorem Sent.body_length (f : Sent) : f.body.length ≤ maxFrameBytes := by
  cases f with
  | video originNS packet | audio originNS packet => exact packet.fits
  | probe p | probeEcho p =>
    rw [Sent.body, marshalProbeBody_length]
    decide

theorem parseProbeBody_marshal (p : ProbeFrame) : parseProbeBody (marshalProbeBody p) = .ok p := by
  have htake : (marshalProbeBody p).take 8 = bigEndian 8 p.probeID.toNat := by
    rw [marshalProbeBody, List.take_left' (bigEndian_length _ _)]
  have hdrop : (marshalProbeBody p).drop 8 = bigEndian 8 p.sendNS.toNat := by
    rw [marshalProbeBody, List.drop_left' (bigEndian_length _ _)]
  rw [parseProbeBody, if_neg (not_not.mpr (marshalProbeBody_length p)), htake, hdrop,
    ofBigEndian_uint64, ofBigEndian_uint64]

theorem Sent.interpret_raw (f : Sent) : interpret ⟨f.type, f.framePrefix, f.body⟩ = .ok f.frame := by
  cases f with
  | video originNS packet | audio originNS packet =>
    have horigin : (UInt64.ofNat (ofBigEndian (originBytes originNS))).toInt64 = originNS := by
      rw [originBytes, ofBigEndian_uint64]
      rfl
    have hlength : ¬(originBytes originNS).length ≠ 8 := not_not.mpr (bigEndian_length _ _)
    rw [interpret, if_pos (by simp [Sent.type]), Sent.framePrefix, if_neg hlength, horigin]
    rfl
  | probe p | probeEcho p =>
    rw [interpret, if_neg (by simp [Sent.type, frameTypeVideoRTP, frameTypeAudioRTP, frameTypeProbe,
      frameTypeProbeEcho]), if_pos (by simp [Sent.type]), Sent.body, parseProbeBody_marshal]
    rfl

theorem Sent.readAnyFrame_append (f : Sent) (rest : Bytes) :
    readAnyFrame (f.encode++rest) = (.ok f.frame, rest) := by
  have hraw := readFrame_append f.type f.framePrefix f.body rest (f.readPrefix_append _) f.body_length
  rw [readAnyFrame, Sent.encode, Reader.bind_ok _ _ _ _ _ hraw]
  simp only [f.interpret_raw]
  rfl

theorem readAnyFrame_close : readAnyFrame (frameBytes frameTypeClose [] []) = (.error eof, []) := by
  have hraw := readFrame_append frameTypeClose [] [] [] rfl (by decide)
  rw [List.append_nil] at hraw
  rw [readAnyFrame, Reader.bind_ok _ _ _ _ _ hraw]
  rfl

theorem readHeader_append (h : Header) (hh : h.TextValid)
    (hfits : (headerJson h).print.length ≤ maxFrameBytes) (rest : Bytes) :
    readHeader (frameBytes frameTypeHeader [] (headerJson h).print++rest) = (.ok h, rest) := by
  have hraw := readFrame_append frameTypeHeader [] (headerJson h).print rest rfl hfits
  rw [readHeader, Reader.bind_ok _ _ _ _ _ hraw, if_neg (not_not.mpr rfl)]
  simp only [unmarshal_headerJson h hh]
  rfl

end Reading

theorem writeStream_buffer (h : Header) (hfits : (headerJson h).print.length ≤ maxFrameBytes)
    (sent : List Sent) : writeStream buffer [] h sent =
      .ok (frameBytes frameTypeHeader [] (headerJson h).print++
        (sent.flatMap Sent.encode++frameBytes frameTypeClose [] [])) := by
  rw [writeStream, writeHeader_buffer h hfits]
  show (writeAll buffer _ sent >>= fun w => writeCloseFrame buffer w) = _
  rw [writeAll_buffer]
  show writeCloseFrame buffer _ = _
  rw [writeCloseFrame, writeFrame_buffer, List.nil_append, List.append_assoc]

/-- A stream is read back as its header and its frames in order, then the end,
with nothing left. -/
theorem stream_roundTrip (h : Header) (hh : h.TextValid)
    (hfits : (headerJson h).print.length ≤ maxFrameBytes) (sent : List Sent) :
    ∃ wire rest, writeStream buffer [] h sent = .ok wire ∧ readHeader wire = (.ok h, rest) ∧
      Drains readAnyFrame rest (sent.map Sent.frame) eof [] := by
  refine ⟨_, _, writeStream_buffer h hfits sent, readHeader_append h hh hfits _, ?_⟩
  have hframes := drains_append readAnyFrame Sent.encode Sent.frame sent
    (fun f _ rest => f.readAnyFrame_append rest) _ _ _ _ (Drains.stop readAnyFrame_close)
  rwa [List.append_nil] at hframes

section Sample
open Aevia.Utf8

def sampleHeader : Header := ⟨ascii "s_1", 1, ⟨ascii "video/H264", 90000, 0, ascii "a<b"⟩, .zero⟩

theorem sampleHeader_textValid : sampleHeader.TextValid where
  sessionID := valid_ascii _ (by decide +kernel)
  video := ⟨valid_ascii _ (by decide +kernel), valid_ascii _ (by decide +kernel)⟩
  audio := ⟨valid_ascii _ (by decide +kernel), valid_ascii _ (by decide +kernel)⟩

theorem sampleHeader_fits : (headerJson sampleHeader).print.length ≤ maxFrameBytes := by
  decide +kernel

def samplePacket : Packet := ⟨[0x80, 0x60], by decide⟩

def sampleSent : List Sent :=
  [.video (-1) samplePacket, .probe ⟨1, 2⟩, .audio 0 ⟨[], by decide⟩, .probeEcho ⟨1, 2⟩]

theorem sample_stream_roundTrip : ∃ wire rest,
    writeStream buffer [] sampleHeader sampleSent = .ok wire ∧
    readHeader wire = (.ok sampleHeader, rest) ∧
    Drains readAnyFrame rest (sampleSent.map Sent.frame) eof [] :=
  stream_roundTrip sampleHeader sampleHeader_textValid sampleHeader_fits sampleSent

end Sample

end Aevia.Mirror
