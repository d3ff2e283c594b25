import Aevia.Foundation.ByteReader
import Aevia.Foundation.Fallible
import Aevia.Provider.MirrorHeader

/-!
# Frames of a mirror stream

Every frame is a type, the length of its body and the body; a frame of media
has eight bytes of origin time in between, which the length does not count. A
stream is a header, frames of media and probes, and a close frame.
-/

set_option autoImplicit false

namespace Aevia.Mirror
open Aevia.Bytes Aevia.ByteReader Aevia.StructCodec

/-- The byte a frame starts with; a peer may send any. -/
abbrev FrameType := UInt8

def frameTypeHeader : FrameType := 0x01
def frameTypeVideoRTP : FrameType := 0x02
def frameTypeAudioRTP : FrameType := 0x03
def frameTypeClose : FrameType := 0x04
def frameTypeProbe : FrameType := 0x05
def frameTypeProbeEcho : FrameType := 0x06

def probeBodyBytes : ℕ := 16

def maxFrameBytes : ℕ := 64*1024

structure RTPFrame where
  kind : FrameType
  originNS : Int64
  rtp : Bytes
  deriving DecidableEq

structure ProbeFrame where
  probeID : UInt64
  sendNS : UInt64
  deriving DecidableEq

structure Frame where
  type : FrameType
  rtp : Option RTPFrame
  probe : Option ProbeFrame
  deriving DecidableEq

section Writing
variable {σ : Type}

/-- `io.Writer`: what it is after a write, unless the write fails. -/
abbrev Writer (σ : Type) := σ → Bytes → Except GoError σ

def buffer : Writer Bytes := fun w b => .ok (w++b)

variable (write : Writer σ) (w : σ)

def writeFrame (ft : FrameType) (framePrefix body : Bytes) : Except GoError σ := do
  let w ← GoError.context "mirror: write frame header: %w" (write w (ft::bigEndian 4 body.length))
  let w ← if framePrefix = [] then .ok w
    else GoError.context "mirror: write frame prefix: %w" (write w framePrefix)
  if body = [] then .ok w
  else GoError.context "mirror: write frame body: %w" (write w body)

/-- Marshalling a header cannot fail. -/
def writeHeader (h : Header) : Except GoError σ :=
  let body := (headerJson h).print
  if maxFrameBytes < body.length then
    .error (.errorf "mirror: header body %d > MaxFrameBytes %d" [.int body.length, .int maxFrameBytes])
  else writeFrame write w frameTypeHeader [] body

def writeRTPFrame (kind : FrameType) (originNS : Int64) (rtp : Bytes) : Except GoError σ :=
  if kind ≠ frameTypeVideoRTP ∧ kind ≠ frameTypeAudioRTP then
    .error (.errorf "mirror: invalid RTP frame kind 0x%02x" [.int kind.toNat])
  else if maxFrameBytes < rtp.length then
    .error (.errorf "mirror: RTP body %d > MaxFrameBytes %d" [.int rtp.length, .int maxFrameBytes])
  else writeFrame write w kind (bigEndian 8 originNS.toUInt64.toNat) rtp

def writeCloseFrame : Except GoError σ := writeFrame write w frameTypeClose [] []

def marshalProbeBody (p : ProbeFrame) : Bytes :=
  bigEndian 8 p.probeID.toNat++bigEndian 8 p.sendNS.toNat

def writeProbe (p : ProbeFrame) : Except GoError σ :=
  writeFrame write w frameTypeProbe [] (marshalProbeBody p)

def writeProbeEcho (p : ProbeFrame) : Except GoError σ :=
  writeFrame write w frameTypeProbeEcho [] (marshalProbeBody p)

end Writing

section Reading

/-- What `readFrame` returns: no prefix and no body are empty ones. -/
structure RawFrame where
  ft : FrameType
  framePrefix : Bytes
  body : Bytes

def unknownFrameType (ft : FrameType) : GoError :=
  .errorf "mirror: unknown frame type 0x%02x" [.int ft.toNat]

def readPrefix (ft : FrameType) : Reader Bytes :=
  if ft = frameTypeVideoRTP ∨ ft = frameTypeAudioRTP then
    .context "mirror: read origin_ns: %w" (readFull 8)
  else if ft = frameTypeHeader ∨ ft = frameTypeClose ∨ ft = frameTypeProbe ∨ ft = frameTypeProbeEcho then
    pure []
  else .fail (unknownFrameType ft)

def readBody (bodyLen : ℕ) : Reader Bytes :=
  if 0 < bodyLen then .context "mirror: read body: %w" (readFull bodyLen) else pure []

def readFrame : Reader RawFrame := do
  let hdr ← readFull 5
  let ft := hdr.headD 0
  let bodyLen := ofBigEndian hdr.tail
  if maxFrameBytes < bodyLen then
    .fail (.errorf "mirror: frame body %d > MaxFrameBytes %d" [.int bodyLen, .int maxFrameBytes])
  else do
    let framePrefix ← readPrefix ft
    let body ← readBody bodyLen
    pure ⟨ft, framePrefix, body⟩

def readHeader : Reader Header := do
  let f ← readFrame
  if f.ft ≠ frameTypeHeader then
    .fail (.errorf "mirror: expected header frame, got 0x%02x" [.int f.ft.toNat])
  else match unmarshal headerFields .zero f.body with
    | .error e => .fail (.wrap "mirror: decode header: %w" [] e)
    | .ok h => pure h

def parseProbeBody (body : Bytes) : Except GoError ProbeFrame :=
  if body.length ≠ probeBodyBytes then
    .error (.errorf "mirror: probe body wants %d bytes, got %d" [.int probeBodyBytes, .int body.length])
  else .ok ⟨UInt64.ofNat (ofBigEndian (body.take 8)), UInt64.ofNat (ofBigEndian (body.drop 8))⟩

def interpret (f : RawFrame) : Except GoError Frame :=
  if f.ft = frameTypeVideoRTP ∨ f.ft = frameTypeAudioRTP then
    if f.framePrefix.length ≠ 8 then
      .error (.errorf "mirror: RTP frame missing 8-byte origin_ns prefix (got %d)"
        [.int f.framePrefix.length])
    else .ok ⟨f.ft, some ⟨f.ft, (UInt64.ofNat (ofBigEndian f.framePrefix)).toInt64, f.body⟩, none⟩
  else if f.ft = frameTypeProbe ∨ f.ft = frameTypeProbeEcho then
    (parseProbeBody f.body).map (fun p => ⟨f.ft, none, some p⟩)
  else if f.ft = frameTypeClose then .error eof
  else if f.ft = frameTypeHeader then .error (.new "mirror: unexpected repeated header frame")
  else .error (unknownFrameType f.ft)

def readAnyFrame : Reader Frame := do
  let f ← readFrame
  match interpret f with
  | .ok frame => pure frame
  | .error e => .fail e

end Reading

end Aevia.Mirror
