import Aevia.Foundation.StructCodec

/-!
# The header of a mirror stream

What a session is called, when it started and which codecs it has, as the JSON
document a mirror stream starts with. A track that a session does not have is
an empty codec, which is written all the same.
-/

set_option autoImplicit false

namespace Aevia.Mirror
open Aevia.Bytes Aevia.StructCodec Aevia.Utf8

structure CodecInfo where
  mimeType : Bytes
  clockRate : UInt32
  channels : UInt16
  sdpFmtpLine : Bytes
  deriving DecidableEq

structure Header where
  sessionID : Bytes
  startedAtNS : Int64
  video : CodecInfo
  audio : CodecInfo
  deriving DecidableEq

def CodecInfo.zero : CodecInfo := ⟨[], 0, 0, []⟩

def Header.zero : Header := ⟨[], 0, .zero, .zero⟩

/-- The members after the first two are left out if they are zero. -/
def codecInfoJson (c : CodecInfo) : Json := .obj ([
  (ascii "mime", .str c.mimeType),
  (ascii "clock_rate", uint32Json c.clockRate)]++
  (if c.channels = 0 then [] else [(ascii "channels", uint16Json c.channels)])++
  (if c.sdpFmtpLine = [] then [] else [(ascii "sdp_fmtp_line", .str c.sdpFmtpLine)]))

def headerJson (h : Header) : Json := .obj [
  (ascii "session_id", .str h.sessionID),
  (ascii "started_at_ns", int64Json h.startedAtNS),
  (ascii "video", codecInfoJson h.video),
  (ascii "audio", codecInfoJson h.audio)]

def mimeField : RecordField CodecInfo :=
  ⟨ascii "mime", fun j c => (setString j c.mimeType).map (fun s => { c with mimeType := s })⟩

def clockRateField : RecordField CodecInfo :=
  ⟨ascii "clock_rate", fun j c => (setUint32 j c.clockRate).map (fun n => { c with clockRate := n })⟩

def channelsField : RecordField CodecInfo :=
  ⟨ascii "channels", fun j c => (setUint16 j c.channels).map (fun n => { c with channels := n })⟩

def sdpFmtpLineField : RecordField CodecInfo :=
  ⟨ascii "sdp_fmtp_line",
    fun j c => (setString j c.sdpFmtpLine).map (fun s => { c with sdpFmtpLine := s })⟩

def codecInfoFields : List (RecordField CodecInfo) :=
  [mimeField, clockRateField, channelsField, sdpFmtpLineField]

def headerFields : List (RecordField Header) := [
  ⟨ascii "session_id", fun j h => (setString j h.sessionID).map (fun s => { h with sessionID := s })⟩,
  ⟨ascii "started_at_ns",
    fun j h => (setInt64 j h.startedAtNS).map (fun n => { h with startedAtNS := n })⟩,
  ⟨ascii "video",
    fun j h => (decodeRecord codecInfoFields h.video j).map (fun c => { h with video := c })⟩,
  ⟨ascii "audio",
    fun j h => (decodeRecord codecInfoFields h.audio j).map (fun c => { h with audio := c })⟩]

structure CodecInfo.TextValid (c : CodecInfo) : Prop where
  mimeType : Valid c.mimeType
  sdpFmtpLine : Valid c.sdpFmtpLine

structure Header.TextValid (h : Header) : Prop where
  sessionID : Valid h.sessionID
  video : h.video.TextValid
  audio : h.audio.TextValid

section RoundTrip

theorem codecInfoJson_printable (c : CodecInfo) : (codecInfoJson c).Printable := by
  rw [codecInfoJson, Json.Printable, Json.printableFields_append, Json.printableFields_append]
  split_ifs <;> simp [Json.PrintableFields, Json.Printable, uint32Json_printable, uint16Json_printable]

theorem codecInfoJson_height (c : CodecInfo) : (codecInfoJson c).height = 1 := by
  rw [codecInfoJson, Json.height, Json.heightFields_append, Json.heightFields_append]
  split_ifs <;> simp [Json.heightFields, Json.height, uint32Json, uint16Json]

theorem codecInfoJson_sanitized (c : CodecInfo) (hc : c.TextValid) :
    (codecInfoJson c).sanitized = codecInfoJson c := by
  have hmime := Json.sanitize_valid c.mimeType hc.mimeType
  have hfmtp := Json.sanitize_valid c.sdpFmtpLine hc.sdpFmtpLine
  rw [codecInfoJson, Json.sanitized, Json.sanitizedFields_append, Json.sanitizedFields_append]
  congr 1
  split_ifs <;>
    simp only [Json.sanitizedFields, Json.sanitized, uint32Json, uint16Json, hmime, hfmtp] <;> rfl

/-- A codec is read over an empty one, so what is left out is zero. -/
theorem codecInfoJson_decode (c : CodecInfo) :
    decodeRecord codecInfoFields .zero (codecInfoJson c) = some c := by
  have hnames : (codecInfoFields.map (·.name)).Nodup := by decide
  obtain ⟨mime, rate, channels, fmtp⟩ := c
  have hrequired := setFields_each codecInfoFields hnames
    [(mimeField, .str mime), (clockRateField, uint32Json rate)] (by simp [codecInfoFields]) .zero
  have hchannels := setFields_optional codecInfoFields hnames channelsField (by simp [codecInfoFields])
    (channels = 0) (uint16Json channels) ⟨mime, rate, 0, []⟩ ⟨mime, rate, channels, []⟩
    (by rintro rfl; rfl) (by simp [channelsField])
  have hfmtp := setFields_optional codecInfoFields hnames sdpFmtpLineField (by simp [codecInfoFields])
    (fmtp = []) (.str fmtp) ⟨mime, rate, channels, []⟩ ⟨mime, rate, channels, fmtp⟩
    (by rintro rfl; rfl) (by simp [sdpFmtpLineField])
  have heach : setEach [(mimeField, .str mime), (clockRateField, uint32Json rate)] CodecInfo.zero =
      some ⟨mime, rate, 0, []⟩ := by
    simp [setEach, mimeField, clockRateField, CodecInfo.zero]
  show setFields codecInfoFields _ _ = _
  rw [setFields_append, setFields_append]
  exact Option.bind_eq_some_iff.mpr
    ⟨_,Option.bind_eq_some_iff.mpr ⟨_,hrequired.trans heach,hchannels⟩,hfmtp⟩

theorem headerJson_printable (h : Header) : (headerJson h).Printable := by
  simp [headerJson, Json.Printable, Json.PrintableFields, int64Json_printable, codecInfoJson_printable]

theorem headerJson_height (h : Header) : (headerJson h).height ≤ Json.maxNestingDepth := by
  simp [headerJson, Json.height, Json.heightFields, int64Json, codecInfoJson_height,
    Json.maxNestingDepth]

theorem headerJson_sanitized (h : Header) (hh : h.TextValid) : (headerJson h).sanitized = headerJson h := by
  have hid := Json.sanitize_valid h.sessionID hh.sessionID
  have hvideo := codecInfoJson_sanitized h.video hh.video
  have haudio := codecInfoJson_sanitized h.audio hh.audio
  have hnumber : (int64Json h.startedAtNS).sanitized = int64Json h.startedAtNS := by
    rw [int64Json, Json.sanitized]
  simp only [headerJson, Json.sanitized, Json.sanitizedFields, hid, hvideo, haudio, hnumber]
  rfl

theorem headerJson_decode (h : Header) : decodeRecord headerFields .zero (headerJson h) = some h := by
  have heach := setFields_each headerFields (by decide) (headerFields.zip
    [.str h.sessionID, int64Json h.startedAtNS, codecInfoJson h.video, codecInfoJson h.audio])
    (fun v hv => (List.of_mem_zip hv).1) Header.zero
  refine heach.trans ?_
  simp [headerFields, setEach, Header.zero, codecInfoJson_decode]

theorem unmarshal_headerJson (h : Header) (hh : h.TextValid) :
    unmarshal headerFields .zero (headerJson h).print = .ok h := by
  apply unmarshal_print headerFields .zero h _ (headerJson_printable h) (headerJson_height h)
  rw [headerJson_sanitized h hh, headerJson_decode]

end RoundTrip

end Aevia.Mirror
