import Aevia.Provider.ContentRoutes
import Aevia.Provider.LiveFinality

/-!
# The live routes

The playlist of a live session, and the segments and parts that it names. The
playlist is put together from three reads of the sink, each under the sink's lock,
so the handler has three states of the session.
-/

set_option autoImplicit false

namespace Aevia.Whip
open Aevia.Bytes Aevia.Content Aevia.GoError Aevia.Manifests

inductive LiveURI where
  | segment (sessionID n : Bytes)
  | part (sessionID n p : Bytes)
  deriving DecidableEq

def LiveURI.path : LiveURI → Bytes
  | .segment sessionID n => ascii "/live/"++sessionID++ascii "/segment/"++n
  | .part sessionID n p => ascii "/live/"++sessionID++ascii "/segment/"++n++ascii "/part/"++p

structure PartTag where
  durationT : UInt32
  uri : LiveURI
  independent : Bool
  deriving DecidableEq

structure LivePlaylist where
  sessionID : Bytes
  segments : List LiveURI
  parts : List PartTag
  ended : Bool
  deriving DecidableEq

/-- `strconv.ParseUint` in base 10 for 32 bits, whose error is only tested for. -/
def parseUint32 (s : Bytes) : Option UInt32 :=
  if s = [] ∨ s.all isDigit = false then none
  else if ofDecimal s < 2^32 then some (UInt32.ofNat (ofDecimal s)) else none

def yesNo (b : Bool) : Bytes := if b then ascii "YES" else ascii "NO"

section Sink
variable (l : LiveSession)

namespace LiveSession

def partsOf (segIdx : UInt32) : List PartRecord := l.pipeline.sink.parts segIdx

def partBytes (segIdx partIdx : UInt32) : Except GoError Bytes :=
  let parts := l.pipeline.sink.parts segIdx
  match parts[partIdx.toNat]? with
  | none => .error (.errorf "livepin: part %d/%d out of range (have %d)"
      [.int segIdx.toNat, .int partIdx.toNat, .int parts.length])
  | some part => .ok part.bytes

end LiveSession

def segmentTag (sessionID : Bytes) (i : ℕ) : LiveURI := .segment sessionID (decimal i)

def partTag (sessionID : Bytes) (currentSegIdx : UInt32) (p : PartRecord) : PartTag where
  durationT := p.durationT
  uri := .part sessionID (decimal currentSegIdx.toNat) (decimal p.index.toNat)
  independent := p.independent

/-- The session at `Snapshot`, at `PartsOf` and at `Manifest`. -/
def livePlaylist (id : Bytes) (atSnapshot atParts atManifest : LiveSession) :
    Except GoError LivePlaylist := do
  let snap ← atSnapshot.snapshot
  let currentSegIdx := snap.segmentCount.toUInt64.toUInt32
  .ok {
    sessionID := id
    segments := (List.range snap.segmentCount.toInt.toNat).map (segmentTag id)
    parts := (atParts.partsOf currentSegIdx).map (partTag id currentSegIdx)
    ended := atManifest.finalized.isSome }

end Sink

section Text

/-- The lines of a playlist; `secs` writes a number of ticks as seconds with three decimals. -/
def LivePlaylist.lines (secs : UInt32 → Bytes) (p : LivePlaylist) : List Bytes :=
  [ascii "#EXTM3U", ascii "#EXT-X-VERSION:9",
    ascii "#EXT-X-TARGETDURATION:"++decimal targetSegmentDuration,
    ascii "#EXT-X-PART-INF:PART-TARGET="++decimal partTargetDuration++ascii ".0",
    ascii "#EXT-X-SERVER-CONTROL:PART-HOLD-BACK="++decimal (partTargetDuration*3)++ascii ".0",
    ascii "#EXT-X-MEDIA-SEQUENCE:0",
    ascii "#EXT-X-MAP:URI=\"/live/"++p.sessionID++ascii "/init.mp4\""]++
  p.segments.flatMap (fun uri =>
    [ascii "#EXTINF:"++decimal targetSegmentDuration++ascii ".000,", uri.path])++
  p.parts.map (fun tag =>
    ascii "#EXT-X-PART:DURATION="++secs tag.durationT++ascii ",URI=\""++tag.uri.path++
      ascii "\",INDEPENDENT="++yesNo tag.independent)++
  if p.ended then [ascii "#EXT-X-ENDLIST"] else []

def mediaReply (contentType cacheControl : String) (body : Bytes) : Reply := .ok [
  ("Content-Type", ascii contentType), ("Cache-Control", ascii cacheControl),
  ("Content-Length", decimal body.length)] body

def servePlaylist (secs : UInt32 → Bytes) (id : Bytes)
    (atSnapshot atParts atManifest : LiveSession) : Reply :=
  match livePlaylist id atSnapshot atParts atManifest with
  | .error e => .httpError (.wrap "live: snapshot: %w" [] e) statusInternalServerError
  | .ok p => mediaReply "application/vnd.apple.mpegurl" "no-cache"
      ((p.lines secs).flatMap (fun line => line++[10]))

end Text

section Media
variable (l : LiveSession)

def serveSegment (id nStr : Bytes) : Reply :=
  match parseUint32 nStr with
  | none => .httpError (.new "live: invalid segment index") statusBadRequest
  | some idx =>
    if id ≠ l.sessionID then .httpError (.new "live: unknown session") statusNotFound
    else match l.segmentBytes idx with
      | .error e => .httpError (.wrap "live: segment: %w" [] e) statusNotFound
      | .ok bytes => mediaReply "video/mp4" "public, max-age=86400, immutable" bytes

def servePart (id segStr partStr : Bytes) : Reply :=
  match parseUint32 segStr with
  | none => .httpError (.new "live: invalid segment index") statusBadRequest
  | some segIdx => match parseUint32 partStr with
    | none => .httpError (.new "live: invalid part index") statusBadRequest
    | some partIdx =>
      if id ≠ l.sessionID then .httpError (.new "live: unknown session") statusNotFound
      else match l.partBytes segIdx partIdx with
        | .error e => .httpError (.wrap "live: part: %w" [] e) statusNotFound
        | .ok bytes => mediaReply "video/mp4" "public, max-age=60" bytes

def serveLive : LiveURI → Reply
  | .segment id n => serveSegment l id n
  | .part id n p => servePart l id n p

theorem parseUint32_decimal (n : ℕ) :
    parseUint32 (decimal n) = if n < 2^32 then some (UInt32.ofNat n) else none := by
  have hdigits : (decimal n).all isDigit = true := List.all_eq_true.mpr (decimal_isDigit n)
  rw [parseUint32, if_neg, ofDecimal_decimal]
  rw [hdigits, not_or]
  exact ⟨decimal_ne_nil n,by decide⟩

theorem parseUint32_index (i : UInt32) : parseUint32 (decimal i.toNat) = some i := by
  rw [parseUint32_decimal, if_pos i.toNat_lt, UInt32.ofNat_toNat]

theorem served_iff (text contentType cacheControl : String) (read : Except GoError Bytes) :
    (match read with
      | .error e => Reply.httpError (.wrap text [] e) statusNotFound
      | .ok bytes => mediaReply contentType cacheControl bytes).status = statusOK ↔
        ∃ bytes, read = .ok bytes := by
  cases read with
  | error e =>
    refine iff_of_false (fun h => ?_) (fun h => nomatch h)
    exact absurd h (by decide : ¬ statusNotFound = statusOK)
  | ok bytes => exact iff_of_true rfl ⟨bytes,rfl⟩

/-- A segment is served up to the last index of 32 bits and of the session. -/
theorem serveSegment_ok (i : ℕ) (hlen : l.pipeline.sink.segments.length < 2^63) :
    (serveLive l (segmentTag l.sessionID i)).status = statusOK ↔
      i < 2^32 ∧ i < l.pipeline.sink.segments.length := by
  rw [segmentTag, serveLive, serveSegment, parseUint32_decimal]
  by_cases hi : i < 2^32
  · have hindex : (UInt32.ofNat i).toNat = i := UInt32.toNat_ofNat_of_lt' hi
    rw [if_pos hi]
    dsimp only
    rw [if_neg (not_not.mpr rfl), served_iff]
    simp only [segmentBytes_ok, exists_and_left, exists_eq', and_true, hindex]
    rw [Int64.lt_iff_toInt_lt, Int64.toInt_ofNat_of_lt (by omega), Int64.toInt_ofNat_of_lt hlen]
    omega
  · rw [if_neg hi]
    exact iff_of_false (fun h => absurd h (by decide : ¬ statusBadRequest = statusOK))
      (fun h => hi h.1)

theorem servePart_ok (segIdx partIdx : UInt32) :
    (serveLive l (.part l.sessionID (decimal segIdx.toNat) (decimal partIdx.toNat))).status =
      statusOK ↔ partIdx.toNat < (l.pipeline.sink.parts segIdx).length := by
  rw [serveLive, servePart, parseUint32_index, parseUint32_index]
  dsimp only
  rw [if_neg (not_not.mpr rfl), served_iff, LiveSession.partBytes]
  by_cases h : partIdx.toNat < (l.pipeline.sink.parts segIdx).length
  · rw [List.getElem?_eq_getElem h]
    exact iff_of_true ⟨_,rfl⟩ h
  · rw [List.getElem?_eq_none (not_lt.mp h)]
    exact iff_of_false (fun h => nomatch h) h

end Media

end Aevia.Whip
