import Aevia.Provider.PinStore

/-!
# The content routes

Segments, playlists and manifests by CID. Each route asks the source first; a CID
or a segment the source does not have is answered with fixture content as long as
the fallback is on, which is the default.
-/

set_option autoImplicit false

namespace Aevia.Content
open Aevia.Bytes Aevia.Manifests Aevia.PinStore Aevia.Sha256 Aevia.Storage

def fixtureSegmentSize : Int64 := 4096

/-- A round of the loop adds one digest, and the last round reaches the size. -/
def fixtureBytes (cid : Bytes) (segmentIndex size : Int64) : Bytes :=
  if size ≤ 0 then []
  else
    let seg := bigEndian 8 segmentIndex.toUInt64.toNat
    let rounds := (size.toInt.toNat+digestSize-1)/digestSize
    ((List.range rounds).flatMap (fun counter => sha256 (cid++seg++bigEndian 8 counter))).take
      size.toInt.toNat

structure Source where
  getManifest : Bytes → Except GoError Manifest
  getSegment : Bytes → Int64 → Except GoError Bytes

def errNotPinned : GoError := .new "content: cid not in local pin set"

structure Handlers where
  source : Option Source
  fixtureFallback : Bool

def newHandlers : Handlers := ⟨none, true⟩

def Handlers.withSource (h : Handlers) (s : Option Source) : Handlers := { h with source := s }

/-- `errors.Is` for either sentinel. -/
def isNotFound (err : GoError) : Bool := err.is errNotPinned || err.is errNotFound

def statusOK : ℕ := 200
def statusBadRequest : ℕ := 400
def statusNotFound : ℕ := 404
def statusInternalServerError : ℕ := 500

/-- Status 200 is what a handler that writes a body answers with. -/
inductive Reply where
  | httpError (text : GoError) (status : ℕ)
  | ok (header : List (String × Bytes)) (body : Bytes)
  deriving DecidableEq

def Reply.status : Reply → ℕ
  | .httpError _ status => status
  | .ok _ _ => statusOK

def atoiDigits (negative : Bool) (digits : Bytes) : Option Int64 :=
  let n := ofDecimal digits
  if digits = [] ∨ digits.all isDigit = false then none
  else if negative then if n ≤ 2^63 then some (Int64.ofInt (-n)) else none
  else if n < 2^63 then some (Int64.ofNat n) else none

/-- `strconv.Atoi`, whose error is only tested for. -/
def atoi : Bytes → Option Int64
  | 43::digits => atoiDigits false digits
  | 45::digits => atoiDigits true digits
  | digits => atoiDigits false digits

def Handlers.resolve {α : Type} (h : Handlers) (lookup : Source → Except GoError α)
    (fixture : Except GoError α) : Except GoError α :=
  let fallback := if h.fixtureFallback then fixture else .error errNotPinned
  match h.source with
  | none => fallback
  | some source => match lookup source with
    | .ok a => .ok a
    | .error err => if isNotFound err then fallback else .error err

section Segments

def Handlers.resolveSegment (h : Handlers) (cid : Bytes) (idx : Int64) : Except GoError Bytes :=
  h.resolve (fun source => source.getSegment cid idx) (.ok (fixtureBytes cid idx fixtureSegmentSize))

def segmentReply (payload : Bytes) : Reply := .ok [
  ("Content-Type", ascii "video/mp2t"),
  ("Content-Length", decimal payload.length),
  ("X-Aevia-Segment-Sha256", hexEncode (sha256 payload))] payload

def Handlers.serveSegment (h : Handlers) (cid n : Bytes) : Reply :=
  if cid = [] then .httpError (.new "missing cid") statusBadRequest
  else match atoi n with
    | none => .httpError (.new "invalid segment index") statusBadRequest
    | some idx =>
      if idx < 0 then .httpError (.new "invalid segment index") statusBadRequest
      else match h.resolveSegment cid idx with
        | .error err => .httpError err statusNotFound
        | .ok payload => segmentReply payload

end Segments

section Playlists

def defaultSegmentCount : Int64 := 10
def defaultSegmentDuration : Int64 := 6

structure PlaylistSpec where
  cid : Bytes
  segmentCount : Int64
  segmentDuration : Int64

def segmentURI (i : ℕ) : Bytes := ascii "segment/"++decimal i

def playlistLines (segmentCount segmentDuration : ℕ) : List Bytes :=
  [ascii "#EXTM3U", ascii "#EXT-X-VERSION:6",
    ascii "#EXT-X-TARGETDURATION:"++decimal segmentDuration,
    ascii "#EXT-X-MEDIA-SEQUENCE:0", ascii "#EXT-X-PLAYLIST-TYPE:VOD"]++
  (List.range segmentCount).flatMap (fun i =>
    [ascii "#EXTINF:"++decimal segmentDuration++ascii ".000,", segmentURI i])++
  [ascii "#EXT-X-ENDLIST"]

def PlaylistSpec.render (p : PlaylistSpec) : Bytes :=
  let segmentCount := if p.segmentCount ≤ 0 then defaultSegmentCount else p.segmentCount
  let segmentDuration := if p.segmentDuration ≤ 0 then defaultSegmentDuration else p.segmentDuration
  (playlistLines segmentCount.toInt.toNat segmentDuration.toInt.toNat).flatMap (fun line => line++[10])

def playlistReply (body : Bytes) : Reply := .ok [
  ("Content-Type", ascii "application/vnd.apple.mpegurl"),
  ("Content-Length", decimal body.length)] body

def Handlers.servePlaylist (h : Handlers) (cid : Bytes) : Reply :=
  if cid = [] then .httpError (.new "missing cid") statusBadRequest
  else
    let fixture := playlistReply (PlaylistSpec.render ⟨cid, 0, 0⟩)
    match h.source with
    | none => fixture
    | some source => match source.getManifest cid with
      | .ok m => playlistReply (PlaylistSpec.render ⟨cid, m.segmentCount, m.segmentDuration⟩)
      | .error err =>
        if isNotFound err = false then .httpError err statusInternalServerError
        else if h.fixtureFallback = false then .httpError (.new "cid not pinned") statusNotFound
        else fixture

end Playlists

section ManifestDocuments

def buildFixtureManifest (cid : Bytes) : Except GoError Manifest :=
  buildFromPayloads ((List.range defaultSegmentCount.toInt.toNat).map
    (fun i => fixtureBytes cid (Int64.ofNat i) fixtureSegmentSize)) defaultSegmentDuration

def Handlers.resolveManifest (h : Handlers) (cid : Bytes) : Except GoError Manifest :=
  h.resolve (fun source => source.getManifest cid) (buildFixtureManifest cid)

def manifestReply (m : Manifest) (body : Bytes) : Reply := .ok [
  ("Content-Type", ascii "application/json"),
  ("Content-Length", decimal body.length),
  ("ETag", [34]++m.cid++[34]),
  ("X-Aevia-Manifest-CID", m.cid)] body

def Handlers.serveManifest (h : Handlers) (cid : Bytes) : Reply :=
  if cid = [] then .httpError (.new "missing cid") statusBadRequest
  else match h.resolveManifest cid with
    | .error err => .httpError err statusNotFound
    | .ok m => match m.canonicalJSON with
      | .error err => .httpError (.wrap "canonical json: %w" [] err) statusInternalServerError
      | .ok body => manifestReply m body

end ManifestDocuments

inductive Request where
  | segment (cid n : Bytes)
  | playlist (cid : Bytes)
  | manifest (cid : Bytes)

def Handlers.serve (h : Handlers) : Request → Reply
  | .segment cid n => h.serveSegment cid n
  | .playlist cid => h.servePlaylist cid
  | .manifest cid => h.serveManifest cid

def contentStore (db : Database) : Source where
  getManifest := fun cid => (getManifest cid).read db
  getSegment := fun cid index => (getSegment cid index.toInt).read db

/-- The routes as the provider registers them. -/
def providerHandlers (db : Database) : Handlers := newHandlers.withSource (some (contentStore db))

section Reading

def uris (playlist : Bytes) : List Bytes :=
  (playlist.splitOn 10).filter (fun line => line ≠ [] ∧ line.head? ≠ some 35)

theorem splitOn_lines (lines : List Bytes) (h : ∀ line ∈ lines, (10 : UInt8) ∉ line) :
    (lines.flatMap (fun line => line++[10])).splitOn 10 = lines++[[]] := by
  induction lines with
  | nil => rfl
  | cons line lines ih =>
    have hrest := ih (fun l hl => h l (List.mem_cons_of_mem _ hl))
    rw [List.flatMap_cons, List.append_assoc, List.singleton_append,
      List.splitOn_append_cons_self_of_not_mem (h line List.mem_cons_self), hrest, List.cons_append]

theorem decimal_no_newline (n : ℕ) : (10 : UInt8) ∉ decimal n := by
  intro h
  have hdigit := decimal_isDigit n 10 h
  exact absurd hdigit (by decide)

theorem playlistLines_no_newline (count duration : ℕ) :
    ∀ line ∈ playlistLines count duration, (10 : UInt8) ∉ line := by
  have hdecimal := decimal_no_newline
  intro line hline
  simp only [playlistLines, List.mem_append, List.mem_cons, List.not_mem_nil, or_false,
    List.mem_flatMap, List.mem_range] at hline
  rcases hline with ((rfl | rfl | rfl | rfl | rfl) | ⟨i, -, rfl | rfl⟩) | rfl
  · decide
  · decide
  · exact List.not_mem_append (by decide) (hdecimal duration)
  · decide
  · decide
  · exact List.not_mem_append (List.not_mem_append (by decide) (hdecimal duration)) (by decide)
  · exact List.not_mem_append (by decide) (hdecimal i)
  · decide

theorem uris_playlist (count duration : ℕ) :
    uris ((playlistLines count duration).flatMap (fun line => line++[10])) =
      (List.range count).map segmentURI := by
  have hpairs : ∀ is : List ℕ, (is.flatMap (fun i =>
      [ascii "#EXTINF:"++decimal duration++ascii ".000,", segmentURI i])).filter
        (fun line => line ≠ [] ∧ line.head? ≠ some 35) = is.map segmentURI := by
    intro is
    induction is with
    | nil => rfl
    | cons i is ih =>
      rw [List.flatMap_cons, List.filter_append, ih, List.map_cons]
      rfl
  rw [uris, splitOn_lines _ (playlistLines_no_newline count duration), playlistLines,
    List.filter_append, List.filter_append, List.filter_append, hpairs]
  have htags : [ascii "#EXTM3U", ascii "#EXT-X-VERSION:6",
      ascii "#EXT-X-TARGETDURATION:"++decimal duration, ascii "#EXT-X-MEDIA-SEQUENCE:0",
      ascii "#EXT-X-PLAYLIST-TYPE:VOD"].filter (fun line => line ≠ [] ∧ line.head? ≠ some 35) = [] := rfl
  have hend : [ascii "#EXT-X-ENDLIST"].filter (fun line => line ≠ [] ∧ line.head? ≠ some 35) = [] := rfl
  rw [htags, hend, List.nil_append, List.append_nil]
  simp

end Reading

end Aevia.Content
