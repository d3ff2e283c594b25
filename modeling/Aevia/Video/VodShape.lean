import Aevia.Foundation.JsJson
import Aevia.Provider.VodManifest

/-!
# The document in the viewer

The viewer takes a parsed document as a manifest when its fields are there, the root is
written in 64 lower-case digits and the list of CIDs is as long as it says. What a
provider makes of a finalised session is such a document.
-/

set_option autoImplicit false

namespace Aevia.Mesh
open Aevia.Bytes Aevia.Manifests Aevia.PinStore Aevia.Run Aevia.Storage Aevia.StructCodec Aevia.Whip

def requiredFields : List Bytes := [
  ascii "version", ascii "session_id", ascii "cid", ascii "merkle_root", ascii "segment_count",
  ascii "segment_duration_secs", ascii "segment_cids", ascii "started_at_iso",
  ascii "ended_at_iso"]

/-- `/^[0-9a-f]{64}$/`. -/
def isRootHex (text : Bytes) : Bool :=
  text.length == 64 && text.all (fun c => isDigit c || (97 ≤ c && c ≤ 102))

def isRoot : Option Json → Bool
  | some (.str text) => isRootHex text
  | _ => false

/-- An error is its message. An array is an object without the fields. -/
def assertVODManifestShape (v : Json) : Except Bytes Json :=
  let check (m : List (Bytes × Json)) : Except Bytes Json :=
    match requiredFields.find? (fun k => (Json.member m k).isNone) with
    | some k => .error (ascii "VOD manifest: missing field "++k)
    | none =>
      if isRoot (Json.member m (ascii "merkle_root")) = false then
        .error (ascii "VOD manifest: merkle_root must be 32-byte hex")
      else match Json.member m (ascii "segment_cids") with
      | some (.arr cids) =>
        if (Json.member m (ascii "segment_count")).any (Json.isLength cids.length) = false then
          .error (ascii "VOD manifest: segment_cids length != segment_count")
        else .ok v
      | _ => .error (ascii "VOD manifest: segment_cids must be an array")
  match v with
  | .obj m => check m
  | .arr _ => check []
  | _ => .error (ascii "VOD manifest: not an object")

/-- What the viewer makes of a served document: it takes it as it is parsed, and it is
parsed unless the list is longer than arrays are. -/
structure Accepts (body : Bytes) (segments : ℕ) : Prop where
  unchanged : ∀ parsed, Json.jsParse body = some parsed →
    assertVODManifestShape parsed = .ok parsed
  parsed : segments < 2^32 → ∃ parsed, Json.jsParse body = some parsed

section Shape
variable (sessionID : Bytes) (t : Tree) (d : Int64) (startedAt endedAt : UtcTime)

theorem hexEncode_rootHex (bs : Bytes) (h : bs.length = hashSize) :
    isRootHex (hexEncode bs) = true := by
  have hdigit : ∀ d < 16, (isDigit (hexDigit d) || (97 ≤ hexDigit d && hexDigit d ≤ 102)) = true := by
    decide
  have hall : ∀ bs : Bytes, (hexEncode bs).length = 2*bs.length ∧
      (hexEncode bs).all (fun c => isDigit c || (97 ≤ c && c ≤ 102)) = true := by
    intro bs
    induction bs with
    | nil => exact ⟨rfl, rfl⟩
    | cons b bs ih =>
      have hb := b.toNat_lt
      rw [hexEncode, List.length_cons, List.length_cons, ih.1, List.all_cons, List.all_cons, ih.2,
        hdigit _ (by omega), hdigit _ (by omega)]
      exact ⟨by rw [List.length_cons]; omega, rfl⟩
  obtain ⟨hlength, hdigits⟩ := hall bs
  rw [isRootHex, hlength, h, hdigits]
  rfl

/-- The fields as they are parsed: only what the session id and the times are written
with can change. -/
def parsedFields : List (Bytes × Json) := [
  (ascii "version", int64Json manifestVersion),
  (ascii "session_id", .str (Json.sanitize sessionID)),
  (ascii "cid", .str (cidText t.root)),
  (ascii "merkle_root", .str (hexEncode t.root)),
  (ascii "segment_count", int64Json (Int64.ofNat t.leafCount)),
  (ascii "segment_duration_secs", int64Json d),
  (ascii "segment_cids", .arr ((t.leaves.map cidText).map Json.str)),
  (ascii "started_at_iso", .str (Json.sanitize startedAt.rfc3339Nano)),
  (ascii "ended_at_iso", .str (Json.sanitize endedAt.rfc3339Nano))]

theorem vodManifestJson_sanitized :
    (vodManifestJson (vodOf sessionID t d startedAt endedAt)).sanitized =
      .obj (parsedFields sessionID t d startedAt endedAt) := by
  have hnumber : ∀ n : Int64, (int64Json n).sanitized = int64Json n := by
    intro n
    rw [int64Json, Json.sanitized]
  have hcid : ∀ digest, Json.sanitize (cidText digest) = cidText digest :=
    fun digest => Json.sanitize_valid _ (Utf8.valid_ascii _ (cidText_ascii digest))
  have hcids : (t.leaves.map cidText).map Json.sanitize = t.leaves.map cidText := by
    rw [List.map_map]
    exact List.map_congr_left (fun digest _ => hcid digest)
  simp only [vodManifestJson, vodOf, Json.sanitized, Json.sanitizedFields, hnumber,
    stringsJson_sanitized, Option.map_some, hcids, hcid,
    Json.sanitize_valid _ (Utf8.valid_ascii _ (hexEncode_ascii _))]
  rfl

theorem vodManifestJson_width :
    (vodManifestJson (vodOf sessionID t d startedAt endedAt)).sanitized.width = t.leafCount := by
  have hitems := Json.widthItems_strings (t.leaves.map cidText)
  rw [vodManifestJson_sanitized, parsedFields]
  simp only [Json.width, Json.widthFields, int64Json, hitems, List.length_map]
  simp [Tree.leafCount]

theorem vodManifestJson_printable :
    (vodManifestJson (vodOf sessionID t d startedAt endedAt)).Printable := by
  simp only [vodManifestJson, Json.Printable, Json.PrintableFields, int64Json_printable,
    stringsJson_printable, and_true]

theorem int64Json_count (n : ℕ) (hn : n < 2^32) :
    int64Json (Int64.ofNat n) = .num (decimal n) := by
  rw [int64Json, Int64.toInt_ofNat_of_lt (by omega)]
  rfl

theorem assertVODManifestShape_built (ht : t.leafCount < 2^32) :
    assertVODManifestShape (.obj (parsedFields sessionID t d startedAt endedAt)) =
      .ok (.obj (parsedFields sessionID t d startedAt endedAt)) := by
  let fields := parsedFields sessionID t d startedAt endedAt
  let cids := (t.leaves.map cidText).map Json.str
  have hall : requiredFields.find? (fun k => (Json.member fields k).isNone) = none := rfl
  have hroot : isRoot (Json.member fields (ascii "merkle_root")) = true :=
    hexEncode_rootHex t.root t.root_length
  have hcids : Json.member fields (ascii "segment_cids") = some (.arr cids) := rfl
  have hcount : (Json.member fields (ascii "segment_count")).any (Json.isLength cids.length) =
      true := by
    have hlength : cids.length = t.leafCount := by rw [List.length_map, List.length_map]; rfl
    have hmember : Json.member fields (ascii "segment_count") =
        some (int64Json (Int64.ofNat t.leafCount)) := rfl
    rw [hlength, hmember, int64Json_count _ ht]
    exact Json.isLength_decimal t.leafCount (by omega)
  simp only [assertVODManifestShape, fields, hall, hroot, hcids, hcount]
  rfl

theorem canonicalJSON_accepted :
    Accepts (vodManifestJson (vodOf sessionID t d startedAt endedAt)).print t.leafCount := by
  have hparse := Json.jsParse_print _ (vodManifestJson_printable sessionID t d startedAt endedAt)
  rw [vodManifestJson_width] at hparse
  constructor
  · intro parsed h
    rw [hparse] at h
    split_ifs at h with ht
    cases h
    rw [vodManifestJson_sanitized]
    exact assertVODManifestShape_built sessionID t d startedAt endedAt ht
  · intro ht
    rw [if_pos ht] at hparse
    exact ⟨_, hparse⟩

end Shape

section Session
variable (q : Quota)

/-- The call that finalised a session, and the manifest it returned. -/
structure FinalisedBy (sessionID : Bytes) (store : Database) (events before : List SinkEvent)
    (segmentDurationSecs : Int64) (fault : Option GoError) (m : Manifest) : Prop where
  called : before++[.finalize segmentDurationSecs fault] <+: events
  unfinished : (run (sinkNext q) (newLiveSession sessionID store) before).finalized = none
  returned : ((run (sinkNext q) (newLiveSession sessionID store) before).finalize q
    segmentDurationSecs fault).2 = .ok m

/-- The document of a finalised session says of itself what was pinned, the pinned
segments are in the store behind the call, and the viewer accepts it. -/
theorem vodManifest_selfContained (sessionID : Bytes) (hid : sessionID ≠ []) (store : Database)
    (events : List SinkEvent) (m : Manifest) (startedAt endedAt : UtcTime)
    (hfinal : (run (sinkNext q) (newLiveSession sessionID store) events).finalized = some m) :
    ∃ before d fault v, FinalisedBy q sessionID store events before d fault m ∧
      buildVODManifest sessionID (some m) startedAt endedAt = .ok v ∧
      let atCall := run (sinkNext q) (newLiveSession sessionID store) before
      let pinned := atCall.pipeline.sink.segments
      SelfContained pinned v ∧
      (∀ (i : ℕ) seg, pinned[i]? = some seg →
        (getSegment v.cid i).read (atCall.finalize q d fault).1.store = .ok seg) ∧
      ∃ body, v.canonicalJSON = .ok body ∧ Accepts body pinned.length := by
  obtain hstart | ⟨before, d, fault, hcalled, hopen, hreturned⟩ :=
    finalized_from q (newLiveSession sessionID store) events m hfinal
  · cases hstart
  · have hpin := finalize_pins q _ d fault m hopen hreturned
    have hpinned : ((pinPayloads q (run (sinkNext q) (newLiveSession sessionID store)
        before).pipeline.sink.segments d).runAlone fault
        (run (sinkNext q) (newLiveSession sessionID store) before).store).1 = .ok m := by
      rw [hpin]
    have hbuilt := pinPayloads_built q _ d fault _ m hpinned
    obtain ⟨-, t, ht, rfl⟩ := (buildFromPayloads_ok _ d m).mp hbuilt
    have hcount : t.leafCount = (run (sinkNext q) (newLiveSession sessionID store)
        before).pipeline.sink.segments.length := by
      rw [Tree.leafCount, ht, List.length_map]
    refine ⟨before, d, fault, vodOf sessionID t d startedAt endedAt, ⟨hcalled, hopen, hreturned⟩,
      buildVODManifest_built sessionID hid t d startedAt endedAt,
      vodOf_selfContained sessionID t d startedAt endedAt _ ht, fun i seg hi => ?_, _, rfl, ?_⟩
    · have hstored := pinPayloads_stored q _ d fault _ _ hpinned i seg hi
      rw [hpin] at hstored
      exact hstored
    · rw [← hcount]
      exact canonicalJSON_accepted sessionID t d startedAt endedAt

def endedStream : List SinkEvent :=
  [.onInitSegment [1], .onMediaSegment 0 [2], .onMediaSegment 1 [3], .finalize 6 none]

theorem vodManifest_selfContained_ended :
    let ended := run (sinkNext ⟨0, 0⟩) (newLiveSession (ascii "s1") KeyValue.Map.empty) endedStream
    ∃ v pinned body, buildVODManifest (ascii "s1") ended.finalized ⟨2026, 4, 17, 9, 0, 0, 0⟩
        ⟨2026, 4, 17, 9, 0, 12, 0⟩ = .ok v ∧
      SelfContained pinned v ∧ v.canonicalJSON = .ok body ∧ Accepts body pinned.length := by
  intro ended
  have hended : ended.finalized.isSome = true := by decide +kernel
  obtain ⟨m, hm⟩ := Option.isSome_iff_exists.mp hended
  obtain ⟨before, d, fault, v, -, hbuilt, hself, -, body, hbody, haccepts⟩ :=
    vodManifest_selfContained ⟨0, 0⟩ (ascii "s1") (by decide) KeyValue.Map.empty endedStream m
      ⟨2026, 4, 17, 9, 0, 0, 0⟩ ⟨2026, 4, 17, 9, 0, 12, 0⟩ hm
  rw [hm]
  exact ⟨v, _, body, hbuilt, hself, hbody, haccepts⟩

end Session

end Aevia.Mesh
