import Aevia.Provider.CidText
import Aevia.Provider.PinInvariant
import Aevia.Provider.PlaylistReads

/-!
# The manifest of an ended session

`BuildVODManifest` puts the manifest of a finalised session into a document of its own,
with the CID of every leaf and the times of the session. Its CIDs are read back as the
digests of the segments that were pinned, and these are in the store.
-/

set_option autoImplicit false

namespace Aevia.Whip
open Aevia.Bytes Aevia.Fallible Aevia.KeyValue Aevia.Manifests Aevia.PinStore Aevia.Run Aevia.Storage
open Aevia.StructCodec

structure UtcTime where
  year : ℕ
  month : ℕ
  day : ℕ
  hour : ℕ
  minute : ℕ
  second : ℕ
  nanosecond : ℕ

def zeroPadded (width n : ℕ) : Bytes := List.replicate (width-(decimal n).length) 48++decimal n

/-- `Format(time.RFC3339Nano)`: the fraction without its closing zeros. -/
def UtcTime.rfc3339Nano (t : UtcTime) : Bytes :=
  zeroPadded 4 t.year++ascii "-"++zeroPadded 2 t.month++ascii "-"++zeroPadded 2 t.day++ascii "T"++
    zeroPadded 2 t.hour++ascii ":"++zeroPadded 2 t.minute++ascii ":"++zeroPadded 2 t.second++
    (if t.nanosecond = 0 then []
      else 46::((zeroPadded 9 t.nanosecond).reverse.dropWhile (· == 48)).reverse)++ascii "Z"

example : UtcTime.rfc3339Nano ⟨2026, 4, 17, 9, 5, 0, 120000000⟩ =
    ascii "2026-04-17T09:05:00.12Z" := by decide

structure VODManifest where
  version : Int64
  sessionID : Bytes
  cid : Bytes
  merkleRoot : Bytes
  segmentCount : Int64
  segmentDuration : Int64
  segmentCIDs : List Bytes
  startedAt : Bytes
  endedAt : Bytes

def leafHexToCID (leafHex : Bytes) : Except GoError Bytes := do
  let b ← hexDecodeString leafHex
  cidv1Raw b

def buildVODManifest (sessionID : Bytes) (m : Option Manifest) (startedAt endedAt : UtcTime) :
    Except GoError VODManifest :=
  if sessionID = [] then .error (.new "vod-manifest: empty sessionID")
  else match m with
  | none => .error (.new "vod-manifest: nil manifest")
  | some m => do
    let segCids ← m.leafList.mapM leafHexToCID
    .ok {
      version := m.version
      sessionID := sessionID
      cid := m.cid
      merkleRoot := m.root
      segmentCount := m.segmentCount
      segmentDuration := m.segmentDuration
      segmentCIDs := segCids
      startedAt := startedAt.rfc3339Nano
      endedAt := endedAt.rfc3339Nano }

def vodManifestJson (v : VODManifest) : Json := .obj [
  (ascii "version", int64Json v.version),
  (ascii "session_id", .str v.sessionID),
  (ascii "cid", .str v.cid),
  (ascii "merkle_root", .str v.merkleRoot),
  (ascii "segment_count", int64Json v.segmentCount),
  (ascii "segment_duration_secs", int64Json v.segmentDuration),
  (ascii "segment_cids", stringsJson (some v.segmentCIDs)),
  (ascii "started_at_iso", .str v.startedAt),
  (ascii "ended_at_iso", .str v.endedAt)]

def VODManifest.canonicalJSON (v : VODManifest) : Except GoError Bytes :=
  .ok (vodManifestJson v).print

/-- The document says of itself what the segments are: their digests are read back from
the list, and root, CID and count are those of the list. -/
structure SelfContained (pinned : List Bytes) (v : VODManifest) : Prop where
  digests : v.segmentCIDs.map decodeCIDv1Raw = pinned.map (fun seg => .ok (Sha256.sha256 seg))
  tree : ∃ t : Tree, t.leaves = pinned.map Sha256.sha256 ∧ v.merkleRoot = hexEncode t.root ∧
    cidv1Raw t.root = .ok v.cid
  count : v.segmentCount = Int64.ofNat v.segmentCIDs.length

section Built

theorem leafHexToCID_hexEncode (digest : Bytes) (h : digest.length = hashSize) :
    leafHexToCID (hexEncode digest) = .ok (cidText digest) := by
  have hdecode := (hexDecodeString_ok _ _).mpr (hexDecode_hexEncode digest)
  rw [leafHexToCID, hdecode]
  exact if_neg (not_not.mpr h)

theorem leaves_mapM (leaves : List Bytes) (h : ∀ leaf ∈ leaves, leaf.length = hashSize) :
    (leaves.map hexEncode).mapM leafHexToCID = .ok (leaves.map cidText) := by
  induction leaves with
  | nil => rfl
  | cons leaf leaves ih =>
    obtain ⟨hleaf, hleaves⟩ := List.forall_mem_cons.mp h
    rw [List.map_cons, List.mapM_cons, leafHexToCID_hexEncode leaf hleaf, ih hleaves]
    rfl

theorem decodeCIDv1Raw_text (digest : Bytes) (h : digest.length = hashSize) :
    decodeCIDv1Raw (cidText digest) = .ok digest :=
  decodeCIDv1Raw_cid digest _ (by rw [cidv1Raw, if_neg (not_not.mpr h)])

def vodOf (sessionID : Bytes) (t : Tree) (d : Int64) (startedAt endedAt : UtcTime) :
    VODManifest where
  version := manifestVersion
  sessionID := sessionID
  cid := cidText t.root
  merkleRoot := hexEncode t.root
  segmentCount := Int64.ofNat t.leafCount
  segmentDuration := d
  segmentCIDs := t.leaves.map cidText
  startedAt := startedAt.rfc3339Nano
  endedAt := endedAt.rfc3339Nano

theorem buildVODManifest_built (sessionID : Bytes) (hid : sessionID ≠ []) (t : Tree) (d : Int64)
    (startedAt endedAt : UtcTime) :
    buildVODManifest sessionID (some (manifestOf t d)) startedAt endedAt =
      .ok (vodOf sessionID t d startedAt endedAt) := by
  have hleaves : (manifestOf t d).leafList.mapM leafHexToCID = .ok (t.leaves.map cidText) :=
    leaves_mapM t.leaves t.sized
  rw [buildVODManifest, if_neg hid]
  simp only [hleaves]
  rfl

theorem vodOf_selfContained (sessionID : Bytes) (t : Tree) (d : Int64)
    (startedAt endedAt : UtcTime) (pinned : List Bytes) (ht : t.leaves = pinned.map hashLeaf) :
    SelfContained pinned (vodOf sessionID t d startedAt endedAt) where
  digests := by
    rw [vodOf, List.map_map, ht, List.map_map]
    exact List.map_congr_left (fun seg _ => decodeCIDv1Raw_text _ (Sha256.sha256_length seg))
  tree := ⟨t, ht, rfl, cidv1Raw_root t⟩
  count := by
    rw [vodOf, List.length_map]
    rfl

end Built

section Pinned
variable (q : Quota)

theorem writeBatch_ok (fault : Option GoError) (db : Database) (writes : List (KeyValue.Write Bytes Bytes))
    (h : ((writeBatch writes).runAlone fault db).1 = .ok ()) :
    ((writeBatch writes).runAlone fault db).2 = applyBatch db writes := by
  rw [runAlone_writeBatch] at h ⊢
  cases fault with
  | some e => cases h
  | none => rfl

theorem pin_ok_shaped (fault : Option GoError) (db : Database) (cid : Bytes) (m : Manifest)
    (segments : List Bytes)
    (h : ((pin q cid (some m) segments).runAlone fault db).1 = .ok ()) :
    Shaped cid m segments := by
  unfold pin at h
  split_ifs at h with hcid
  · cases h
  · dsimp only at h
    split_ifs at h with hmcid hcount
    · cases h
    · cases h
    · exact ⟨hcid, not_not.mp hmcid, not_not.mp hcount⟩

theorem pin_ok (fault : Option GoError) (db : Database) (cid : Bytes) (m : Manifest)
    (segments : List Bytes)
    (h : ((pin q cid (some m) segments).runAlone fault db).1 = .ok ()) :
    ∃ count bytesUsed, ((pin q cid (some m) segments).runAlone fault db).2 =
      applyBatch db (pinWrites cid m segments count bytesUsed) := by
  have hshape := pin_ok_shaped q fault db cid m segments h
  rw [runAlone_pin q fault db cid m segments hshape] at h ⊢
  cases husage : usage.read db with
  | error e =>
    rw [husage] at h
    cases h
  | ok used =>
    simp only [husage] at h ⊢
    cases hquota : quotaError q used.1 used.2 (pinSize m segments) with
    | some e =>
      simp only [hquota] at h
      cases h
    | none =>
      simp only [hquota] at h ⊢
      cases hread : (getManifest cid).read db with
      | error e =>
        simp only [hread] at h ⊢
        split_ifs at h ⊢
        have hput := writeBatch_ok fault db _ h
        exact ⟨_,_,hput⟩
      | ok existing =>
        simp only [hread, read_storedSize] at h ⊢
        have hput := writeBatch_ok fault db _ h
        exact ⟨_,_,hput⟩

theorem pinWrites_segment (db : Database) (cid : Bytes) (m : Manifest) (segments : List Bytes)
    (count : Int64) (bytesUsed : UInt64) (i : ℕ) (seg : Bytes) (h : segments[i]? = some seg) :
    (applyBatch db (pinWrites cid m segments count bytesUsed)).get (segmentKey cid i) =
      some seg := by
  have hmem : Write.put (segmentKey cid i) seg ∈ pinWrites cid m segments count bytesUsed := by
    refine List.mem_cons_of_mem _ (List.mem_append_left _ (List.mem_map.mpr ⟨(seg, i), ?_, rfl⟩))
    exact List.mk_mem_zipIdx_iff_getElem?.mpr h
  exact get_applyBatch db _ (pinWrites_nodup cid m segments count bytesUsed) _ hmem

/-- The segments a call of `PinPayloads` was given can be read back behind it. -/
theorem pinPayloads_stored (payloads : List Bytes) (d : Int64) (fault : Option GoError)
    (db : Database) (m : Manifest) (h : ((pinPayloads q payloads d).runAlone fault db).1 = .ok m)
    (i : ℕ) (seg : Bytes) (hi : payloads[i]? = some seg) :
    (getSegment m.cid i).read ((pinPayloads q payloads d).runAlone fault db).2 = .ok seg := by
  have hbuilt := pinPayloads_built q payloads d fault db m h
  have hne : payloads.length ≠ 0 := by
    obtain ⟨hlt, -⟩ := List.getElem?_eq_some_iff.mp hi
    omega
  unfold pinPayloads at h ⊢
  rw [if_neg hne, hbuilt] at h ⊢
  dsimp only at h ⊢
  have hthen := runAlone_bind_store fault (pin q m.cid (some m) payloads) (fun _ => pure m)
    (fun _ => ⟨_, rfl⟩) db
  rw [hthen]
  rw [StoreProgram.Program.runAlone_bind] at h
  have hpin : ((pin q m.cid (some m) payloads).runAlone fault db).1 = .ok () := by
    split at h
    · rename_i hrun
      rw [hrun]
    · cases h
  obtain ⟨count, bytesUsed, hstore⟩ := pin_ok q fault db m.cid m payloads hpin
  rw [hstore, read_getSegment, read_get, pinWrites_segment db m.cid m payloads count bytesUsed i seg hi]

end Pinned

end Aevia.Whip
