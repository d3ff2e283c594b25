import Aevia.Provider.ManifestCodec
import Aevia.Provider.Storage

/-!
# The pin store

The content a provider node serves: one manifest and its segments per CID, and
two counters for the quota. Every call reads what it needs and then commits one
batch; the reads stand outside the batch's transaction.
-/

set_option autoImplicit false

namespace Aevia.PinStore
open Aevia.Bytes Aevia.KeyValue Aevia.Manifests Aevia.Storage Aevia.StoreProgram

def prefixManifest : Bytes := ascii "manifest:"
def prefixSegment : Bytes := ascii "segment:"
def keyQuotaCount : Bytes := ascii "_quota:count"
def keyQuotaBytes : Bytes := ascii "_quota:bytes"

def manifestKey (cid : Bytes) : Bytes := prefixManifest++cid

def segmentKey (cid : Bytes) (index : ℕ) : Bytes := prefixSegment++cid++58::decimal index

/-- Zero means unlimited. -/
structure Quota where
  maxBytes : UInt64
  maxPins : Int64
  deriving DecidableEq

def errQuotaExceeded (resource : String) (limit current adding : UInt64) : GoError :=
  .errorf "pinning: quota exceeded on %s — limit=%d current=%d adding=%d"
    [.text (ascii resource), .int limit.toNat, .int current.toNat, .int adding.toNat]

def readUint64 (key : Bytes) : Call UInt64 := do
  match ← (get key).attempt with
  | .ok raw =>
    if raw.length ≠ 8 then
      .fail (.errorf "pinning: counter %s has unexpected len %d" [.text key, .int raw.length])
    else pure (UInt64.ofNat (ofBigEndian raw))
  | .error e => if e.is errNotFound then pure 0 else .fail e

def putUint64 (key : Bytes) (v : UInt64) : Write Bytes Bytes := .put key (bigEndian 8 v.toNat)

def usage : Call (Int64 × UInt64) := do
  let count ← readUint64 keyQuotaCount
  let bytesUsed ← readUint64 keyQuotaBytes
  pure (count.toInt64, bytesUsed)

def getManifest (cid : Bytes) : Call Manifest := do
  let raw ← get (manifestKey cid)
  match parseManifest raw with
  | .ok m => pure m
  | .error e => .fail (.wrap "pinning: parse manifest: %w" [] e)

def getSegment (cid : Bytes) (index : ℤ) : Call Bytes :=
  if index < 0 then
    .fail (.errorf "pinning: segment index must be >= 0 (got %d)" [.int index])
  else get (segmentKey cid index.toNat)

def segmentIndices (m : Manifest) : List ℕ := List.range m.segmentCount.toInt.toNat

def addSegmentSizes (cid : Bytes) : List ℕ → UInt64 → Call UInt64
  | [], size => pure size
  | i::is, size => do
    match ← (getSegment cid i).attempt with
    | .ok seg => addSegmentSizes cid is (size+UInt64.ofNat seg.length)
    | .error _ => addSegmentSizes cid is size

def storedSize (cid : Bytes) (m : Manifest) : Call UInt64 :=
  addSegmentSizes cid (segmentIndices m) (UInt64.ofNat (manifestJson m).print.length)

def pinSize (m : Manifest) (segments : List Bytes) : UInt64 :=
  segments.foldl (fun n seg => n+UInt64.ofNat seg.length)
    (UInt64.ofNat (manifestJson m).print.length)

/-- The quota check of `Pin` on the counters it has read. -/
def quotaError (q : Quota) (currentCount : Int64) (currentBytes adding : UInt64) :
    Option GoError :=
  if 0 < q.maxPins ∧ q.maxPins < currentCount+1 then
    some (errQuotaExceeded "pins" q.maxPins.toUInt64 currentCount.toUInt64 1)
  else if 0 < q.maxBytes ∧ q.maxBytes < currentBytes+adding then
    some (errQuotaExceeded "bytes" q.maxBytes currentBytes adding)
  else none

def segmentWrites (cid : Bytes) (segments : List Bytes) : List (Write Bytes Bytes) :=
  segments.zipIdx.map (fun p => .put (segmentKey cid p.2) p.1)

def counterWrites (count : Int64) (bytesUsed : UInt64) : List (Write Bytes Bytes) :=
  [putUint64 keyQuotaCount count.toUInt64, putUint64 keyQuotaBytes bytesUsed]

def pinWrites (cid : Bytes) (m : Manifest) (segments : List Bytes) (count : Int64)
    (bytesUsed : UInt64) : List (Write Bytes Bytes) :=
  .put (manifestKey cid) (manifestJson m).print::
    (segmentWrites cid segments++counterWrites count bytesUsed)

def unpinWrites (cid : Bytes) (m : Manifest) (count : Int64) (bytesUsed : UInt64) :
    List (Write Bytes Bytes) :=
  .delete (manifestKey cid)::
    ((segmentIndices m).map (fun i => .delete (segmentKey cid i))++counterWrites count bytesUsed)

/-- `Pin`. Marshalling the manifest cannot fail. -/
def pin (q : Quota) (cid : Bytes) (m : Option Manifest) (segments : List Bytes) : Call Unit :=
  if cid = [] then .fail (.new "pinning: cid is required")
  else match m with
  | none => .fail (.new "pinning: manifest is required")
  | some m =>
    if m.cid ≠ cid then
      .fail (.errorf "pinning: manifest.CID=%q does not match cid=%q" [.text m.cid, .text cid])
    else if m.segmentCount.toInt ≠ segments.length then
      .fail (.errorf "pinning: manifest.SegmentCount=%d != len(segments)=%d"
        [.int m.segmentCount.toInt, .int segments.length])
    else do
      let (currentCount, currentBytes) ← usage
      match quotaError q currentCount currentBytes (pinSize m segments) with
      | some e => .fail e
      | none =>
        match ← (getManifest cid).attempt with
        | .error e =>
          if e.is errNotFound then
            writeBatch (pinWrites cid m segments (currentCount+1)
              (currentBytes+pinSize m segments))
          else .fail e
        | .ok existing => do
          let existingSize ← storedSize cid existing
          writeBatch (pinWrites cid m segments currentCount
            (currentBytes-existingSize+pinSize m segments))

def pinPayloads (q : Quota) (payloads : List Bytes) (segmentDuration : Int64) : Call Manifest :=
  if payloads.length = 0 then .fail (.new "pinning: cannot pin empty payload set")
  else match buildFromPayloads payloads segmentDuration with
  | .error e => .fail e
  | .ok m => do
    pin q m.cid (some m) payloads
    pure m

/-- `Unpin`. The subtractions saturate. -/
def unpin (cid : Bytes) : Call Unit := do
  match ← (getManifest cid).attempt with
  | .error e => if e.is errNotFound then pure () else .fail e
  | .ok m => do
    let released ← storedSize cid m
    let (currentCount, currentBytes) ← usage
    let newCount := if currentCount-1 < 0 then 0 else currentCount-1
    let newBytes := if released < currentBytes then currentBytes-released else 0
    writeBatch (unpinWrites cid m newCount newBytes)

inductive Operation where
  | pin (cid : Bytes) (m : Option Manifest) (segments : List Bytes)
  | pinPayloads (payloads : List Bytes) (segmentDuration : Int64)
  | unpin (cid : Bytes)

/-- The call an operation makes; what it returns besides an error is dropped. -/
def code (q : Quota) : Operation → Call Unit
  | .pin cid m segments => pin q cid m segments
  | .pinPayloads payloads segmentDuration => do
    let _ ← pinPayloads q payloads segmentDuration
    pure ()
  | .unpin cid => unpin cid

/-- One call after the other; `fault` is what the database answers to the batch. -/
def perform (q : Quota) (db : Database) (e : Operation × Option GoError) : Database :=
  ((code q e.1).runAlone e.2 db).2

section Keys

theorem takeWhile_decimal (index : ℕ) (rest : Bytes) :
    ((decimal index).reverse++58::rest).takeWhile isDigit = (decimal index).reverse := by
  have hall : ∀ c ∈ (decimal index).reverse, isDigit c = true :=
    fun c hc => decimal_isDigit index c (List.mem_reverse.mp hc)
  rw [List.takeWhile_append_of_pos hall, List.takeWhile_cons_of_neg (by decide), List.append_nil]

theorem segmentKey_inj (cid cid' : Bytes) (i j : ℕ) (h : segmentKey cid i = segmentKey cid' j) :
    cid = cid' ∧ i = j := by
  simp only [segmentKey, List.append_assoc] at h
  have htail := List.append_cancel_left h
  have hrev := congrArg List.reverse htail
  simp only [List.reverse_append, List.reverse_cons, List.append_assoc, List.singleton_append]
    at hrev
  have hdigits := congrArg (List.takeWhile isDigit) hrev
  rw [takeWhile_decimal, takeWhile_decimal] at hdigits
  have hij := decimal_inj _ _ (List.reverse_injective hdigits)
  subst hij
  exact ⟨List.append_cancel_right htail,rfl⟩

theorem manifestKey_inj (cid cid' : Bytes) (h : manifestKey cid = manifestKey cid') :
    cid = cid' :=
  List.append_cancel_left h

def isManifestKey (key : Bytes) : Bool := prefixManifest.isPrefixOf key
def isSegmentKey (key : Bytes) : Bool := prefixSegment.isPrefixOf key

@[simp] theorem isManifestKey_manifestKey (cid : Bytes) : isManifestKey (manifestKey cid) = true := by
  simp [isManifestKey, manifestKey]

@[simp] theorem isSegmentKey_segmentKey (cid : Bytes) (i : ℕ) :
    isSegmentKey (segmentKey cid i) = true := by
  simp [isSegmentKey, segmentKey, List.append_assoc]

@[simp] theorem isSegmentKey_manifestKey (cid : Bytes) : isSegmentKey (manifestKey cid) = false := rfl

@[simp] theorem isManifestKey_segmentKey (cid : Bytes) (i : ℕ) :
    isManifestKey (segmentKey cid i) = false := rfl

theorem manifestKey_ne_segmentKey (cid cid' : Bytes) (i : ℕ) :
    manifestKey cid ≠ segmentKey cid' i := by
  intro h
  have hk := isSegmentKey_manifestKey cid
  rw [h, isSegmentKey_segmentKey] at hk
  cases hk

end Keys

end Aevia.PinStore
