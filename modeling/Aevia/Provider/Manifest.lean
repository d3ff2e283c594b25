import Aevia.Foundation.BaseEncoding
import Aevia.Foundation.Fallible
import Aevia.Foundation.GoError
import Aevia.Foundation.HashTree
import Aevia.Foundation.Sha256

/-!
# Content manifests

The Merkle tree over segment digests, the CID that wraps its root, and the
manifest with its consistency check. A tree is built from a non-empty list of
digests only, so both facts are fields of it.
-/

set_option autoImplicit false

namespace Aevia.Manifests
open Aevia.Bytes Aevia.Sha256 Aevia.Fallible

def hashSize : ℕ := digestSize

def hashLeaf (payload : Bytes) : Bytes := sha256 payload

def nodeHash (left right : Bytes) : Bytes := sha256 (left++right)

structure Tree where
  leaves : List Bytes
  nonempty : leaves ≠ []
  sized : ∀ l ∈ leaves, l.length = hashSize

namespace Tree

def levels (t : Tree) : List (List Bytes) := HashTree.levels nodeHash t.leaves.length t.leaves

def depth (t : Tree) : ℕ := t.levels.length

def root (t : Tree) : Bytes := ((t.levels.getLast?.getD []).head?).getD []

def leafCount (t : Tree) : ℕ := t.leaves.length

theorem top (t : Tree) : HashTree.level nodeHash (t.depth-1) t.leaves = [t.root] := by
  have hlast := HashTree.levels_last nodeHash t.leaves.length t.leaves
  have htop := HashTree.levels_top nodeHash t.leaves.length t.leaves t.nonempty (by omega)
  obtain ⟨r, hr⟩ := List.length_eq_one_iff.mp htop
  rw [root, depth, levels, hlast, hr]
  rfl

theorem level_sized (d : ℕ) (xs : List Bytes) (h : ∀ l ∈ xs, l.length = hashSize) :
    ∀ l ∈ HashTree.level nodeHash d xs, l.length = hashSize := by
  induction d generalizing xs with
  | zero => exact h
  | succ d ih =>
    refine ih _ (fun l hl => ?_)
    obtain ⟨p, -, rfl⟩ := List.mem_map.mp hl
    exact sha256_length _

@[simp] theorem root_length (t : Tree) : t.root.length = hashSize := by
  have h := level_sized (t.depth-1) t.leaves t.sized t.root
  rw [t.top] at h
  exact h (by simp)

end Tree

def badLeaf (leaves : List Bytes) : Option ℕ := leaves.findIdx? (fun l => l.length != hashSize)

theorem badLeaf_none (leaves : List Bytes) (h : badLeaf leaves = none) :
    ∀ l ∈ leaves, l.length = hashSize := by
  simpa [badLeaf, List.findIdx?_eq_none_iff] using h

def newTree (leaves : List Bytes) : Except GoError Tree :=
  if hne : leaves = [] then .error (.new "manifest: merkle tree requires at least 1 leaf")
  else match hbad : badLeaf leaves with
    | some i => .error (.errorf "manifest: leaf %d has len %d, want %d"
        [.int i, .int (leaves.getD i []).length, .int hashSize])
    | none => .ok ⟨leaves, hne, badLeaf_none leaves hbad⟩

theorem newTree_ok (leaves : List Bytes) (t : Tree) :
    newTree leaves = .ok t ↔ t.leaves = leaves := by
  obtain ⟨ls, hne, hsized⟩ := t
  constructor
  · intro h
    unfold newTree at h
    split at h
    · cases h
    · split at h
      · cases h
      · cases h
        rfl
  · rintro rfl
    have hnone : badLeaf ls = none := by
      simpa [badLeaf, List.findIdx?_eq_none_iff] using hsized
    unfold newTree
    rw [dif_neg hne]
    split
    · rename_i heq
      rw [hnone] at heq
      cases heq
    · rfl

section Cid

def cidVersion1 : UInt8 := 0x01
def cidCodecRaw : UInt8 := 0x55
def mhSHA256 : UInt8 := 0x12
def mhSHA256Length : UInt8 := 0x20

def cidText (sha256Digest : Bytes) : Bytes :=
  98::BaseEncoding.encode BaseEncoding.base32Lower
    ([cidVersion1, cidCodecRaw, mhSHA256, mhSHA256Length]++sha256Digest)

def cidv1Raw (sha256Digest : Bytes) : Except GoError Bytes :=
  if sha256Digest.length ≠ hashSize then
    .error (.errorf "manifest: CIDv1Raw expects %d-byte digest, got %d"
      [.int hashSize, .int sha256Digest.length])
  else .ok (cidText sha256Digest)

theorem cidv1Raw_inj (a b cid : Bytes) (ha : cidv1Raw a = .ok cid) (hb : cidv1Raw b = .ok cid) :
    a = b := by
  simp only [cidv1Raw, guard_ok, Except.ok.injEq] at ha hb
  have hcid := ha.2.trans hb.2.symm
  have hbinary := BaseEncoding.encode_inj _ (by decide) (by decide) _ _ (List.cons.inj hcid).2
  exact List.append_cancel_left hbinary

@[simp] theorem cidv1Raw_root (t : Tree) : cidv1Raw t.root = .ok (cidText t.root) := by
  simp [cidv1Raw]

end Cid

def manifestVersion : Int64 := 1

structure Manifest where
  version : Int64
  cid : Bytes
  root : Bytes
  segmentCount : Int64
  segmentDuration : Int64
  /-- The nil slice is `none`. -/
  leaves : Option (List Bytes)
  deriving DecidableEq

/-- The leaves as a list; ranging over a nil slice is ranging over nothing. -/
def Manifest.leafList (m : Manifest) : List Bytes := m.leaves.getD []

/-- `hex.DecodeString`: the first bad character is reported before an odd length. -/
def hexDecodeString (s : Bytes) : Except GoError Bytes :=
  match hexDecode s with
  | some b => .ok b
  | none => match s.find? (fun c => (hexValue c).isNone) with
    | some c => .error (.errorf "encoding/hex: invalid byte: %#U" [.int c.toNat])
    | none => .error (.new "encoding/hex: odd length hex string")

theorem hexDecodeString_ok (s b : Bytes) : hexDecodeString s = .ok b ↔ hexDecode s = some b := by
  unfold hexDecodeString
  split
  · rename_i c hc
    simp [hc]
  · rename_i hnone
    split <;> simp [hnone]

/-- Hash the payloads, build the tree, wrap root and CID. A payload count fits
an int. -/
def buildFromPayloads (payloads : List Bytes) (segmentDuration : Int64) :
    Except GoError Manifest :=
  if payloads.length = 0 then .error (.new "manifest: need at least 1 segment")
  else if segmentDuration ≤ 0 then .error (.new "manifest: segmentDuration must be > 0")
  else do
    let leaves := payloads.map hashLeaf
    let tree ← newTree leaves
    let cid ← cidv1Raw tree.root
    .ok {
      version := manifestVersion
      cid := cid
      root := hexEncode tree.root
      segmentCount := Int64.ofNat payloads.length
      segmentDuration := segmentDuration
      leaves := some (leaves.map hexEncode) }

/-- The decoding loop of `Verify`; `i` is the index of the first leaf given. -/
def decodeLeaves : ℕ → List Bytes → Except GoError (List Bytes)
  | _, [] => .ok []
  | i, h::hs =>
    match hexDecodeString h with
    | .error e => .error (.wrap "manifest: leaf %d bad hex: %w" [.int i] e)
    | .ok b =>
      if b.length ≠ hashSize then
        .error (.errorf "manifest: leaf %d len %d, want %d"
          [.int i, .int b.length, .int hashSize])
      else (decodeLeaves (i+1) hs).map (fun bs => b::bs)

/-- Root and CID are recomputed from the leaves and compared with the stored ones. -/
def Manifest.verify (m : Manifest) : Except GoError Unit :=
  if m.version ≠ manifestVersion then
    .error (.errorf "manifest: unsupported version %d" [.int m.version.toInt])
  else if m.segmentCount.toInt ≠ m.leafList.length then
    .error (.errorf "manifest: segment_count %d != len(leaves) %d"
      [.int m.segmentCount.toInt, .int m.leafList.length])
  else if m.segmentDuration ≤ 0 then
    .error (.errorf "manifest: segment_duration must be > 0 (got %d)"
      [.int m.segmentDuration.toInt])
  else do
    let leaves ← decodeLeaves 0 m.leafList
    let tree ← newTree leaves
    match hexDecodeString m.root with
    | .error e => .error (.wrap "manifest: root bad hex: %w" [] e)
    | .ok rootBytes =>
      if tree.root ≠ rootBytes then
        .error (.new "manifest: recomputed merkle root does not match stored root")
      else do
        let cid ← cidv1Raw tree.root
        if cid ≠ m.cid then
          .error (.errorf "manifest: cid mismatch — stored %s, recomputed %s"
            [.text m.cid, .text cid])
        else .ok ()

def Manifest.leafAt (m : Manifest) (index : Int64) : Except GoError Bytes :=
  if index < 0 ∨ (m.leafList.length : ℤ) ≤ index.toInt then
    .error (.errorf "manifest: leaf index %d out of range [0,%d)"
      [.int index.toInt, .int m.leafList.length])
  else match hexDecodeString (m.leafList.getD index.toInt.toNat []) with
    | .error e => .error (.wrap "manifest: leaf %d bad hex: %w" [.int index.toInt] e)
    | .ok b =>
      if b.length ≠ hashSize then
        .error (.errorf "manifest: leaf %d len %d, want %d"
          [.int index.toInt, .int b.length, .int hashSize])
      else .ok b

theorem decodeLeaves_ok (i : ℕ) (hs bs : List Bytes) (h : decodeLeaves i hs = .ok bs) :
    hs.map hexDecode = bs.map some ∧ ∀ b ∈ bs, b.length = hashSize := by
  induction hs generalizing i bs with
  | nil =>
    cases h
    simp
  | cons x hs ih =>
    unfold decodeLeaves at h
    split at h
    · cases h
    · rename_i b hb
      simp only [guard_ok, map_ok] at h
      obtain ⟨hlen, bs, hbs, rfl⟩ := h
      obtain ⟨hmap, hsized⟩ := ih _ _ hbs
      rw [hexDecodeString_ok] at hb
      refine ⟨by simp [hb, hmap], ?_⟩
      intro c hc
      rcases List.mem_cons.mp hc with rfl | hc
      · exact not_not.mp hlen
      · exact hsized c hc

theorem decodeLeaves_hexEncode (i : ℕ) (bs : List Bytes) (h : ∀ b ∈ bs, b.length = hashSize) :
    decodeLeaves i (bs.map hexEncode) = .ok bs := by
  induction bs generalizing i with
  | nil => rfl
  | cons b bs ih =>
    have hb : hexDecodeString (hexEncode b) = .ok b :=
      (hexDecodeString_ok _ _).mpr (hexDecode_hexEncode b)
    rw [List.map_cons, decodeLeaves, hb]
    simp [h b (by simp), ih _ (fun c hc => h c (by simp [hc])), Except.map]

/-- What a manifest that passes is: the CID is that of the root of a tree over
the decoded leaves. -/
theorem verify_ok (m : Manifest) : m.verify = .ok () ↔
    m.version = manifestVersion ∧ m.segmentCount.toInt = m.leafList.length ∧
    0 < m.segmentDuration ∧
    ∃ tree : Tree, decodeLeaves 0 m.leafList = .ok tree.leaves ∧
      hexDecode m.root = some tree.root ∧ cidv1Raw tree.root = .ok m.cid := by
  unfold Manifest.verify
  simp only [guard_ok, bind_ok, not_not, Int64.not_le]
  constructor
  · rintro ⟨hversion, hcount, hduration, leaves, hleaves, tree, htree, h⟩
    obtain rfl := (newTree_ok _ _).mp htree
    split at h
    · cases h
    · rename_i rootBytes hroot
      simp only [guard_ok, bind_ok, not_not, and_true] at h
      obtain ⟨rfl, cid, hcid, rfl⟩ := h
      exact ⟨hversion,hcount,hduration,tree,hleaves,(hexDecodeString_ok _ _).mp hroot,hcid⟩
  · rintro ⟨hversion, hcount, hduration, tree, hleaves, hroot, hcid⟩
    refine ⟨hversion,hcount,hduration,_,hleaves,tree,(newTree_ok _ _).mpr rfl,?_⟩
    rw [(hexDecodeString_ok _ _).mpr hroot]
    simp [hcid]

def Manifest.decodedTree (m : Manifest) : Except GoError Tree := do
  let leaves ← decodeLeaves 0 m.leafList
  newTree leaves

def manifestOf (t : Tree) (segmentDuration : Int64) : Manifest where
  version := manifestVersion
  cid := cidText t.root
  root := hexEncode t.root
  segmentCount := Int64.ofNat t.leafCount
  segmentDuration := segmentDuration
  leaves := some (t.leaves.map hexEncode)

theorem buildFromPayloads_ok (payloads : List Bytes) (d : Int64) (m : Manifest) :
    buildFromPayloads payloads d = .ok m ↔
      0 < d ∧ ∃ t : Tree, t.leaves = payloads.map hashLeaf ∧ m = manifestOf t d := by
  simp only [buildFromPayloads, guard_ok, bind_ok, Except.ok.injEq, newTree_ok, Int64.not_le]
  constructor
  · rintro ⟨-, hd, t, ht, cid, hcid, rfl⟩
    rw [cidv1Raw_root, Except.ok.injEq] at hcid
    refine ⟨hd,t,ht,?_⟩
    simp [manifestOf, ← hcid, ht, Tree.leafCount]
  · rintro ⟨hd, t, ht, rfl⟩
    have hne : payloads.length ≠ 0 := by
      intro h
      exact t.nonempty (by rw [ht, List.length_eq_zero_iff.mp h]; rfl)
    exact ⟨hne,hd,t,ht,_,cidv1Raw_root t,by simp [manifestOf, ht, Tree.leafCount]⟩

theorem manifestOf_decodedTree (t : Tree) (d : Int64) : (manifestOf t d).decodedTree = .ok t := by
  simp [Manifest.decodedTree, Manifest.leafList, manifestOf, newTree_ok,
    decodeLeaves_hexEncode 0 t.leaves t.sized]

/-- Counts fit an int as long as there are fewer than `2^63` leaves. -/
theorem manifestOf_verify (t : Tree) (d : Int64) (hd : 0 < d) (hcount : t.leafCount < 2^63) :
    (manifestOf t d).verify = .ok () := by
  refine (verify_ok _).mpr ⟨rfl, ?_, hd, t, decodeLeaves_hexEncode 0 t.leaves t.sized,
    hexDecode_hexEncode _, cidv1Raw_root t⟩
  simp only [manifestOf, Manifest.leafList, Option.getD_some, List.length_map]
  rw [Int64.toInt_ofNat_of_lt hcount]
  rfl

end Aevia.Manifests
