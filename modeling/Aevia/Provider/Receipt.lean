import Aevia.Foundation.Fallible
import Aevia.Foundation.Sha256
import Aevia.Foundation.StructCodec

/-!
# Receipts

The accounting unit of proof of relay: one segment served by a provider to a
viewer, signed by both over one canonical serialization. Keys and signatures
are those of libp2p and enter as an argument.
-/

set_option autoImplicit false

namespace Aevia.Por
open Aevia.Bytes Aevia.Fallible Aevia.Sha256 Aevia.StructCodec Aevia.Utf8

/-- Only the length of a signature tells that it is missing. -/
structure Receipt where
  providerPeerID : Bytes
  viewerPeerID : Bytes
  cid : Bytes
  segmentIndex : Int64
  segmentSize : Int64
  timestampUnix : Int64
  nonce : UInt64
  viewerSig : Bytes
  providerSig : Bytes
  deriving DecidableEq

/-- The key operations; `sign` may draw on random bytes. -/
structure Libp2p (PublicKey PrivateKey : Type) where
  decodePeerID : Bytes → Except GoError Bytes
  extractPublicKey : Bytes → Except GoError PublicKey
  verify : PublicKey → Bytes → Bytes → Except GoError Bool
  sign : PrivateKey → Bytes → Bytes → Except GoError Bytes
  peerIDOf : PrivateKey → Except GoError Bytes

def appendLV (dst payload : Bytes) : Bytes := dst++bigEndian 4 payload.length++payload

namespace Receipt

def canonicalBytes (r : Receipt) : Bytes :=
  appendLV (appendLV (appendLV [] r.providerPeerID) r.viewerPeerID) r.cid++
    bigEndian 8 r.segmentIndex.toUInt64.toNat++bigEndian 8 r.segmentSize.toUInt64.toNat++
    bigEndian 8 r.timestampUnix.toUInt64.toNat++bigEndian 8 r.nonce.toNat

def hash (r : Receipt) : Bytes := sha256 r.canonicalBytes

section Signatures
variable {PublicKey PrivateKey : Type} (lib : Libp2p PublicKey PrivateKey)

def signAsViewer (priv : PrivateKey) (random : Bytes) (r : Receipt) : Except GoError Receipt :=
  match lib.sign priv random r.canonicalBytes with
  | .error e => .error (.wrap "por: viewer sign: %w" [] e)
  | .ok sig => .ok { r with viewerSig := sig }

def signAsProvider (priv : PrivateKey) (random : Bytes) (r : Receipt) : Except GoError Receipt :=
  match lib.sign priv random r.canonicalBytes with
  | .error e => .error (.wrap "por: provider sign: %w" [] e)
  | .ok sig => .ok { r with providerSig := sig }

def pubKeyFromPeerID (pidStr : Bytes) : Except GoError PublicKey :=
  match lib.decodePeerID pidStr with
  | .error e => .error (.wrap "decode peer id %q: %w" [.text pidStr] e)
  | .ok pid => lib.extractPublicKey pid

/-- The check of either signature; `role` is who should have signed. -/
def verifySig (role : String) (peerID sig : Bytes) (r : Receipt) : Except GoError Unit :=
  if sig.length = 0 then .error (.new ("por: "++role++" sig missing"))
  else match pubKeyFromPeerID lib peerID with
  | .error e => .error (.wrap ("por: "++role++" pub key: %w") [] e)
  | .ok pub => match lib.verify pub r.canonicalBytes sig with
    | .error e => .error (.wrap ("por: verify "++role++": %w") [] e)
    | .ok false => .error (.new ("por: "++role++" signature rejected"))
    | .ok true => .ok ()

def verifyViewerSig (r : Receipt) : Except GoError Unit :=
  verifySig lib "viewer" r.viewerPeerID r.viewerSig r

def verifyProviderSig (r : Receipt) : Except GoError Unit :=
  verifySig lib "provider" r.providerPeerID r.providerSig r

def verifyBoth (r : Receipt) : Except GoError Unit := do
  verifyViewerSig lib r
  verifyProviderSig lib r

end Signatures

end Receipt

section Canonical

structure SameReceipt (r r' : Receipt) : Prop where
  provider : r.providerPeerID = r'.providerPeerID
  timestamp : r.timestampUnix = r'.timestampUnix
  nonce : r.nonce = r'.nonce
  viewer : r.viewerPeerID = r'.viewerPeerID
  cid : r.cid = r'.cid
  index : r.segmentIndex = r'.segmentIndex
  size : r.segmentSize = r'.segmentSize

theorem SameReceipt.symm {r r' : Receipt} (h : SameReceipt r r') : SameReceipt r' r :=
  ⟨h.provider.symm,h.timestamp.symm,h.nonce.symm,h.viewer.symm,h.cid.symm,h.index.symm,h.size.symm⟩

theorem SameReceipt.trans {r r' r'' : Receipt} (h : SameReceipt r r') (h' : SameReceipt r' r'') :
    SameReceipt r r'' :=
  ⟨h.provider.trans h'.provider,h.timestamp.trans h'.timestamp,h.nonce.trans h'.nonce,
    h.viewer.trans h'.viewer,h.cid.trans h'.cid,h.index.trans h'.index,h.size.trans h'.size⟩

theorem toUInt64_inj (a b : Int64) (h : a.toUInt64 = b.toUInt64) : a = b := by
  obtain ⟨a⟩ := a
  obtain ⟨b⟩ := b
  cases h
  rfl

theorem lengthPrefixed_inj (a b s t : Bytes) (ha : a.length < 2^32) (hb : b.length < 2^32)
    (h : bigEndian 4 a.length++(a++s) = bigEndian 4 b.length++(b++t)) : a = b ∧ s = t := by
  obtain ⟨hlen, hrest⟩ := List.append_inj h (by rw [bigEndian_length, bigEndian_length])
  have hlength : a.length = b.length := bigEndian_inj 4 _ _ ha hb hlen
  exact List.append_inj hrest hlength

theorem int64Field_inj (m n : Int64) (s t : Bytes)
    (h : bigEndian 8 m.toUInt64.toNat++s = bigEndian 8 n.toUInt64.toNat++t) : m = n ∧ s = t := by
  obtain ⟨hfield, hrest⟩ := List.append_inj h (by rw [bigEndian_length, bigEndian_length])
  have hnat := bigEndian_inj 8 _ _ m.toUInt64.toNat_lt n.toUInt64.toNat_lt hfield
  exact ⟨toUInt64_inj m n (UInt64.toNat_inj.mp hnat),hrest⟩

theorem uint64Field_inj (m n : UInt64) (s t : Bytes)
    (h : bigEndian 8 m.toNat++s = bigEndian 8 n.toNat++t) : m = n ∧ s = t := by
  obtain ⟨hfield, hrest⟩ := List.append_inj h (by rw [bigEndian_length, bigEndian_length])
  exact ⟨UInt64.toNat_inj.mp (bigEndian_inj 8 _ _ m.toNat_lt n.toNat_lt hfield),hrest⟩

/-- The field lengths fit their four-byte prefixes. -/
structure Receipt.Framed (r : Receipt) : Prop where
  provider : r.providerPeerID.length < 2^32
  viewer : r.viewerPeerID.length < 2^32
  cid : r.cid.length < 2^32

theorem canonicalBytes_append (r : Receipt) (t : Bytes) : r.canonicalBytes++t =
    bigEndian 4 r.providerPeerID.length++(r.providerPeerID++
      (bigEndian 4 r.viewerPeerID.length++(r.viewerPeerID++
        (bigEndian 4 r.cid.length++(r.cid++
          (bigEndian 8 r.segmentIndex.toUInt64.toNat++(bigEndian 8 r.segmentSize.toUInt64.toNat++
            (bigEndian 8 r.timestampUnix.toUInt64.toNat++(bigEndian 8 r.nonce.toNat++t))))))))) := by
  simp only [Receipt.canonicalBytes, appendLV, List.nil_append, List.append_assoc]

theorem canonicalBytes_unframe (r r' : Receipt) (t t' : Bytes) (hr : r.Framed) (hr' : r'.Framed)
    (h : r.canonicalBytes++t = r'.canonicalBytes++t') : SameReceipt r r' ∧ t = t' := by
  rw [canonicalBytes_append, canonicalBytes_append] at h
  obtain ⟨hprovider, h⟩ := lengthPrefixed_inj _ _ _ _ hr.provider hr'.provider h
  obtain ⟨hviewer, h⟩ := lengthPrefixed_inj _ _ _ _ hr.viewer hr'.viewer h
  obtain ⟨hcid, h⟩ := lengthPrefixed_inj _ _ _ _ hr.cid hr'.cid h
  obtain ⟨hindex, h⟩ := int64Field_inj _ _ _ _ h
  obtain ⟨hsize, h⟩ := int64Field_inj _ _ _ _ h
  obtain ⟨hts, h⟩ := int64Field_inj _ _ _ _ h
  obtain ⟨hnonce, h⟩ := uint64Field_inj _ _ _ _ h
  exact ⟨⟨hprovider,hts,hnonce,hviewer,hcid,hindex,hsize⟩,h⟩

theorem SameReceipt.canonicalBytes {r r' : Receipt} (h : SameReceipt r r') :
    r.canonicalBytes = r'.canonicalBytes := by
  unfold Receipt.canonicalBytes
  rw [h.provider, h.viewer, h.cid, h.index, h.size, h.timestamp, h.nonce]

/-- The signed bytes determine the signed fields, and none are a proper prefix of
others. -/
theorem canonicalBytes_wire_format (r r' : Receipt) (hr : r.Framed) (hr' : r'.Framed) :
    (r.canonicalBytes = r'.canonicalBytes ↔ SameReceipt r r') ∧
      (r.canonicalBytes <+: r'.canonicalBytes → r.canonicalBytes = r'.canonicalBytes) := by
  constructor
  · constructor
    · intro h
      have hsplit : r.canonicalBytes++[] = r'.canonicalBytes++[] := by rw [h]
      exact (canonicalBytes_unframe r r' [] [] hr hr' hsplit).1
    · exact SameReceipt.canonicalBytes
  · rintro ⟨t, ht⟩
    have hsplit : r.canonicalBytes++t = r'.canonicalBytes++[] := by rw [ht, List.append_nil]
    exact (canonicalBytes_unframe r r' t [] hr hr' hsplit).1.canonicalBytes

end Canonical

section Codec

def sigMember (name : String) (sig : Bytes) : List (Bytes × Json) :=
  if sig = [] then [] else [(ascii name, bytesJson sig)]

def receiptJson (r : Receipt) : Json := .obj ([
  (ascii "provider_peer_id", .str r.providerPeerID),
  (ascii "viewer_peer_id", .str r.viewerPeerID),
  (ascii "cid", .str r.cid),
  (ascii "segment_index", int64Json r.segmentIndex),
  (ascii "segment_size", int64Json r.segmentSize),
  (ascii "timestamp_unix", int64Json r.timestampUnix),
  (ascii "nonce", uint64Json r.nonce)]++
  (sigMember "viewer_sig" r.viewerSig++sigMember "provider_sig" r.providerSig))

structure ReceiptTarget where
  receipt : Receipt
  viewerBacking : Bytes
  providerBacking : Bytes

def ReceiptTarget.zero : ReceiptTarget := ⟨⟨[], [], [], 0, 0, 0, 0, [], []⟩, [], []⟩

def viewerSigField : RecordField ReceiptTarget :=
  ⟨ascii "viewer_sig", fun j t => (setBytes j (some t.receipt.viewerSig, t.viewerBacking)).map
    (fun p => { t with
      receipt := { t.receipt with viewerSig := p.1.getD [] }, viewerBacking := p.2 })⟩

def providerSigField : RecordField ReceiptTarget :=
  ⟨ascii "provider_sig", fun j t => (setBytes j (some t.receipt.providerSig, t.providerBacking)).map
    (fun p => { t with
      receipt := { t.receipt with providerSig := p.1.getD [] }, providerBacking := p.2 })⟩

def receiptFields : List (RecordField ReceiptTarget) := [
  ⟨ascii "provider_peer_id", fun j t => (setString j t.receipt.providerPeerID).map
    (fun s => { t with receipt := { t.receipt with providerPeerID := s } })⟩,
  ⟨ascii "viewer_peer_id", fun j t => (setString j t.receipt.viewerPeerID).map
    (fun s => { t with receipt := { t.receipt with viewerPeerID := s } })⟩,
  ⟨ascii "cid", fun j t => (setString j t.receipt.cid).map
    (fun s => { t with receipt := { t.receipt with cid := s } })⟩,
  ⟨ascii "segment_index", fun j t => (setInt64 j t.receipt.segmentIndex).map
    (fun n => { t with receipt := { t.receipt with segmentIndex := n } })⟩,
  ⟨ascii "segment_size", fun j t => (setInt64 j t.receipt.segmentSize).map
    (fun n => { t with receipt := { t.receipt with segmentSize := n } })⟩,
  ⟨ascii "timestamp_unix", fun j t => (setInt64 j t.receipt.timestampUnix).map
    (fun n => { t with receipt := { t.receipt with timestampUnix := n } })⟩,
  ⟨ascii "nonce", fun j t => (setUint64 j t.receipt.nonce).map
    (fun n => { t with receipt := { t.receipt with nonce := n } })⟩,
  viewerSigField,
  providerSigField]

def unmarshalReceipt (raw : Bytes) : Except GoError Receipt :=
  (unmarshal receiptFields .zero raw).map ReceiptTarget.receipt

def decodeReceipt (body : Bytes) : Except GoError Receipt :=
  (decodeFirst receiptFields .zero body).map ReceiptTarget.receipt

def Receipt.sanitized (r : Receipt) : Receipt :=
  { r with
    providerPeerID := Json.sanitize r.providerPeerID
    viewerPeerID := Json.sanitize r.viewerPeerID
    cid := Json.sanitize r.cid }

structure Receipt.ValidText (r : Receipt) : Prop where
  providerPeerID : Valid r.providerPeerID
  viewerPeerID : Valid r.viewerPeerID
  cid : Valid r.cid

theorem Receipt.sanitized_eq (r : Receipt) (h : r.ValidText) : r.sanitized = r := by
  simp only [Receipt.sanitized, Json.sanitize_valid _ h.providerPeerID,
    Json.sanitize_valid _ h.viewerPeerID, Json.sanitize_valid _ h.cid]

theorem sigMember_printable (name : String) (sig : Bytes) :
    Json.PrintableFields (sigMember name sig) := by
  unfold sigMember
  split_ifs <;> simp [Json.PrintableFields, bytesJson, Json.Printable]

theorem sigMember_height (name : String) (sig : Bytes) :
    Json.heightFields (sigMember name sig) = 0 := by
  unfold sigMember
  split_ifs <;> rfl

theorem sigMember_sanitized (name : String) (sig : Bytes)
    (hname : Json.sanitize (ascii name) = ascii name) :
    Json.sanitizedFields (sigMember name sig) = sigMember name sig := by
  unfold sigMember
  split_ifs
  · rfl
  · simp [Json.sanitizedFields, bytesJson_sanitized, hname]

theorem receiptJson_printable (r : Receipt) : (receiptJson r).Printable := by
  rw [receiptJson, Json.Printable, Json.printableFields_append, Json.printableFields_append]
  refine ⟨?_, sigMember_printable _ _, sigMember_printable _ _⟩
  simp only [Json.PrintableFields, Json.Printable, int64Json_printable, uint64Json_printable,
    and_true]

theorem receiptJson_height (r : Receipt) : (receiptJson r).height ≤ Json.maxNestingDepth := by
  simp [receiptJson, Json.height, Json.heightFields, Json.heightFields_append, sigMember_height,
    int64Json, uint64Json, Json.maxNestingDepth]

theorem receiptJson_sanitized (r : Receipt) :
    (receiptJson r).sanitized = receiptJson r.sanitized := by
  have hint : ∀ n : Int64, (int64Json n).sanitized = int64Json n := by
    intro n
    rw [int64Json, Json.sanitized]
  have huint : ∀ n : UInt64, (uint64Json n).sanitized = uint64Json n := by
    intro n
    rw [uint64Json, Json.sanitized]
  rw [receiptJson, Json.sanitized, Json.sanitizedFields_append, Json.sanitizedFields_append,
    sigMember_sanitized _ _ rfl, sigMember_sanitized _ _ rfl]
  simp only [Json.sanitizedFields, Json.sanitized, hint, huint]
  rfl

theorem setFields_viewerSig (sig : Bytes) (t : ReceiptTarget) (ht : t.receipt.viewerSig = [])
    (hbacking : t.viewerBacking = []) :
    setFields receiptFields (sigMember "viewer_sig" sig) t =
      some { t with receipt := { t.receipt with viewerSig := sig }, viewerBacking := sig } := by
  unfold sigMember
  split_ifs with hsig
  · obtain ⟨⟨_, _, _, _, _, _, _, _, _⟩, _, _⟩ := t
    cases ht
    cases hbacking
    rw [hsig]
    rfl
  · have hfind := findField_name receiptFields (by decide) viewerSigField (by simp [receiptFields])
    rw [setFields, show ascii "viewer_sig" = viewerSigField.name from rfl, hfind]
    simp [viewerSigField, setFields]

theorem setFields_providerSig (sig : Bytes) (t : ReceiptTarget) (ht : t.receipt.providerSig = [])
    (hbacking : t.providerBacking = []) :
    setFields receiptFields (sigMember "provider_sig" sig) t =
      some { t with receipt := { t.receipt with providerSig := sig }, providerBacking := sig } := by
  unfold sigMember
  split_ifs with hsig
  · obtain ⟨⟨_, _, _, _, _, _, _, _, _⟩, _, _⟩ := t
    cases ht
    cases hbacking
    rw [hsig]
    rfl
  · have hfind := findField_name receiptFields (by decide) providerSigField
      (by simp [receiptFields])
    rw [setFields, show ascii "provider_sig" = providerSigField.name from rfl, hfind]
    simp [providerSigField, setFields]

theorem receiptJson_decode (r : Receipt) :
    decodeRecord receiptFields .zero (receiptJson r) =
      some ⟨r, r.viewerSig, r.providerSig⟩ := by
  have heach := setFields_each receiptFields (by decide) (receiptFields.zip
    [.str r.providerPeerID, .str r.viewerPeerID, .str r.cid, int64Json r.segmentIndex,
      int64Json r.segmentSize, int64Json r.timestampUnix, uint64Json r.nonce])
    (fun v hv => (List.of_mem_zip hv).1) .zero
  have hunsigned : setFields receiptFields [
      (ascii "provider_peer_id", .str r.providerPeerID),
      (ascii "viewer_peer_id", .str r.viewerPeerID),
      (ascii "cid", .str r.cid),
      (ascii "segment_index", int64Json r.segmentIndex),
      (ascii "segment_size", int64Json r.segmentSize),
      (ascii "timestamp_unix", int64Json r.timestampUnix),
      (ascii "nonce", uint64Json r.nonce)] .zero =
      some ⟨{ r with viewerSig := [], providerSig := [] }, [], []⟩ :=
    heach.trans (by simp [receiptFields, setEach, ReceiptTarget.zero])
  rw [receiptJson, decodeRecord, setFields_append, hunsigned, Option.bind_some, setFields_append,
    setFields_viewerSig _ _ rfl rfl, Option.bind_some, setFields_providerSig _ _ rfl rfl]

theorem unmarshalReceipt_print (r : Receipt) :
    unmarshalReceipt (receiptJson r).print = .ok r.sanitized := by
  have hread := unmarshal_print receiptFields .zero _ (receiptJson r) (receiptJson_printable r)
    (receiptJson_height r) (by rw [receiptJson_sanitized, receiptJson_decode])
  rw [unmarshalReceipt, hread]
  rfl

theorem receiptJson_inj (r s : Receipt) (h : (receiptJson r).print = (receiptJson s).print) :
    r.sanitized = s.sanitized := by
  have hread := unmarshalReceipt_print r
  rw [h, unmarshalReceipt_print] at hread
  exact (Except.ok.inj hread).symm

theorem setString_valid (j : Json) (old s : Bytes) (hj : ∀ t, j = .str t → Valid t)
    (hold : Valid old) (h : setString j old = some s) : Valid s := by
  unfold setString at h
  split at h
  · cases h
    exact hold
  · cases h
    exact hj _ rfl
  · cases h

theorem receiptFields_validText :
    ∀ f ∈ receiptFields, ∀ (j : Json) (a b : ReceiptTarget), (∀ t, j = .str t → Valid t) →
      a.receipt.ValidText → f.set j a = some b → b.receipt.ValidText := by
  intro f hf j a b hj ha h
  simp only [receiptFields, List.mem_cons, List.not_mem_nil, or_false] at hf
  rcases hf with rfl | rfl | rfl | rfl | rfl | rfl | rfl | rfl | rfl <;>
    obtain ⟨v, hv, rfl⟩ := Option.map_eq_some_iff.mp h
  · exact ⟨setString_valid j _ v hj ha.providerPeerID hv,ha.viewerPeerID,ha.cid⟩
  · exact ⟨ha.providerPeerID,setString_valid j _ v hj ha.viewerPeerID hv,ha.cid⟩
  · exact ⟨ha.providerPeerID,ha.viewerPeerID,setString_valid j _ v hj ha.cid hv⟩
  all_goals exact ⟨ha.providerPeerID,ha.viewerPeerID,ha.cid⟩

theorem decodeReceipt_validText (body : Bytes) (r : Receipt) (h : decodeReceipt body = .ok r) :
    r.ValidText := by
  have hempty : Valid [] := valid_ascii [] (by simp)
  have hzero : ReceiptTarget.zero.receipt.ValidText := ⟨hempty,hempty,hempty⟩
  rw [decodeReceipt, map_ok] at h
  obtain ⟨target, htarget, rfl⟩ := h
  unfold decodeFirst readDocument at htarget
  split at htarget
  · cases htarget
  · rename_i j hj
    split at htarget
    · cases htarget
    · rename_i b hb
      cases htarget
      unfold decodeRecord at hb
      split at hb
      · cases hb
        exact hzero
      · rename_i members
        refine setFields_invariant receiptFields (fun j => ∀ t, j = .str t → Valid t)
          (fun t => t.receipt.ValidText) receiptFields_validText members ?_ .zero target hzero hb
        rintro k v hv t rfl
        exact Json.decodeStream_members body members hj k t hv
      · cases hb

end Codec

section Samples

def sampleLib : Libp2p Bytes Bytes where
  decodePeerID := .ok
  extractPublicKey := .ok
  verify := fun _ _ sig => .ok (sig == [1])
  sign := fun _ _ _ => .ok [1]
  peerIDOf := .ok

def sampleReceipt (viewer : String) : Receipt :=
  ⟨ascii "p", ascii viewer, ascii "c", 0, 10, 5, 1, [1], []⟩

/-- A byte moved from one field to the next is seen. -/
theorem canonicalBytes_wire_format_shifted :
    ((sampleReceipt "vc").canonicalBytes = { sampleReceipt "v" with cid := ascii "cc" }.canonicalBytes ↔
      SameReceipt (sampleReceipt "vc") { sampleReceipt "v" with cid := ascii "cc" }) ∧
    ((sampleReceipt "vc").canonicalBytes <+:
        { sampleReceipt "v" with cid := ascii "cc" }.canonicalBytes →
      (sampleReceipt "vc").canonicalBytes =
        { sampleReceipt "v" with cid := ascii "cc" }.canonicalBytes) :=
  canonicalBytes_wire_format (sampleReceipt "vc") { sampleReceipt "v" with cid := ascii "cc" }
    ⟨by decide,by decide,by decide⟩ ⟨by decide,by decide,by decide⟩

end Samples

end Aevia.Por
