import Aevia.Provider.Manifest
import Aevia.Provider.Receipt
import Aevia.Foundation.KeyValue
import Mathlib.Data.List.Sort

/-!
# Aggregation of receipts

A window of receipts becomes one settlement: signatures and uniqueness are
checked, bytes are added up per provider modulo `2^64`, and the hashes of the
receipts become the leaves of a tree.
-/

set_option autoImplicit false

namespace Aevia.Por
open Aevia.Bytes Aevia.Fallible Aevia.KeyValue Aevia.Manifests Aevia.Sha256 Aevia.StructCodec

/-- `providers` and `perProviderBytes` are parallel. -/
structure Settlement where
  merkleRoot : Bytes
  receiptCount : ℕ
  totalBytes : UInt64
  providers : List Bytes
  perProviderBytes : List UInt64

def settlementKey (r : Receipt) : Bytes :=
  r.providerPeerID++58::(intLiteral r.timestampUnix.toInt++58::decimal r.nonce.toNat)

section Build
variable {PublicKey PrivateKey : Type} (lib : Libp2p PublicKey PrivateKey)

/-- The validation loop from an index on; `seen` are the keys before it. -/
def validateReceipts : ℕ → List Bytes → List Receipt → Except GoError Unit
  | _, _, [] => .ok ()
  | i, seen, r::rs =>
    match r.verifyBoth lib with
    | .error e => .error (.wrap "por: receipt %d failed verification: %w" [.int i] e)
    | .ok () =>
      if settlementKey r ∈ seen then
        .error (.errorf "por: duplicate receipt at index %d (key=%s)"
          [.int i, .text (settlementKey r)])
      else validateReceipts (i+1) (settlementKey r::seen) rs

structure Totals where
  perProvider : Map Bytes UInt64
  total : UInt64

def addReceipt (t : Totals) (r : Receipt) : Totals where
  perProvider := t.perProvider.put r.providerPeerID
    ((t.perProvider.get r.providerPeerID).getD 0+r.segmentSize.toUInt64)
  total := t.total+r.segmentSize.toUInt64

def totals (receipts : List Receipt) : Totals := receipts.foldl addReceipt ⟨Map.empty, 0⟩

def compareBytes : Bytes → Bytes → ℤ
  | [], [] => 0
  | [], _::_ => -1
  | _::_, [] => 1
  | a::as, b::bs => if a ≠ b then (a.toNat : ℤ)-b.toNat else compareBytes as bs

/-- The keys of an ordered map are the sorted provider names. -/
def buildSettlement (receipts : List Receipt) : Except GoError Settlement :=
  if receipts.length = 0 then .error (.new "por: cannot build settlement from zero receipts")
  else do
    validateReceipts lib 0 [] receipts
    let perProvider := (totals receipts).perProvider
    let providers := perProvider.keys
    let leaves := (receipts.map Receipt.hash).insertionSort (fun a b => compareBytes a b ≤ 0)
    match newTree leaves with
    | .error e => .error (.wrap "por: build merkle tree: %w" [] e)
    | .ok tree => .ok {
        merkleRoot := tree.root
        receiptCount := receipts.length
        totalBytes := (totals receipts).total
        providers := providers
        perProviderBytes := providers.map (fun p => (perProvider.get p).getD 0) }

theorem validateReceipts_ok (i : ℕ) (seen : List Bytes) (rs : List Receipt) :
    validateReceipts lib i seen rs = .ok () ↔ (∀ r ∈ rs, r.verifyBoth lib = .ok ()) ∧
      (rs.map settlementKey).Nodup ∧ ∀ r ∈ rs, settlementKey r ∉ seen := by
  induction rs generalizing i seen with
  | nil => simp [validateReceipts]
  | cons r rs ih =>
    unfold validateReceipts
    cases hverify : r.verifyBoth lib with
    | error e => simp [hverify]
    | ok u =>
      dsimp only
      rw [guard_ok, ih]
      rw [List.forall_mem_cons, List.forall_mem_cons, List.map_cons, List.nodup_cons,
        List.mem_map, hverify]
      simp only [List.mem_cons, not_or, not_exists, not_and]
      constructor
      · rintro ⟨hseen, hall, hnodup, hnew⟩
        exact ⟨⟨trivial,hall⟩,⟨fun r' hr' => (hnew r' hr').1,hnodup⟩,hseen,fun r' hr' => (hnew r' hr').2⟩
      · rintro ⟨⟨-, hall⟩, ⟨hfresh, hnodup⟩, hseen, hnew⟩
        exact ⟨hseen,hall,hnodup,fun r' hr' => ⟨hfresh r' hr',hnew r' hr'⟩⟩

theorem buildSettlement_ok (receipts : List Receipt) (t : Settlement) :
    buildSettlement lib receipts = .ok t ↔ receipts ≠ [] ∧
      validateReceipts lib 0 [] receipts = .ok () ∧
      ∃ tree, newTree ((receipts.map Receipt.hash).insertionSort
          (fun a b => compareBytes a b ≤ 0)) = .ok tree ∧
        t = ⟨tree.root, receipts.length, (totals receipts).total, (totals receipts).perProvider.keys,
          (totals receipts).perProvider.keys.map
            (fun p => ((totals receipts).perProvider.get p).getD 0)⟩ := by
  unfold buildSettlement
  simp only [guard_ok, bind_ok, List.length_eq_zero_iff]
  refine and_congr_right (fun _ => ?_)
  constructor
  · rintro ⟨⟨⟩, hvalid, h⟩
    refine ⟨hvalid, ?_⟩
    split at h
    · cases h
    · rename_i tree htree
      exact ⟨tree,htree,(Except.ok.inj h).symm⟩
  · rintro ⟨hvalid, tree, htree, rfl⟩
    refine ⟨(), hvalid, ?_⟩
    rw [htree]

theorem buildSettlement_of_valid (receipts : List Receipt) (hne : receipts ≠ [])
    (hvalid : validateReceipts lib 0 [] receipts = .ok ()) :
    ∃ t, buildSettlement lib receipts = .ok t := by
  have hleaves : (receipts.map Receipt.hash).insertionSort (fun a b => compareBytes a b ≤ 0) ≠ [] := by
    intro h
    apply hne
    rw [← List.length_eq_zero_iff, List.length_insertionSort, List.length_map] at h
    exact List.length_eq_zero_iff.mp h
  have hsized : ∀ leaf ∈ (receipts.map Receipt.hash).insertionSort
      (fun a b => compareBytes a b ≤ 0), leaf.length = hashSize := by
    intro leaf hleaf
    rw [List.mem_insertionSort, List.mem_map] at hleaf
    obtain ⟨r, -, rfl⟩ := hleaf
    exact sha256_length _
  exact ⟨_,(buildSettlement_ok lib receipts _).mpr
    ⟨hne,hvalid,⟨_,hleaves,hsized⟩,(newTree_ok _ _).mpr rfl,rfl⟩⟩

theorem settlementKey_inj (r r' : Receipt) (h : settlementKey r = settlementKey r') :
    r.providerPeerID = r'.providerPeerID ∧ r.timestampUnix = r'.timestampUnix ∧
      r.nonce = r'.nonce := by
  have hcolon : ∀ n : ℕ, (58 : UInt8) ∉ decimal n := by
    intro n hn
    have hdigit := decimal_isDigit n 58 hn
    cases hdigit
  have hsplit : ∀ r : Receipt, settlementKey r =
      (r.providerPeerID++58::intLiteral r.timestampUnix.toInt)++58::decimal r.nonce.toNat := by
    intro r
    simp only [settlementKey, List.append_assoc, List.cons_append]
  rw [hsplit, hsplit] at h
  obtain ⟨hfront, hnonce⟩ := separator_append_inj 58 _ _ _ _ (hcolon _) (hcolon _) h
  obtain ⟨hprovider, hts⟩ := separator_append_inj 58 _ _ _ _ (colon_not_mem_intLiteral _)
    (colon_not_mem_intLiteral _) hfront
  exact ⟨hprovider,Int64.toInt_inj.mp (intLiteral_inj _ _ hts),
    UInt64.toNat_inj.mp (decimal_inj _ _ hnonce)⟩

theorem buildSettlement_of_distinct (receipts : List Receipt) (hne : receipts ≠ [])
    (hverified : ∀ r ∈ receipts, r.verifyBoth lib = .ok ())
    (hdistinct : receipts.Pairwise (fun r r' => ¬ (r.providerPeerID = r'.providerPeerID ∧
      r.timestampUnix = r'.timestampUnix ∧ r.nonce = r'.nonce))) :
    ∃ t, buildSettlement lib receipts = .ok t := by
  apply buildSettlement_of_valid lib receipts hne
  apply (validateReceipts_ok lib 0 [] receipts).mpr
  have hkeys : (receipts.map settlementKey).Nodup := by
    apply List.pairwise_map.mpr
    exact hdistinct.imp (fun hne hkey => hne (settlementKey_inj _ _ hkey))
  exact ⟨hverified,hkeys,fun _ _ => List.not_mem_nil⟩

end Build

section Sums

def servedBytes (receipts : List Receipt) : ℤ := (receipts.map (fun r => r.segmentSize.toInt)).sum

def servedBy (receipts : List Receipt) (p : Bytes) : ℤ :=
  servedBytes (receipts.filter (fun r => r.providerPeerID = p))

theorem toUInt64_eq_ofInt (n : Int64) : n.toUInt64 = UInt64.ofInt n.toInt := by
  have hlt := n.toUInt64.toNat_lt
  have hmod : n.toInt%2^64 = (n.toUInt64.toNat : ℤ) := by
    change n.toBitVec.toInt%2^64 = _
    rw [BitVec.toInt_eq_toNat_bmod]
    change Int.bmod (n.toUInt64.toNat : ℤ) ((2^64 : ℕ) : ℤ).toNat%2^64 = _
    rw [Int.toNat_natCast, show (2 : ℤ)^64 = ((2^64 : ℕ) : ℤ) by norm_num, Int.bmod_emod]
    omega
  rw [UInt64.ofInt, hmod, Int.toNat_natCast, UInt64.ofNat_toNat]

theorem servedBy_concat (receipts : List Receipt) (r : Receipt) (p : Bytes) :
    servedBy (receipts++[r]) p =
      servedBy receipts p+(if p = r.providerPeerID then r.segmentSize.toInt else 0) := by
  unfold servedBy servedBytes
  rw [List.filter_append, List.map_append, List.sum_append]
  split_ifs with h <;> simp [h, eq_comm]

theorem totals_concat (receipts : List Receipt) (r : Receipt) :
    totals (receipts++[r]) = addReceipt (totals receipts) r := by
  simp [totals]

theorem servedBy_absent (receipts : List Receipt) (p : Bytes)
    (h : p ∉ receipts.map Receipt.providerPeerID) : servedBy receipts p = 0 := by
  have hfilter : receipts.filter (fun r => r.providerPeerID = p) = [] := by
    refine List.filter_eq_nil_iff.mpr (fun r hr hp => h ?_)
    exact List.mem_map.mpr ⟨r,hr,of_decide_eq_true hp⟩
  rw [servedBy, hfilter]
  rfl

/-- The sums are the exact ones modulo `2^64`. -/
theorem totals_get (receipts : List Receipt) (p : Bytes) :
    (totals receipts).perProvider.get p =
      if p ∈ receipts.map Receipt.providerPeerID then some (UInt64.ofInt (servedBy receipts p))
      else none := by
  induction receipts using List.reverseRecOn with
  | nil => rfl
  | append_singleton receipts r ih =>
    rw [totals_concat, addReceipt, Map.get_put, servedBy_concat, List.map_append]
    by_cases hp : p = r.providerPeerID
    · subst hp
      rw [if_pos rfl, if_pos rfl, if_pos (by simp), ih, UInt64.ofInt_add, toUInt64_eq_ofInt]
      split_ifs with hmem
      · rfl
      · rw [servedBy_absent receipts _ hmem]
        rfl
    · rw [if_neg hp, if_neg hp, ih, add_zero]
      simp [hp]

theorem totals_total (receipts : List Receipt) :
    (totals receipts).total = UInt64.ofInt (servedBytes receipts) := by
  induction receipts using List.reverseRecOn with
  | nil => rfl
  | append_singleton receipts r ih =>
    rw [totals_concat, addReceipt, ih, toUInt64_eq_ofInt, ← UInt64.ofInt_add]
    simp [servedBytes]

theorem mem_totals_keys (receipts : List Receipt) (p : Bytes) :
    p ∈ (totals receipts).perProvider.keys ↔ p ∈ receipts.map Receipt.providerPeerID := by
  rw [Map.mem_keys, totals_get]
  split_ifs with h <;> simp [h]

/-- A settlement lists every provider once, with its sum modulo `2^64`. -/
theorem buildSettlement_sums {PublicKey PrivateKey : Type} (lib : Libp2p PublicKey PrivateKey)
    (receipts : List Receipt) (t : Settlement) (h : buildSettlement lib receipts = .ok t) :
    t.providers.Nodup ∧ (∀ p, p ∈ t.providers ↔ p ∈ receipts.map Receipt.providerPeerID) ∧
      t.perProviderBytes = t.providers.map (fun p => UInt64.ofInt (servedBy receipts p)) ∧
      t.totalBytes = UInt64.ofInt (servedBytes receipts) := by
  obtain ⟨-, -, tree, -, rfl⟩ := (buildSettlement_ok lib receipts t).mp h
  refine ⟨Map.keys_nodup _, mem_totals_keys receipts, ?_, totals_total receipts⟩
  refine List.map_congr_left (fun p hp => ?_)
  rw [totals_get, if_pos ((mem_totals_keys receipts p).mp hp), Option.getD_some]

theorem sum_at (ps : List Bytes) (hps : ps.Nodup) (q : Bytes) (hq : q ∈ ps) (n : ℤ) :
    (ps.map (fun p => if p = q then n else 0)).sum = n := by
  induction ps with
  | nil => cases hq
  | cons p ps ih =>
    rw [List.nodup_cons] at hps
    rw [List.map_cons, List.sum_cons]
    by_cases hp : p = q
    · have hrest : ps.map (fun p => if p = q then n else 0) = ps.map (fun _ => 0) :=
        List.map_congr_left (fun p' hp' => if_neg (fun h => hps.1 (by rw [hp, ← h]; exact hp')))
      rw [if_pos hp, hrest]
      simp
    · rw [if_neg hp, zero_add]
      exact ih hps.2 ((List.mem_cons.mp hq).resolve_left (Ne.symm hp))

theorem sum_servedBy (receipts : List Receipt) (ps : List Bytes) (hps : ps.Nodup)
    (hall : ∀ r ∈ receipts, r.providerPeerID ∈ ps) :
    (ps.map (servedBy receipts)).sum = servedBytes receipts := by
  induction receipts using List.reverseRecOn with
  | nil =>
    have hzero : servedBy [] = fun _ => 0 := rfl
    rw [hzero]
    simp [servedBytes]
  | append_singleton receipts r ih =>
    have hone := sum_at ps hps r.providerPeerID (hall r (by simp)) r.segmentSize.toInt
    have hrest := ih (fun r' hr' => hall r' (List.mem_append_left _ hr'))
    rw [funext (servedBy_concat receipts r), List.sum_map_add, hrest, hone]
    simp [servedBytes]

end Sums

end Aevia.Por
