import Aevia.Provider.ReceiptStore

/-!
# The order of a scan

The keys of a provider stand in the order of their timestamps as unsigned
numbers, so a scan is in ascending order as long as no timestamp before 1970
meets one after it. What is returned is the stored document read back, which is
the receipt that was put as long as its texts are well formed.
-/

set_option autoImplicit false

namespace Aevia.Por
open Aevia.Bytes Aevia.KeyValue Aevia.Paired Aevia.Storage Aevia.StoreProgram

section Timestamps

theorem toInt_cond (n : Int64) : n.toInt =
    if 2*n.toUInt64.toNat < 2^64 then (n.toUInt64.toNat : ℤ) else (n.toUInt64.toNat : ℤ)-2^64 :=
  BitVec.toInt_eq_toNat_cond n.toBitVec

theorem unsigned_negative (n : Int64) : n < 0 ↔ 2^63 ≤ n.toUInt64.toNat := by
  have h := toInt_cond n
  have hlt := n.toUInt64.toNat_lt
  rw [Int64.lt_iff_toInt_lt]
  change n.toInt < 0 ↔ _
  split_ifs at h <;> omega

theorem unsigned_order (m n : Int64) (h : m < 0 ↔ n < 0) :
    m ≤ n ↔ m.toUInt64.toNat ≤ n.toUInt64.toNat := by
  have hm := toInt_cond m
  have hn := toInt_cond n
  rw [unsigned_negative, unsigned_negative] at h
  rw [Int64.le_iff_toInt_le]
  split_ifs at hm hn <;> omega

theorem same_sign (m n : Int64) (hunsigned : m.toUInt64.toNat ≤ n.toUInt64.toNat) (h : m ≤ n) :
    m < 0 ↔ n < 0 := by
  have hm := toInt_cond m
  have hn := toInt_cond n
  have hlt := n.toUInt64.toNat_lt
  rw [unsigned_negative, unsigned_negative]
  rw [Int64.le_iff_toInt_le] at h
  split_ifs at hm hn <;> omega

end Timestamps

section Contents

/-- The receipt that was put last under a key; a put without a provider is refused. -/
def lastPut (puts : List Receipt) (key : Bytes) : Option Receipt :=
  (puts.filter (fun r => r.providerPeerID ≠ [] ∧ receiptKey r = key)).getLast?

def storeOf (puts : List Receipt) : Database := puts.foldl storePut Map.empty

def Stored (puts : List Receipt) (r : Receipt) : Prop := lastPut puts (receiptKey r) = some r

theorem storeOf_get (puts : List Receipt) (key : Bytes) :
    (storeOf puts).get key = (lastPut puts key).map (fun r => (receiptJson r).print) := by
  induction puts using List.reverseRecOn with
  | nil => rfl
  | append_singleton puts r ih =>
    rw [storeOf, List.foldl_append]
    change (storePut (storeOf puts) r).get key = _
    rw [lastPut, List.filter_append]
    by_cases hr : r.providerPeerID ≠ [] ∧ receiptKey r = key
    · obtain ⟨hprovider, rfl⟩ := hr
      rw [get_storePut _ r hprovider]
      simp [hprovider]
    · rw [get_storePut_other _ r key (by tauto), ih]
      simp [hr, lastPut]

theorem storeOf_recorded (puts : List Receipt) : Recorded (storeOf puts) := by
  intro key raw _ hraw
  rw [storeOf_get, Option.map_eq_some_iff] at hraw
  obtain ⟨r, hr, rfl⟩ := hraw
  have hmem := (List.mem_filter.mp (List.mem_of_getLast? hr)).2
  exact ⟨r,(of_decide_eq_true hmem).2.symm,rfl⟩

theorem lastPut_stored (puts : List Receipt) (key : Bytes) (r : Receipt)
    (h : lastPut puts key = some r) : receiptKey r = key ∧ Stored puts r := by
  have hmem := (List.mem_filter.mp (List.mem_of_getLast? h)).2
  have hkey := (of_decide_eq_true hmem).2
  exact ⟨hkey,by rw [Stored, hkey, h]⟩

end Contents

section Scan

theorem receiptKey_lt (r r' : Receipt) (hprovider : r.providerPeerID = r'.providerPeerID)
    (h : r.timestampUnix.toUInt64.toNat < r'.timestampUnix.toUInt64.toNat) :
    receiptKey r < receiptKey r' := by
  have hlt : r'.timestampUnix.toUInt64.toNat < 256^keyTimestampSize :=
    r'.timestampUnix.toUInt64.toNat_lt
  rw [receiptKey_eq, receiptKey_eq, hprovider]
  exact append_lt_append _ _ _ (bigEndian_lt _ _ _ h hlt _ _)

variable (db : Database) (hdb : Recorded db) (provider : Bytes) (since til : Int64)

include hdb in
theorem getByProvider_ordered (rs : List Receipt) (h : getByProvider provider since til db = .ok rs) :
    rs.Pairwise (fun r r' => r ≠ r' ∧
      r.timestampUnix.toUInt64.toNat ≤ r'.timestampUnix.toUInt64.toNat) := by
  have hreads := (scanReceipts_ok since til _ db _ rs).mp h
  have hown : ∀ k ∈ (listKeysWithPrefix db (providerPrefix provider)).filter
      (scanned since til (providerPrefix provider)), ∀ r, ReadsAs db k r →
      ∃ s : Receipt, k = receiptKey s ∧ s.providerPeerID = provider ∧ r = s.sanitized := by
    intro k hk r hread
    obtain ⟨hlisted, hscanned⟩ := List.mem_filter.mp hk
    obtain ⟨hkey, hpre⟩ := (mem_providerKeys db provider k).mp hlisted
    obtain ⟨s, rfl, -, hs⟩ := recorded_readsAs db hdb k hkey
    exact ⟨s,rfl,((scanned_receiptKey since til s provider hpre).mp hscanned).1,hread.unique hs⟩
  refine forall₂_pairwise _ _ hreads (List.Pairwise.filter _ (List.Pairwise.filter _ db.keys_sorted))
    ?_
  intro k hk k' hk' r r' hr hr' hlt
  obtain ⟨s, rfl, hs, rfl⟩ := hown k hk r hr
  obtain ⟨s', rfl, hs', rfl⟩ := hown k' hk' r' hr'
  constructor
  · intro heq
    have hts : s.sanitized.timestampUnix = s'.sanitized.timestampUnix := by rw [heq]
    have hnonce : s.sanitized.nonce = s'.sanitized.nonce := by rw [heq]
    rw [receiptKey_congr s s' (hs.trans hs'.symm) hts hnonce] at hlt
    exact lt_irrefl _ hlt
  · by_contra hback
    exact lt_asymm hlt (receiptKey_lt s' s (hs'.trans hs.symm) (not_le.mp hback))

end Scan

section Exact
variable (puts : List Receipt) (provider : Bytes)

/-- A scan within positive bounds returns what is stored within them, each once. -/
def ExactRange : Prop := ∀ since til : Int64, 0 < since → 0 < til →
  ∃ rs, getByProvider provider since til (storeOf puts) = .ok rs ∧ rs.Nodup ∧
    ∀ r, r ∈ rs ↔ Stored puts r ∧ r.providerPeerID = provider ∧
      since ≤ r.timestampUnix ∧ r.timestampUnix < til

/-- A scan without bounds returns all that is stored, each once, in the order of time. -/
def OrderedAll : Prop := ∃ rs, getByProvider provider 0 0 (storeOf puts) = .ok rs ∧ rs.Nodup ∧
  (∀ r, r ∈ rs ↔ Stored puts r ∧ r.providerPeerID = provider) ∧
  rs.Pairwise (fun r r' => r.timestampUnix ≤ r'.timestampUnix)

theorem mem_scan (since til : Int64) :
    ∃ rs, getByProvider provider since til (storeOf puts) = .ok rs ∧ rs.Nodup ∧
      ∀ r, r ∈ rs ↔ ∃ s, Stored puts s ∧ s.providerPeerID = provider ∧
        ((0 < since → since ≤ s.timestampUnix) ∧ (0 < til → s.timestampUnix < til)) ∧
        r = s.sanitized := by
  obtain ⟨rs, hrs, hmem⟩ := mem_getByProvider _ (storeOf_recorded puts) provider since til
  have hordered := getByProvider_ordered _ (storeOf_recorded puts) provider since til rs hrs
  refine ⟨rs, hrs, hordered.imp (fun h => h.1), fun r => ?_⟩
  rw [hmem]
  constructor
  · rintro ⟨s, hs, hprovider, hbounds, rfl⟩
    rw [storeOf_get, Option.map_eq_some_iff] at hs
    obtain ⟨s', hs', hprint⟩ := hs
    obtain ⟨hkey, hstored⟩ := lastPut_stored puts _ s' hs'
    obtain ⟨hprovider', hts, -⟩ := receiptKey_inj s' s hkey
    refine ⟨s', hstored, hprovider'.trans hprovider, by rwa [hts], ?_⟩
    exact (receiptJson_inj s' s hprint).symm
  · rintro ⟨s, hs, hprovider, hbounds, rfl⟩
    refine ⟨s, ?_, hprovider, hbounds, rfl⟩
    rw [storeOf_get, hs]
    rfl

theorem unbounded (ts : Int64) :
    ((0 : Int64) < 0 → 0 ≤ ts) ∧ ((0 : Int64) < 0 → ts < 0) := by
  have hnone : ¬((0 : Int64) < 0) := by decide
  exact ⟨fun h => absurd h hnone,fun h => absurd h hnone⟩

theorem sanitized_of_stored (s : Receipt) (hs : Stored puts s) (hprovider : s.providerPeerID = provider)
    (h : Stored puts s.sanitized ∧ s.sanitized.providerPeerID = provider) : s.sanitized = s := by
  have hkey : receiptKey s.sanitized = receiptKey s :=
    receiptKey_congr _ _ (h.2.trans hprovider.symm) rfl rfl
  have hsame := h.1
  rw [Stored, hkey, hs, Option.some.injEq] at hsame
  exact hsame.symm

def Clean : Prop := ∀ r, Stored puts r → r.providerPeerID = provider → r.sanitized = r

theorem mem_scan_clean (hclean : Clean puts provider) (since til : Int64) :
    ∃ rs, getByProvider provider since til (storeOf puts) = .ok rs ∧ rs.Nodup ∧
      ∀ r, r ∈ rs ↔ Stored puts r ∧ r.providerPeerID = provider ∧
        (0 < since → since ≤ r.timestampUnix) ∧ (0 < til → r.timestampUnix < til) := by
  obtain ⟨rs, hrs, hnodup, hscan⟩ := mem_scan puts provider since til
  refine ⟨rs, hrs, hnodup, fun r => ?_⟩
  rw [hscan]
  constructor
  · rintro ⟨s, hs, hprovider, hbounds, rfl⟩
    rw [hclean s hs hprovider]
    exact ⟨hs,hprovider,hbounds⟩
  · rintro ⟨hr, hprovider, hbounds⟩
    exact ⟨r,hr,hprovider,hbounds,(hclean r hr hprovider).symm⟩

theorem exactRange_of_clean (hclean : Clean puts provider) : ExactRange puts provider := by
  intro since til hsince htil
  obtain ⟨rs, hrs, hnodup, hmem⟩ := mem_scan_clean puts provider hclean since til
  refine ⟨rs, hrs, hnodup, fun r => ?_⟩
  rw [hmem]
  simp only [hsince, htil, true_imp_iff]

theorem orderedAll_of_clean (hclean : Clean puts provider)
    (hsigns : ∀ r r', Stored puts r → Stored puts r' → r.providerPeerID = provider →
      r'.providerPeerID = provider → (r.timestampUnix < 0 ↔ r'.timestampUnix < 0)) :
    OrderedAll puts provider := by
  obtain ⟨rs, hrs, hnodup, hscan⟩ := mem_scan_clean puts provider hclean 0 0
  have hmem : ∀ r, r ∈ rs ↔ Stored puts r ∧ r.providerPeerID = provider := by
    intro r
    rw [hscan]
    exact ⟨fun h => ⟨h.1,h.2.1⟩,fun h => ⟨h.1,h.2,unbounded _⟩⟩
  refine ⟨rs, hrs, hnodup, hmem, ?_⟩
  refine (getByProvider_ordered _ (storeOf_recorded puts) provider 0 0 rs hrs).imp_of_mem ?_
  intro r r' hr hr' hle
  obtain ⟨hstored, hprovider⟩ := (hmem r).mp hr
  obtain ⟨hstored', hprovider'⟩ := (hmem r').mp hr'
  exact (unsigned_order _ _ (hsigns r r' hstored hstored' hprovider hprovider')).mpr hle.2

theorem clean_of_ordered (h : OrderedAll puts provider) : Clean puts provider := by
  obtain ⟨all, hall, -, hmem, -⟩ := h
  obtain ⟨rs, hrs, -, hscan⟩ := mem_scan puts provider 0 0
  obtain rfl : all = rs := by rwa [hall, Except.ok.injEq] at hrs
  intro r hr hprovider
  exact sanitized_of_stored puts provider r hr hprovider
    ((hmem _).mp ((hscan _).mpr ⟨r,hr,hprovider,unbounded _,rfl⟩))

theorem signs_of_ordered (h : OrderedAll puts provider) :
    ∀ r r', Stored puts r → Stored puts r' → r.providerPeerID = provider →
      r'.providerPeerID = provider → (r.timestampUnix < 0 ↔ r'.timestampUnix < 0) := by
  obtain ⟨all, hall, -, hmem, hsorted⟩ := h
  have hordered := getByProvider_ordered _ (storeOf_recorded puts) provider 0 0 all hall
  have hsigns : all.Pairwise (fun r r' => r.timestampUnix < 0 ↔ r'.timestampUnix < 0) := by
    refine (List.pairwise_and_iff.mpr ⟨hordered,hsorted⟩).imp ?_
    rintro r r' ⟨⟨-, hunsigned⟩, htime⟩
    exact same_sign _ _ hunsigned htime
  have hself : ∀ r ∈ all, (r.timestampUnix < 0 ↔ r.timestampUnix < 0) := fun _ _ => Iff.rfl
  have hany := hsigns.forall_of_forall_of_flip hself (hsigns.imp Iff.symm)
  intro r r' hr hr' hprovider hprovider'
  exact hany ((hmem r).mpr ⟨hr,hprovider⟩) ((hmem r').mpr ⟨hr',hprovider'⟩)

/-- Both scans are exact, and the unbounded one in order, if and only if the texts of
the provider's receipts are well formed and no timestamp of them below zero stands
beside one that is not. -/
theorem getByProvider_exact : (ExactRange puts provider ∧ OrderedAll puts provider) ↔
    (∀ r, Stored puts r → r.providerPeerID = provider → r.sanitized = r) ∧
    ∀ r r', Stored puts r → Stored puts r' → r.providerPeerID = provider →
      r'.providerPeerID = provider → (r.timestampUnix < 0 ↔ r'.timestampUnix < 0) := by
  constructor
  · rintro ⟨-, hordered⟩
    exact ⟨clean_of_ordered puts provider hordered,signs_of_ordered puts provider hordered⟩
  · rintro ⟨hclean, hsigns⟩
    exact ⟨exactRange_of_clean puts provider hclean,orderedAll_of_clean puts provider hclean hsigns⟩

end Exact

section Samples

def earlyReceipt : Receipt := { sampleReceipt "v" with timestampUnix := -1 }

/-- The earlier receipt comes last, also where it is the first that was put. -/
theorem early_receipt_last :
    getByProvider (ascii "p") 0 0 (storeOf [earlyReceipt, sampleReceipt "v"]) =
      .ok [sampleReceipt "v", earlyReceipt] ∧
    earlyReceipt.timestampUnix < (sampleReceipt "v").timestampUnix ∧
    ¬ (ExactRange [earlyReceipt, sampleReceipt "v"] (ascii "p") ∧
      OrderedAll [earlyReceipt, sampleReceipt "v"] (ascii "p")) := by
  have hscan : getByProvider (ascii "p") 0 0 (storeOf [earlyReceipt, sampleReceipt "v"]) =
      .ok [sampleReceipt "v", earlyReceipt] := by
    decide +kernel
  refine ⟨hscan, by decide, ?_⟩
  rintro ⟨-, rs, hrs, -, -, hsorted⟩
  rw [hscan, Except.ok.injEq] at hrs
  rw [← hrs] at hsorted
  revert hsorted
  decide

end Samples

end Aevia.Por
