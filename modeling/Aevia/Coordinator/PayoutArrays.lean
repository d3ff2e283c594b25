import Aevia.Coordinator.Settler
import Mathlib.Algebra.Order.BigOperators.Group.List

/-!
# Payout arrays of a settlement

Bytes are added up per provider, then providers are renamed to addresses. The
arrays in the calldata, the map in the result and the total agree with the
receipts exactly when no two providers share an address and the sums neither
go below zero nor reach `2^64`.
-/

set_option autoImplicit false

namespace Aevia.Coordinator
open Aevia.Abi Aevia.Bytes Aevia.Fallible Aevia.GoError Aevia.KeyValue Aevia.Manifests Aevia.Por
open Aevia.Storage

def servedTo (addressForPeer : Bytes → Except GoError Address) (recs : List Receipt)
    (addr : Bytes) : ℤ :=
  servedBytes (recs.filter (fun r => match addressForPeer r.providerPeerID with
    | .ok a => a.val = addr
    | .error _ => false))

/-- The three views of a payout, with the arrays as the contract reads them. -/
structure ExactPayouts (addressForPeer : Bytes → Except GoError Address) (recs : List Receipt)
    (result : Result) (call : SettlementCall) : Prop where
  distinct : call.providers.Nodup
  parallel : call.providers.length = call.bytesServed.length
  sums : ∀ (i : ℕ) addr n, call.providers[i]? = some addr → call.bytesServed[i]? = some n →
    (n : ℤ) = servedTo addressForPeer recs addr
  map : ∀ (addr : Address) n, result.providers.get addr = some n ↔
    (addr.val, n.toNat) ∈ call.providers.zip call.bytesServed
  total : result.providers.total (fun _ n => n.toNat) = result.totalBytes.toNat

section Inversion
variable {PublicKey PrivateKey : Type} (s : Settler PublicKey PrivateKey)

def addressOf (addressForPeer : Bytes → Except GoError Address) (pid : Bytes) : Address :=
  match addressForPeer pid with
  | .ok addr => addr
  | .error _ => zeroAddress

def entriesOf (addressForPeer : Bytes → Except GoError Address) (recs : List Receipt)
    (ps : List Bytes) : List (Address × UInt64) :=
  ps.map (fun p => (addressOf addressForPeer p, UInt64.ofInt (servedBy recs p)))

theorem resolveProviders_ok (addressForPeer : Bytes → Except GoError Address) (pids : List Bytes)
    (addrs : List Address) (h : resolveProviders addressForPeer pids = .ok addrs) :
    addrs = pids.map (addressOf addressForPeer) ∧
      ∀ pid ∈ pids, addressForPeer pid = .ok (addressOf addressForPeer pid) := by
  induction pids generalizing addrs with
  | nil =>
    cases h
    simp
  | cons pid pids ih =>
    unfold resolveProviders at h
    split at h
    · cases h
    · rename_i addr haddr
      simp only [guard_ok, map_ok] at h
      obtain ⟨-, rest, hrest, rfl⟩ := h
      obtain ⟨hmap, hall⟩ := ih rest hrest
      have haddress : addressOf addressForPeer pid = addr := by rw [addressOf, haddr]
      refine ⟨by rw [List.map_cons, haddress, hmap], fun p hp => ?_⟩
      rcases List.mem_cons.mp hp with rfl | hp
      · rw [haddress, haddr]
      · exact hall p hp

theorem copyRoot_length (merkleRoot : Bytes) : (copyRoot merkleRoot).length = wordSize := by
  simp [copyRoot, wordSize]

theorem assemble_ok (recs : List Receipt) (answers : ChainAnswers) (p : Payout)
    (h : assemble s recs answers = .ok p) :
    buildSettlement s.lib recs = .ok p.settlement ∧
      resolveProviders s.addressForPeer p.settlement.providers = .ok p.addrs ∧
      p.root = copyRoot p.settlement.merkleRoot ∧
      encodeSubmitSettlement p.root p.addrs p.settlement.perProviderBytes s.cfg.totalRewards =
        .ok p.calldata := by
  unfold assemble at h
  simp only [bind_ok, context_ok, Except.ok.injEq] at h
  obtain ⟨settlement, hsettlement, addrs, haddrs, calldata, hcalldata, -, -, -, -, -, -, tx, -,
    rfl⟩ := h
  exact ⟨hsettlement,haddrs,rfl,hcalldata⟩

theorem broadcast_ok (p : Payout) (answers : ChainAnswers) (result : Result)
    (h : broadcast s p answers = .ok result) :
    result.providers = providerMap p.addrs p.settlement.perProviderBytes ∧
      result.totalBytes = p.settlement.totalBytes ∧ result.calldata = p.calldata := by
  unfold broadcast at h
  split at h
  · cases h
  · split at h
    · cases h
    · rw [guard_ok] at h
      obtain ⟨-, h⟩ := h
      cases h
      exact ⟨rfl,rfl,rfl⟩

theorem settleOnce_views (others : List (List (Write Bytes Bytes))) (db : Database)
    (since til : Int64) (answers : ChainAnswers) (result : Result)
    (h : (settleOnce s others db since til answers).result = .ok result) :
    ∃ (root : Bytes) (rewards : ℕ) (ps : List Bytes), ps.Nodup ∧
      (∀ p, p ∈ ps ↔
        p ∈ (settleOnce s others db since til answers).recs.map Receipt.providerPeerID) ∧
      (∀ p ∈ ps, s.addressForPeer p = .ok (addressOf s.addressForPeer p)) ∧
      decodeSubmitSettlement result.calldata = some ⟨root,
        ps.map (fun p => (addressOf s.addressForPeer p).val),
        ps.map (fun p => (UInt64.ofInt
          (servedBy (settleOnce s others db since til answers).recs p)).toNat), rewards⟩ ∧
      result.providers = ofEntries (entriesOf s.addressForPeer
        (settleOnce s others db since til answers).recs ps) ∧
      result.totalBytes =
        UInt64.ofInt (servedBytes (settleOnce s others db since til answers).recs) := by
  obtain ⟨p, -, -, hassemble, -, hbroadcast⟩ := settleOnce_ok s others db since til answers result h
  generalize (settleOnce s others db since til answers).recs = recs at hassemble ⊢
  obtain ⟨hbuild, hresolve, hroot, hencode⟩ := assemble_ok s recs answers p hassemble
  obtain ⟨hproviders, htotal, hcalldata⟩ := broadcast_ok s p answers result hbroadcast
  obtain ⟨hnodup, hmem, hbytes, hsum⟩ := buildSettlement_sums s.lib recs p.settlement hbuild
  obtain ⟨haddrs, hall⟩ := resolveProviders_ok s.addressForPeer _ _ hresolve
  obtain ⟨rewards, -, hdecode⟩ := decodeSubmitSettlement_encode p.root p.addrs _ _ _
    (by rw [hroot]; exact copyRoot_length _) hencode
  refine ⟨p.root, rewards.toNat, p.settlement.providers, hnodup, hmem, hall, ?_, ?_, ?_⟩
  · rw [hcalldata, hdecode, haddrs, hbytes, List.map_map, List.map_map]
    rfl
  · rw [hproviders, providerMap, haddrs, hbytes, List.zip_map', entriesOf]
  · rw [htotal, hsum]

end Inversion

section Exact
variable (addressForPeer : Bytes → Except GoError Address) (recs : List Receipt)

def DistinctPayees : Prop := ∀ r₁ ∈ recs, ∀ r₂ ∈ recs,
  addressForPeer r₁.providerPeerID = addressForPeer r₂.providerPeerID →
    r₁.providerPeerID = r₂.providerPeerID

/-- Every provider's sum is non-negative and the total fits the counter. -/
structure SumsFit : Prop where
  nonneg : ∀ r ∈ recs, 0 ≤ servedBy recs r.providerPeerID
  total : servedBytes recs < 2^64

theorem toNat_ofInt (z : ℤ) : ((UInt64.ofInt z).toNat : ℤ) = z%2^64 := by
  have hnonneg : 0 ≤ z%2^64 := Int.emod_nonneg _ (by norm_num)
  have hlt : z%2^64 < 2^64 := Int.emod_lt_of_pos _ (by norm_num)
  have hvalue : (UInt64.ofInt z).toNat = (z%2^64).toNat :=
    UInt64.toNat_ofNat_of_lt' (show (z%2^64).toNat < 2^64 by omega)
  rw [hvalue]
  exact Int.toNat_of_nonneg hnonneg

variable (ps : List Bytes) (hps : ps.Nodup)
  (hmem : ∀ p, p ∈ ps ↔ p ∈ recs.map Receipt.providerPeerID)
  (hall : ∀ p ∈ ps, addressForPeer p = .ok (addressOf addressForPeer p))

include hmem hall in
theorem distinctPayees_iff (hps : ps.Nodup) :
    DistinctPayees addressForPeer recs ↔
      (ps.map (fun p => (addressOf addressForPeer p).val)).Nodup := by
  have hreceipt : ∀ p ∈ ps, ∃ r ∈ recs, r.providerPeerID = p :=
    fun p hp => List.mem_map.mp ((hmem p).mp hp)
  have hlisted : ∀ r ∈ recs, r.providerPeerID ∈ ps :=
    fun r hr => (hmem _).mpr (List.mem_map_of_mem hr)
  constructor
  · intro h
    refine hps.map_on (fun p hp q hq hpq => ?_)
    obtain ⟨r, hr, rfl⟩ := hreceipt p hp
    obtain ⟨r', hr', rfl⟩ := hreceipt q hq
    refine h r hr r' hr' ?_
    rw [hall _ hp, hall _ hq, Subtype.ext hpq]
  · intro h r hr r' hr' heq
    refine List.inj_on_of_nodup_map h (hlisted r hr) (hlisted r' hr') ?_
    rw [addressOf, addressOf, heq]

include hmem hall in
theorem servedTo_eq (hdistinct : DistinctPayees addressForPeer recs) (p : Bytes) (hp : p ∈ ps) :
    servedTo addressForPeer recs (addressOf addressForPeer p).val = servedBy recs p := by
  obtain ⟨r₀, hr₀, rfl⟩ := List.mem_map.mp ((hmem p).mp hp)
  unfold servedTo servedBy
  congr 1
  refine List.filter_congr (fun r hr => ?_)
  have hr' : r.providerPeerID ∈ ps := (hmem _).mpr (List.mem_map_of_mem hr)
  simp only [hall _ hr']
  rw [Bool.eq_iff_iff, decide_eq_true_eq, decide_eq_true_eq]
  constructor
  · intro h
    exact hdistinct r hr r₀ hr₀ (by rw [hall _ hr', hall _ hp, Subtype.ext h])
  · intro h
    rw [h]

include hps in
theorem entriesOf_nodup (hnodup : (ps.map (fun p => (addressOf addressForPeer p).val)).Nodup) :
    ((entriesOf addressForPeer recs ps).map Prod.fst).Nodup := by
  rw [entriesOf, List.map_map]
  refine hps.map_on (fun p hp q hq hpq => List.inj_on_of_nodup_map hnodup hp hq ?_)
  exact congrArg Subtype.val hpq

include hps in
theorem providers_total (hnodup : (ps.map (fun p => (addressOf addressForPeer p).val)).Nodup) :
    (ofEntries (entriesOf addressForPeer recs ps)).total (fun _ n => n.toNat) =
      (ps.map (fun p => (UInt64.ofInt (servedBy recs p)).toNat)).sum := by
  rw [total_ofEntries _ _ (entriesOf_nodup addressForPeer recs ps hps hnodup), entriesOf,
    List.map_map]
  rfl

include hps in
theorem providers_get (hnodup : (ps.map (fun p => (addressOf addressForPeer p).val)).Nodup)
    (addr : Address) (n : UInt64) :
    (ofEntries (entriesOf addressForPeer recs ps)).get addr = some n ↔
      (addr.val, n.toNat) ∈ (ps.map (fun p => (addressOf addressForPeer p).val)).zip
        (ps.map (fun p => (UInt64.ofInt (servedBy recs p)).toNat)) := by
  rw [get_ofEntries _ (entriesOf_nodup addressForPeer recs ps hps hnodup), entriesOf,
    List.zip_map', List.mem_map, List.mem_map]
  refine exists_congr (fun p => and_congr_right (fun _ => ?_))
  rw [Prod.mk.injEq, Prod.mk.injEq, Subtype.ext_iff, UInt64.toNat_inj]

include hps hmem in
theorem sum_toNat (hvalues : ∀ p ∈ ps, ((UInt64.ofInt (servedBy recs p)).toNat : ℤ) =
    servedBy recs p) :
    ((ps.map (fun p => (UInt64.ofInt (servedBy recs p)).toNat)).sum : ℤ) = servedBytes recs := by
  have hsum := sum_servedBy recs ps hps (fun r hr => (hmem _).mpr (List.mem_map_of_mem hr))
  rw [← hsum, ← Nat.coe_castRingHom, map_list_sum, List.map_map]
  exact congrArg List.sum (List.map_congr_left hvalues)

include hps hmem in
theorem value_of_fits (hsums : SumsFit recs) :
    ∀ p ∈ ps, ((UInt64.ofInt (servedBy recs p)).toNat : ℤ) = servedBy recs p := by
  have hnonneg : ∀ p ∈ ps, 0 ≤ servedBy recs p := by
    intro p hp
    obtain ⟨r, hr, rfl⟩ := List.mem_map.mp ((hmem p).mp hp)
    exact hsums.nonneg r hr
  have hbytes := sum_servedBy recs ps hps (fun r hr => (hmem _).mpr (List.mem_map_of_mem hr))
  intro p hp
  have hle := List.single_le_sum (l := ps.map (servedBy recs)) (by
    intro z hz
    obtain ⟨q, hq, rfl⟩ := List.mem_map.mp hz
    exact hnonneg q hq) _ (List.mem_map_of_mem hp)
  have hlt := hsums.total
  rw [toNat_ofInt, Int.emod_eq_of_lt (hnonneg p hp) (by omega)]

include hmem in
theorem fits_of_values (hvalues : ∀ p ∈ ps, ((UInt64.ofInt (servedBy recs p)).toNat : ℤ) =
    servedBy recs p) (total : UInt64) (htotal : (total.toNat : ℤ) = servedBytes recs) :
    SumsFit recs where
  nonneg := by
    intro r hr
    rw [← hvalues _ ((hmem _).mpr (List.mem_map_of_mem hr))]
    exact Int.natCast_nonneg _
  total := by
    have hlt := total.toNat_lt
    omega

end Exact

section Payouts
variable {PublicKey PrivateKey : Type} (s : Settler PublicKey PrivateKey)

/-- The views of a payout that has succeeded are exact if and only if distinct
providers have distinct addresses and the sums fit. -/
theorem payouts_exact (others : List (List (Write Bytes Bytes))) (db : Database)
    (since til : Int64) (answers : ChainAnswers) (result : Result)
    (h : (settleOnce s others db since til answers).result = .ok result) :
    (∃ call, decodeSubmitSettlement result.calldata = some call ∧ ExactPayouts s.addressForPeer
      (settleOnce s others db since til answers).recs result call) ↔
    DistinctPayees s.addressForPeer (settleOnce s others db since til answers).recs ∧
      SumsFit (settleOnce s others db since til answers).recs := by
  obtain ⟨root, rewards, ps, hps, hmem, hall, hdecode, hproviders, htotal⟩ :=
    settleOnce_views s others db since til answers result h
  generalize (settleOnce s others db since til answers).recs = recs at *
  have hpayees := distinctPayees_iff s.addressForPeer recs ps hmem hall hps
  constructor
  · rintro ⟨call, hcall, hexact⟩
    rw [hdecode, Option.some.injEq] at hcall
    subst hcall
    have hdistinct := hpayees.mpr hexact.distinct
    have hvalues : ∀ p ∈ ps, ((UInt64.ofInt (servedBy recs p)).toNat : ℤ) = servedBy recs p := by
      intro p hp
      obtain ⟨i, hi⟩ := List.getElem?_of_mem hp
      refine (hexact.sums i (addressOf s.addressForPeer p).val
        (UInt64.ofInt (servedBy recs p)).toNat ?_ ?_).trans
        (servedTo_eq s.addressForPeer recs ps hmem hall hdistinct p hp)
      · rw [List.getElem?_map, hi, Option.map_some]
      · rw [List.getElem?_map, hi, Option.map_some]
    have hsum := sum_toNat recs ps hps hmem hvalues
    have htotalSum := hexact.total
    rw [hproviders, providers_total s.addressForPeer recs ps hps hexact.distinct] at htotalSum
    rw [htotalSum] at hsum
    exact ⟨hdistinct,fits_of_values recs ps hmem hvalues result.totalBytes hsum⟩
  · rintro ⟨hdistinct, hsums⟩
    have hnodup := hpayees.mp hdistinct
    have hvalues := value_of_fits recs ps hps hmem hsums
    have hsum := sum_toNat recs ps hps hmem hvalues
    refine ⟨_, hdecode, hnodup, by simp, ?_, ?_, ?_⟩
    · intro i addr n haddr hn
      simp only [List.getElem?_map, Option.map_eq_some_iff] at haddr hn
      obtain ⟨p, hp, rfl⟩ := haddr
      obtain ⟨q, hq, rfl⟩ := hn
      rw [hp, Option.some.injEq] at hq
      subst hq
      have hp := List.mem_of_getElem? hp
      rw [servedTo_eq s.addressForPeer recs ps hmem hall hdistinct p hp]
      exact hvalues p hp
    · intro addr n
      rw [hproviders]
      exact providers_get s.addressForPeer recs ps hps hnodup addr n
    · rw [hproviders, providers_total s.addressForPeer recs ps hps hnodup]
      have hlt := hsums.total
      have hmod := toNat_ofInt (servedBytes recs)
      rw [← htotal, Int.emod_eq_of_lt (by omega) hlt] at hmod
      omega

end Payouts

section Samples

def sampleReceipts : List Receipt := [sampleServed "p" 10 5, sampleServed "q" 20 6]

def ownAddress (pid : Bytes) : Except GoError Address :=
  .ok ⟨List.replicate 19 0++[if pid = ascii "p" then 1 else 2], rfl⟩

def oneAddress (_ : Bytes) : Except GoError Address := .ok ⟨List.replicate 19 0++[1], rfl⟩

def sampleSettled (addressForPeer : Bytes → Except GoError Address) : Settled :=
  settleOnce (sampleSettler addressForPeer) [] (sampleStore sampleReceipts) 0 100
    (sampleAnswers 5 [sampleMined])

theorem payouts_exact_two : ∃ result, (sampleSettled ownAddress).result = .ok result ∧
    ∃ call, decodeSubmitSettlement result.calldata = some call ∧
      ExactPayouts ownAddress (sampleSettled ownAddress).recs result call := by
  have hrecs : (sampleSettled ownAddress).recs = sampleReceipts := by decide +kernel
  obtain ⟨result, h⟩ : ∃ result, (sampleSettled ownAddress).result = .ok result :=
    exists_ok _ (by decide +kernel)
  refine ⟨result, h, (payouts_exact (sampleSettler ownAddress) [] (sampleStore sampleReceipts) 0 100
    (sampleAnswers 5 [sampleMined]) result h).mpr ?_⟩
  change DistinctPayees ownAddress (sampleSettled ownAddress).recs ∧
    SumsFit (sampleSettled ownAddress).recs
  rw [hrecs]
  refine ⟨?_, ?_, ?_⟩
  · unfold DistinctPayees
    decide +kernel
  · decide +kernel
  · decide +kernel

/-- Two providers of one operator: the settlement succeeds and no reading of its
calldata is exact. -/
theorem one_operator_paid_twice : ∃ result, (sampleSettled oneAddress).result = .ok result ∧
    ¬ ∃ call, decodeSubmitSettlement result.calldata = some call ∧
      ExactPayouts oneAddress (sampleSettled oneAddress).recs result call := by
  obtain ⟨result, h⟩ : ∃ result, (sampleSettled oneAddress).result = .ok result :=
    exists_ok _ (by decide +kernel)
  refine ⟨result, h, ?_⟩
  rintro ⟨call, hcall, hexact⟩
  have hproviders : ((sampleSettled oneAddress).result.toOption.bind
      (fun result => decodeSubmitSettlement result.calldata)).map SettlementCall.providers =
        some (List.replicate 2 (List.replicate 19 0++[1])) := by
    decide +kernel
  rw [h] at hproviders
  simp only [Except.toOption, Option.bind_some, hcall, Option.map_some, Option.some.injEq]
    at hproviders
  have hnodup := hexact.distinct
  rw [hproviders] at hnodup
  revert hnodup
  decide

end Samples

end Aevia.Coordinator
