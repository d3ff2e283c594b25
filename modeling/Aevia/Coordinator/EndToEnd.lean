import Aevia.Contracts.PoolSteps
import Aevia.Coordinator.PayoutArrays
import Aevia.Provider.AckServer

/-!
# A settlement from the window to the pool

The calldata of a window is executed by the pool. Sums reach the contract
modulo `2^64`. Where no sum leaves its counter, a call pays every address the
floor of its exact share if something was served and the contract's checked
arithmetic fits.
-/

set_option autoImplicit false

namespace Aevia.Coordinator
open Aevia.Bytes Aevia.Evm Aevia.Fallible Aevia.GoError Aevia.KeyValue Aevia.Por Aevia.Run
open Aevia.Storage

section Calldata
variable {PublicKey PrivateKey : Type} (s : Settler PublicKey PrivateKey)

def windowCalldata (recs : List Receipt) : Except GoError Bytes := do
  let settlement ← context "settle: build settlement: %w" (buildSettlement s.lib recs)
  let addrs ← resolveProviders s.addressForPeer settlement.providers
  context "settle: encode calldata: %w" (encodeSubmitSettlement (copyRoot settlement.merkleRoot)
    addrs settlement.perProviderBytes s.cfg.totalRewards)

theorem assemble_calldata (recs : List Receipt) (answers : ChainAnswers) (p : Payout)
    (h : assemble s recs answers = .ok p) : windowCalldata s recs = .ok p.tx.data ∧
      p.tx.recipient = s.cfg.poolAddress := by
  unfold assemble at h
  simp only [bind_ok, context_ok, Except.ok.injEq] at h
  obtain ⟨settlement, hsettlement, addrs, haddrs, calldata, hcalldata, nonce, -, tip, -, baseFee, -,
    tx, htx, rfl⟩ := h
  obtain ⟨hdata, hrecipient⟩ := signTx_ok _ _ _ htx
  refine ⟨?_, hrecipient⟩
  simp only [windowCalldata, bind_ok, context_ok]
  exact ⟨settlement,hsettlement,addrs,haddrs,hdata ▸ hcalldata⟩

theorem sent_calldata (others : List (List (Write Bytes Bytes))) (db : Database)
    (since til : Int64) (recs : List Receipt)
    (hwindow : (windowForAllProviders others db since til).1 = .ok recs) (answers : ChainAnswers)
    (tx : Transaction) (h : (settleOnce s others db since til answers).sent = some tx) :
    windowCalldata s recs = .ok tx.data ∧ tx.recipient = s.cfg.poolAddress := by
  rcases settleOnce_cases s others db since til answers with
    ⟨e, hcall⟩ | ⟨recs', hrecs, ⟨-, hcall⟩ | ⟨-, ⟨e, -, hcall⟩ | ⟨p, hp, hcall⟩⟩⟩
  · rw [hcall] at h
    cases h
  · rw [hcall] at h
    cases h
  · rw [hcall] at h
    cases h
  · rw [hwindow] at hrecs
    cases hrecs
    rw [hcall] at h
    cases h
    exact assemble_calldata s recs answers p hp

end Calldata

section Execution
variable {T : StandardToken}

def evmAddress (b : Bytes) : Evm.Address := BitVec.ofNat 160 (ofBigEndian b)

theorem evmAddress_inj (a b : Por.Address) (h : evmAddress a.val = evmAddress b.val) : a = b := by
  have hlt : ∀ a : Por.Address, ofBigEndian a.val < 2^160 := by
    intro a
    have hbound := ofBigEndian_lt a.val
    rwa [a.property, show 256^20 = 2^160 by norm_num] at hbound
  have hvalue := congrArg BitVec.toNat h
  rw [evmAddress, evmAddress, BitVec.toNat_ofNat, BitVec.toNat_ofNat, Nat.mod_eq_of_lt (hlt a),
    Nat.mod_eq_of_lt (hlt b)] at hvalue
  exact Subtype.ext (ofBigEndian_inj _ _ (by rw [a.property, b.property]) hvalue)

theorem addresses_length (addrs : List Por.Address) (h : addrs.Nodup) :
    addrs.length ≤ 2^160 := by
  have hnodup : (addrs.map (fun a => evmAddress a.val)).Nodup :=
    h.map_on (fun a _ b _ hab => evmAddress_inj a b hab)
  have hcard := (hnodup.map BitVec.toFin_injective).length_le_card
  rwa [List.length_map, List.length_map, Fintype.card_fin] at hcard

/-- A call of the pool. The decoder's own reverts carry no error. -/
def executeCalldata (pool : PersistencePool.Pool T) (sender : Evm.Address) (timestamp : ℕ)
    (calldata : Bytes) : Except (Option PersistencePool.Revert)
      (PersistencePool.SettlementId × PersistencePool.Pool T) :=
  match decodeSubmitSettlement calldata with
  | none => .error none
  | some call => (PersistencePool.submitSettlement pool sender timestamp
      (BitVec.ofNat 256 (ofBigEndian call.merkleRoot)) (call.providers.map evmAddress)
      call.bytesServed call.totalRewards).mapError some

theorem executeCalldata_ok (pool : PersistencePool.Pool T) (sender : Evm.Address) (timestamp : ℕ)
    (calldata : Bytes) (call : SettlementCall) (hcall : decodeSubmitSettlement calldata = some call)
    (outcome : PersistencePool.SettlementId × PersistencePool.Pool T) :
    executeCalldata pool sender timestamp calldata = .ok outcome ↔
      PersistencePool.submitSettlement pool sender timestamp
        (BitVec.ofNat 256 (ofBigEndian call.merkleRoot)) (call.providers.map evmAddress)
        call.bytesServed call.totalRewards = .ok outcome := by
  rw [executeCalldata, hcall]
  dsimp only
  cases PersistencePool.submitSettlement pool sender timestamp
    (BitVec.ofNat 256 (ofBigEndian call.merkleRoot)) (call.providers.map evmAddress)
    call.bytesServed call.totalRewards <;> simp [Except.mapError]

end Execution

section Shares

def residue (recs : List Receipt) (p : Bytes) : ℕ := (servedBy recs p%2^64).toNat

def residues (recs : List Receipt) : ℕ :=
  ((recs.map Receipt.providerPeerID).dedup.map (residue recs)).sum

/-- Every provider's exact sum fits its counter. -/
def SumsExact (recs : List Receipt) : Prop :=
  ∀ r ∈ recs, 0 ≤ servedBy recs r.providerPeerID ∧ servedBy recs r.providerPeerID < 2^64

theorem residue_eq (recs : List Receipt) (p : Bytes) :
    residue recs p = (UInt64.ofInt (servedBy recs p)).toNat := by
  rw [residue, ← toNat_ofInt, Int.toNat_natCast]

theorem residue_lt (recs : List Receipt) (p : Bytes) : residue recs p < 2^64 := by
  rw [residue_eq]
  exact UInt64.toNat_lt _

theorem residues_eq (recs : List Receipt) (ps : List Bytes) (hps : ps.Nodup)
    (hmem : ∀ p, p ∈ ps ↔ p ∈ recs.map Receipt.providerPeerID) :
    (ps.map (residue recs)).sum = residues recs := by
  have hperm : ps.Perm (recs.map Receipt.providerPeerID).dedup := by
    apply (List.perm_ext_iff_of_nodup hps (List.nodup_dedup _)).mpr
    intro p
    rw [hmem, List.mem_dedup]
  exact (hperm.map _).sum_eq

theorem residues_ne_zero (recs : List Receipt) :
    residues recs ≠ 0 ↔ ∃ r ∈ recs, residue recs r.providerPeerID ≠ 0 := by
  rw [residues, Ne, List.sum_eq_zero_iff]
  simp

theorem residue_exact (recs : List Receipt) (h : SumsExact recs) (r : Receipt) (hr : r ∈ recs) :
    (residue recs r.providerPeerID : ℤ) = servedBy recs r.providerPeerID := by
  obtain ⟨hnonneg, hlt⟩ := h r hr
  rw [residue, Int.emod_eq_of_lt hnonneg hlt, Int.toNat_of_nonneg hnonneg]

theorem residues_exact (recs : List Receipt) (h : SumsExact recs) :
    (residues recs : ℤ) = servedBytes recs := by
  rw [← sum_servedBy recs _ (List.nodup_dedup (recs.map Receipt.providerPeerID))
    (fun r hr => List.mem_dedup.mpr (List.mem_map_of_mem hr)), residues, ← Nat.coe_castRingHom,
    map_list_sum, List.map_map]
  refine congrArg List.sum (List.map_congr_left (fun p hp => ?_))
  obtain ⟨r, hr, rfl⟩ := List.mem_map.mp (List.mem_dedup.mp hp)
  exact residue_exact recs h r hr

end Shares

section Window
variable {PublicKey PrivateKey : Type} (s : Settler PublicKey PrivateKey)

/-- Signed and distinct receipts whose providers have addresses of their own. -/
structure Settleable (recs : List Receipt) : Prop where
  nonempty : recs ≠ []
  verified : ∀ r ∈ recs, r.verifyBoth s.lib = .ok ()
  distinct : recs.Pairwise (fun r r' => ¬ (r.providerPeerID = r'.providerPeerID ∧
    r.timestampUnix = r'.timestampUnix ∧ r.nonce = r'.nonce))
  resolved : ∀ r ∈ recs, ∃ addr, s.addressForPeer r.providerPeerID = .ok addr ∧ addr ≠ zeroAddress
  payees : DistinctPayees s.addressForPeer recs

theorem resolveProviders_resolved (addressForPeer : Bytes → Except GoError Por.Address)
    (pids : List Bytes)
    (h : ∀ pid ∈ pids, ∃ addr, addressForPeer pid = .ok addr ∧ addr ≠ zeroAddress) :
    resolveProviders addressForPeer pids = .ok (pids.map (addressOf addressForPeer)) := by
  induction pids with
  | nil => rfl
  | cons pid pids ih =>
    rw [List.forall_mem_cons] at h
    obtain ⟨⟨addr, haddr, hnonzero⟩, hrest⟩ := h
    rw [resolveProviders, haddr]
    dsimp only
    rw [if_neg hnonzero, ih hrest, List.map_cons, addressOf, haddr]
    rfl

variable {s} {recs : List Receipt}

theorem Settleable.address (h : Settleable s recs) (ps : List Bytes)
    (hmem : ∀ p, p ∈ ps ↔ p ∈ recs.map Receipt.providerPeerID) (p : Bytes) (hp : p ∈ ps) :
    s.addressForPeer p = .ok (addressOf s.addressForPeer p) ∧
      addressOf s.addressForPeer p ≠ zeroAddress := by
  obtain ⟨r, hr, rfl⟩ := List.mem_map.mp ((hmem p).mp hp)
  obtain ⟨addr, haddr, hnonzero⟩ := h.resolved r hr
  have haddress : addressOf s.addressForPeer r.providerPeerID = addr := by rw [addressOf, haddr]
  exact ⟨by rw [haddress, haddr],by rwa [haddress]⟩

theorem Settleable.addresses_nodup (h : Settleable s recs) (ps : List Bytes) (hps : ps.Nodup)
    (hmem : ∀ p, p ∈ ps ↔ p ∈ recs.map Receipt.providerPeerID) :
    (ps.map (addressOf s.addressForPeer)).Nodup := by
  have hvals := (distinctPayees_iff s.addressForPeer recs ps hmem
    (fun p hp => (h.address ps hmem p hp).1) hps).mp h.payees
  apply List.Nodup.of_map Subtype.val
  rwa [List.map_map]

theorem windowCalldata_ok (h : Settleable s recs) (R : ℤ) (hR : s.cfg.totalRewards = some R)
    (hnonneg : 0 ≤ R) (hword : R < 2^256) : ∃ (calldata root : Bytes) (ps : List Bytes),
      windowCalldata s recs = .ok calldata ∧ ps.Nodup ∧
      (∀ p, p ∈ ps ↔ p ∈ recs.map Receipt.providerPeerID) ∧
      decodeSubmitSettlement calldata =
        some ⟨root, ps.map (fun p => (addressOf s.addressForPeer p).val), ps.map (residue recs),
          R.toNat⟩ := by
  obtain ⟨t, ht⟩ := buildSettlement_of_distinct s.lib recs h.nonempty h.verified h.distinct
  obtain ⟨hps, hmem, hbytes, -⟩ := buildSettlement_sums s.lib recs t ht
  have hresolve := resolveProviders_resolved s.addressForPeer t.providers (fun p hp =>
    ⟨_,h.address t.providers hmem p hp⟩)
  have hnodup := h.addresses_nodup t.providers hps hmem
  obtain ⟨calldata, hencode⟩ := encodeSubmitSettlement_fits (copyRoot t.merkleRoot)
    (t.providers.map (addressOf s.addressForPeer)) t.perProviderBytes R
    (by rw [hbytes, List.length_map, List.length_map]) hnonneg hword (addresses_length _ hnodup)
  obtain ⟨rewards, hrewards, hdecode⟩ := decodeSubmitSettlement_encode _ _ _ _ _
    (copyRoot_length _) hencode
  cases hrewards
  refine ⟨calldata, copyRoot t.merkleRoot, t.providers, ?_, hps, hmem, ?_⟩
  · simp only [windowCalldata, bind_ok, context_ok]
    rw [← hR] at hencode
    exact ⟨t,ht,_,hresolve,hencode⟩
  · have hresidue : t.perProviderBytes.map UInt64.toNat = t.providers.map (residue recs) := by
      rw [hbytes, List.map_map]
      exact List.map_congr_left (fun p _ => (residue_eq recs p).symm)
    rw [hdecode, hresidue, List.map_map]
    rfl

end Window

section Payment
variable {T : StandardToken} (addressForPeer : Bytes → Except GoError Por.Address)
  (recs : List Receipt)

def payee (p : Bytes) : Evm.Address := evmAddress (addressOf addressForPeer p).val

/-- The call has gone through, and every address may claim the floor of its exact share. -/
def PaysShares (R : ℤ) (outcome : Except (Option PersistencePool.Revert)
    (PersistencePool.SettlementId × PersistencePool.Pool T)) : Prop :=
  ∃ id pool, outcome = .ok (id, pool) ∧ servedBytes recs ≠ 0 ∧ ∀ r ∈ recs,
    (pool.allocations id (payee addressForPeer r.providerPeerID) : ℤ) =
      (R*servedTo addressForPeer recs (addressOf addressForPeer r.providerPeerID).val).fdiv
        (servedBytes recs)

/-- Something was served, and the products and counters of the contract fit its words. -/
structure Payable (R : ℤ) (pool : PersistencePool.Pool T) : Prop where
  served : ∃ r ∈ recs, servedBy recs r.providerPeerID ≠ 0
  products : ∀ r ∈ recs, R*servedBy recs r.providerPeerID < wordBound
  counters : ∀ r ∈ recs, pool.cumulativeBytesServed (payee addressForPeer r.providerPeerID)+
    servedBy recs r.providerPeerID < wordBound

variable {addressForPeer recs} (ps : List Bytes) (hps : ps.Nodup)
  (hmem : ∀ p, p ∈ ps ↔ p ∈ recs.map Receipt.providerPeerID)

include hmem in
theorem forall_providers (P : Bytes → Prop) : (∀ p ∈ ps, P p) ↔ ∀ r ∈ recs, P r.providerPeerID := by
  constructor
  · intro h r hr
    exact h _ ((hmem _).mpr (List.mem_map_of_mem hr))
  · intro h p hp
    obtain ⟨r, hr, rfl⟩ := List.mem_map.mp ((hmem p).mp hp)
    exact h r hr

variable (haddress : ∀ p ∈ ps, addressForPeer p = .ok (addressOf addressForPeer p) ∧
    addressOf addressForPeer p ≠ zeroAddress)
  (hnodup : (ps.map (addressOf addressForPeer)).Nodup) (pool : PersistencePool.Pool T)
  (timestamp : ℕ) (calldata root : Bytes) (R : ℕ)
  (hdecode : Por.decodeSubmitSettlement calldata = some ⟨root,
    ps.map (fun p => (addressOf addressForPeer p).val), ps.map (residue recs), R⟩)

include hnodup in
theorem payees_nodup : (ps.map (payee addressForPeer)).Nodup := by
  have hmap : ps.map (payee addressForPeer) =
      (ps.map (addressOf addressForPeer)).map (fun a => evmAddress a.val) := by
    rw [List.map_map]
    rfl
  rw [hmap]
  exact hnodup.map_on (fun a _ b _ hab => evmAddress_inj a b hab)

include hdecode in
theorem executeCalldata_payees (outcome : PersistencePool.SettlementId × PersistencePool.Pool T) :
    executeCalldata pool pool.coordinator timestamp calldata = .ok outcome ↔
      PersistencePool.submitSettlement pool pool.coordinator timestamp
        (BitVec.ofNat 256 (ofBigEndian root)) (ps.map (payee addressForPeer))
        (ps.map (residue recs)) R = .ok outcome := by
  have hcall := executeCalldata_ok pool pool.coordinator timestamp calldata _ hdecode outcome
  rw [List.map_map] at hcall
  exact hcall

include hps hmem haddress hnodup hdecode in
theorem executeCalldata_accepts (hne : recs ≠ []) (hR : R ≠ 0) (hfunds : R ≤ pool.poolBalance) :
    (∃ outcome, executeCalldata pool pool.coordinator timestamp calldata = .ok outcome) ↔
      residues recs ≠ 0 ∧ ∀ r ∈ recs, R*residue recs r.providerPeerID < wordBound ∧
        pool.cumulativeBytesServed (payee addressForPeer r.providerPeerID)+
          residue recs r.providerPeerID < wordBound := by
  have hresidues := residues_eq recs ps hps hmem
  have hnonempty : ps.map (payee addressForPeer) ≠ [] := by
    obtain ⟨r, hr⟩ := List.exists_mem_of_ne_nil recs hne
    exact List.ne_nil_of_mem (List.mem_map_of_mem ((hmem _).mpr (List.mem_map_of_mem hr)))
  have hnonzero : ∀ a ∈ ps.map (payee addressForPeer), a ≠ 0 := by
    intro a ha hzero
    obtain ⟨p, hp, rfl⟩ := List.mem_map.mp ha
    exact (haddress p hp).2 (evmAddress_inj _ zeroAddress (hzero.trans (by decide)))
  have hlength : ps.length ≤ 2^160 := by
    have hbound := addresses_length _ hnodup
    rwa [List.length_map] at hbound
  have hsum : (ps.map (residue recs)).sum < wordBound := by
    have hle := List.sum_le_card_nsmul (ps.map (residue recs)) (2^64) (by
      intro n hn
      obtain ⟨p, -, rfl⟩ := List.mem_map.mp hn
      exact (residue_lt recs p).le)
    rw [List.length_map, nsmul_eq_mul, Nat.cast_id] at hle
    rw [wordBound]
    omega
  have haccepts := PersistencePool.submitSettlement_accepts pool timestamp
    (BitVec.ofNat 256 (ofBigEndian root)) (ps.map (payee addressForPeer)) (ps.map (residue recs)) R
    hnonempty (by rw [List.length_map, List.length_map]) hR hfunds hnonzero
    (payees_nodup ps hnodup) hsum
  rw [List.zip_map', List.forall_mem_map, hresidues, forall_providers ps hmem] at haccepts
  rw [← haccepts]
  simp only [executeCalldata_payees ps pool timestamp calldata root R hdecode, Prod.exists]

include hps hmem hnodup hdecode in
theorem executeCalldata_allocations (id : PersistencePool.SettlementId)
    (pool' : PersistencePool.Pool T)
    (h : executeCalldata pool pool.coordinator timestamp calldata = .ok (id, pool')) :
    ∀ r ∈ recs, pool'.allocations id (payee addressForPeer r.providerPeerID) =
      R*residue recs r.providerPeerID/residues recs := by
  rw [executeCalldata_payees ps pool timestamp calldata root R hdecode] at h
  have hall := PersistencePool.submitSettlement_allocations _ _ _ _ _ _ _ _ _
    (payees_nodup ps hnodup) h
  rw [List.zip_map', List.forall_mem_map, residues_eq recs ps hps hmem,
    forall_providers ps hmem] at hall
  exact hall

theorem payable_iff (hexact : SumsExact recs) : Payable addressForPeer recs R pool ↔
    residues recs ≠ 0 ∧ ∀ r ∈ recs, R*residue recs r.providerPeerID < wordBound ∧
      pool.cumulativeBytesServed (payee addressForPeer r.providerPeerID)+
        residue recs r.providerPeerID < wordBound := by
  have hvalue := residue_exact recs hexact
  rw [residues_ne_zero]
  constructor
  · rintro ⟨⟨r, hr, hserved⟩, hproducts, hcounters⟩
    refine ⟨⟨r, hr, fun hzero => hserved ?_⟩, fun r hr => ⟨?_, ?_⟩⟩
    · rw [← hvalue r hr, hzero]
      rfl
    · have hproduct := hproducts r hr
      rw [← hvalue r hr] at hproduct
      exact_mod_cast hproduct
    · have hcounter := hcounters r hr
      rw [← hvalue r hr] at hcounter
      exact_mod_cast hcounter
  · rintro ⟨⟨r, hr, hserved⟩, hfits⟩
    refine ⟨⟨r, hr, ?_⟩, fun r hr => ?_, fun r hr => ?_⟩
    · rw [← hvalue r hr]
      exact_mod_cast hserved
    · rw [← hvalue r hr]
      exact_mod_cast (hfits r hr).1
    · rw [← hvalue r hr]
      exact_mod_cast (hfits r hr).2

include hps hmem haddress hnodup hdecode in
theorem paysShares_iff (hpayees : DistinctPayees addressForPeer recs) (hne : recs ≠ [])
    (hR : R ≠ 0) (hfunds : R ≤ pool.poolBalance) (hexact : SumsExact recs) :
    PaysShares addressForPeer recs R (executeCalldata pool pool.coordinator timestamp calldata) ↔
      Payable addressForPeer recs R pool := by
  have haccepts := executeCalldata_accepts ps hps hmem haddress hnodup pool timestamp calldata root R
    hdecode hne hR hfunds
  rw [payable_iff pool R hexact, ← haccepts]
  constructor
  · rintro ⟨id, pool', hok, -⟩
    exact ⟨_,hok⟩
  · rintro ⟨⟨id, pool'⟩, hok⟩
    have hallocations := executeCalldata_allocations ps hps hmem hnodup pool timestamp calldata root R
      hdecode id pool' hok
    have htotal := residues_exact recs hexact
    have hserved : servedBytes recs ≠ 0 := by
      rw [← htotal]
      exact_mod_cast (haccepts.mp ⟨_,hok⟩).1
    refine ⟨id, pool', hok, hserved, fun r hr => ?_⟩
    have hshare : servedTo addressForPeer recs (addressOf addressForPeer r.providerPeerID).val =
        servedBy recs r.providerPeerID :=
      servedTo_eq addressForPeer recs ps hmem (fun p hp => (haddress p hp).1) hpayees _
        ((hmem _).mpr (List.mem_map_of_mem hr))
    rw [hshare, hallocations r hr, ← htotal, ← residue_exact recs hexact r hr,
      Int.fdiv_eq_ediv_of_nonneg _ (Int.natCast_nonneg _)]
    push_cast
    rfl

end Payment

section Settlements
variable {PublicKey PrivateKey : Type} {T : StandardToken}

/-- For every window of signed and distinct receipts whose providers have
addresses of their own: the calldata is built, it is what is sent, and where no
sum leaves its counter the pool pays the exact shares for it if and only if
something was served and the contract's arithmetic fits. -/
theorem settlement_pays_shares (lib : Libp2p PublicKey PrivateKey) (wallet : Wallet)
    (addressForPeer : Bytes → Except GoError Por.Address) (cfg : Config)
    (s : Settler PublicKey PrivateKey) (hnew : newSettler lib wallet addressForPeer cfg = .ok s)
    (R : ℤ) (hR : s.cfg.totalRewards = some R) (others : List (List (Write Bytes Bytes)))
    (db : Database) (since til : Int64) (recs : List Receipt)
    (hwindow : (windowForAllProviders others db since til).1 = .ok recs) (h : Settleable s recs)
    (pool : PersistencePool.Pool T) (hfunds : R ≤ pool.poolBalance)
    (hword : pool.poolBalance < wordBound) (timestamp : ℕ) :
    ∃ calldata, windowCalldata s recs = .ok calldata ∧
      (∀ answers tx, (settleOnce s others db since til answers).sent = some tx →
        tx.data = calldata ∧ tx.recipient = s.cfg.poolAddress) ∧
      (SumsExact recs → (PaysShares s.addressForPeer recs R
        (executeCalldata pool pool.coordinator timestamp calldata) ↔
          Payable s.addressForPeer recs R pool)) := by
  have hpos := newSettler_rewards lib wallet addressForPeer cfg s hnew R hR
  rw [wordBound] at hword
  obtain ⟨calldata, root, ps, hcalldata, hps, hmem, hdecode⟩ :=
    windowCalldata_ok h R hR hpos.le (by omega)
  refine ⟨calldata, hcalldata, fun answers tx hsent => ?_, fun hexact => ?_⟩
  · obtain ⟨hdata, hrecipient⟩ := sent_calldata s others db since til recs hwindow answers tx hsent
    rw [hcalldata] at hdata
    exact ⟨(Except.ok.inj hdata).symm,hrecipient⟩
  · obtain ⟨n, rfl⟩ := Int.eq_ofNat_of_zero_le hpos.le
    exact paysShares_iff ps hps hmem (fun p hp => h.address ps hmem p hp)
      (h.addresses_nodup ps hps hmem) pool timestamp calldata root n hdecode h.payees h.nonempty
      (by omega) (by omega) hexact

end Settlements

section Samples

def fundedPool : PersistencePool.Pool ledgerToken :=
  { PersistencePool.samplePool with
    token := ⟨fun a => if a = 0x100 then 1000 else 0, fun _ _ => 0⟩ }

theorem ownAddress_nonzero (pid : Bytes) :
    ∃ addr, ownAddress pid = .ok addr ∧ addr ≠ zeroAddress := by
  refine ⟨_, rfl, fun hzero => ?_⟩
  have hval := congrArg Subtype.val hzero
  by_cases hp : pid = ascii "p"
  · simp [hp, zeroAddress] at hval
  · simp [hp, zeroAddress] at hval

theorem settlement_pays_shares_two : ∃ calldata,
    windowCalldata (sampleSettler ownAddress) sampleReceipts = .ok calldata ∧
      PaysShares ownAddress sampleReceipts 1000 (executeCalldata fundedPool 1 0 calldata) := by
  have hsettleable : Settleable (sampleSettler ownAddress) sampleReceipts := by
    refine ⟨by decide, by decide +kernel, by decide +kernel, ?_, ?_⟩
    · exact fun r _ => ownAddress_nonzero r.providerPeerID
    · unfold DistinctPayees
      decide +kernel
  obtain ⟨calldata, hcalldata, -, hpays⟩ := settlement_pays_shares sampleLib sampleWallet ownAddress
    (sampleSettler ownAddress).cfg (sampleSettler ownAddress) rfl 1000 rfl []
    (sampleStore sampleReceipts) 0 100 sampleReceipts (by decide +kernel) hsettleable fundedPool
    (by decide) (by decide) 0
  have hexact : SumsExact sampleReceipts := by
    unfold SumsExact
    decide +kernel
  refine ⟨calldata, hcalldata, (hpays hexact).mpr ⟨?_, ?_, ?_⟩⟩
  · decide +kernel
  · decide +kernel
  · decide +kernel

def wrappingWindow : List Receipt :=
  [sampleServed "p" 9223372036854775807 5, sampleServed "p" 9223372036854775807 6,
    sampleServed "p" 2 7]

def wrappingNode : Node :=
  run (serve sampleLib sampleServer) start (wrappingWindow.map (fun r =>
    ⟨(receiptJson { r with providerSig := [] }).print, [], none⟩))

/-- The receipts are acknowledged and listed, their sizes are positive, and the
settlement of their window reverts for want of bytes. -/
theorem wrapped_window_reverts :
    wrappingNode.acked = wrappingWindow ∧
    (windowForAllProviders [] wrappingNode.store 0 100).1 = .ok wrappingWindow ∧
    Settleable (sampleSettler ownAddress) wrappingWindow ∧ servedBytes wrappingWindow = 2^64 ∧
    (1000 ≤ fundedPool.poolBalance ∧ fundedPool.coordinator = 1) ∧
    ∃ calldata, windowCalldata (sampleSettler ownAddress) wrappingWindow = .ok calldata ∧
      executeCalldata fundedPool 1 0 calldata = .error (some .zeroTotalBytes) ∧
      ¬ PaysShares ownAddress wrappingWindow 1000 (executeCalldata fundedPool 1 0 calldata) := by
  have hsettleable : Settleable (sampleSettler ownAddress) wrappingWindow := by
    refine ⟨by decide, by decide +kernel, by decide +kernel, ?_, ?_⟩
    · exact fun r _ => ownAddress_nonzero r.providerPeerID
    · unfold DistinctPayees
      decide +kernel
  obtain ⟨calldata, hcalldata⟩ : ∃ calldata,
      windowCalldata (sampleSettler ownAddress) wrappingWindow = .ok calldata :=
    exists_ok _ (by decide +kernel)
  have hread : ((windowCalldata (sampleSettler ownAddress) wrappingWindow).toOption.bind
      decodeSubmitSettlement).map (fun call => (call.providers, call.bytesServed, call.totalRewards)) =
        some ([List.replicate 19 0++[1]], [0], 1000) := by
    decide +kernel
  rw [hcalldata, Except.toOption, Option.bind_some, Option.map_eq_some_iff] at hread
  obtain ⟨⟨root, providers, bytesServed, rewards⟩, hdecode, hcall⟩ := hread
  cases hcall
  have hreverts : executeCalldata fundedPool 1 0 calldata = .error (some .zeroTotalBytes) := by
    rw [executeCalldata, hdecode]
    rfl
  refine ⟨by decide +kernel, by decide +kernel, hsettleable, by decide +kernel, by decide, calldata,
    hcalldata, hreverts, ?_⟩
  rw [hreverts]
  rintro ⟨id, pool, hok, -⟩
  cases hok

end Samples

end Aevia.Coordinator
