import Aevia.Coordinator.Chain
import Aevia.Provider.ReceiptStore
import Aevia.Provider.Settlement

/-!
# Settlement of a window

Read the receipts of a window, aggregate them, resolve providers to payout
addresses, encode the call, sign it, send it, wait for it. A transaction may be
on its way when the call returns an error.
-/

set_option autoImplicit false

namespace Aevia.Coordinator
open Aevia.Abi Aevia.Bytes Aevia.Fallible Aevia.GoError Aevia.KeyValue Aevia.Por Aevia.Sha256
open Aevia.Storage

structure Config where
  poolAddress : Address
  gasLimit : UInt64
  timeout : Int64
  totalRewards : Option ℤ

structure Settler (PublicKey PrivateKey : Type) where
  lib : Libp2p PublicKey PrivateKey
  wallet : Wallet
  addressForPeer : Bytes → Except GoError Address
  cfg : Config

section Reader

/-- Bounds that are not positive are off. -/
def inWindow (since til : Int64) (r : Receipt) : Bool :=
  !(decide (0 < since) && decide (r.timestampUnix < since)) &&
    !(decide (0 < til) && decide (til ≤ r.timestampUnix))

def windowOf (since til : Int64) (all : List Receipt) : List Receipt :=
  if since = 0 ∧ til = 0 then all else all.filter (inWindow since til)

/-- `WindowForAllProviders`, with what others put while the store is read. -/
def windowForAllProviders (others : List (List (Write Bytes Bytes))) (db : Database)
    (since til : Int64) : Except GoError (List Receipt) × Database :=
  match listAmid others db with
  | (.error e, db) => (.error e, db)
  | (.ok all, db) => (.ok (windowOf since til all), db)

theorem mem_windowOf (since til : Int64) (all : List Receipt) (r : Receipt) :
    r ∈ windowOf since til all ↔ r ∈ all ∧ (0 < since → since ≤ r.timestampUnix) ∧
      (0 < til → r.timestampUnix < til) := by
  unfold windowOf
  split_ifs with h
  · obtain ⟨rfl, rfl⟩ := h
    have hzero : ¬ (0 : Int64) < 0 := by decide
    simp [hzero]
  · rw [List.mem_filter]
    refine and_congr_right (fun _ => ?_)
    rw [inWindow, Bool.and_eq_true]
    refine and_congr ?_ ?_
    · by_cases hsince : 0 < since <;> simp [hsince, Int64.not_lt]
    · by_cases htil : 0 < til <;> simp [htil, Int64.not_le]

end Reader

section Settle
variable {PublicKey PrivateKey : Type}

def defaultGasLimit : UInt64 := 500000
def defaultTimeout : Int64 := 30000000000

/-- `New`: the defaults of the configuration. -/
def newSettler (lib : Libp2p PublicKey PrivateKey) (wallet : Wallet)
    (addressForPeer : Bytes → Except GoError Address) (cfg : Config) :
    Except GoError (Settler PublicKey PrivateKey) :=
  if cfg.poolAddress = zeroAddress then .error (.new "settle: pool address is zero")
  else match cfg.totalRewards with
  | none => .error (.new "settle: TotalRewards must be positive")
  | some totalRewards =>
    if totalRewards ≤ 0 then .error (.new "settle: TotalRewards must be positive")
    else .ok ⟨lib, wallet, addressForPeer, { cfg with
      gasLimit := if cfg.gasLimit = 0 then defaultGasLimit else cfg.gasLimit
      timeout := if cfg.timeout ≤ 0 then defaultTimeout else cfg.timeout }⟩

theorem newSettler_rewards (lib : Libp2p PublicKey PrivateKey) (wallet : Wallet)
    (addressForPeer : Bytes → Except GoError Address) (cfg : Config)
    (s : Settler PublicKey PrivateKey) (h : newSettler lib wallet addressForPeer cfg = .ok s)
    (R : ℤ) (hR : s.cfg.totalRewards = some R) : 0 < R := by
  unfold newSettler at h
  rw [guard_ok] at h
  obtain ⟨-, h⟩ := h
  split at h
  · cases h
  · rename_i totalRewards hrewards
    rw [guard_ok] at h
    obtain ⟨hpositive, h⟩ := h
    cases h
    rw [hrewards, Option.some.injEq] at hR
    omega

structure Result where
  receiptCount : ℕ
  providers : Map Address UInt64
  totalBytes : UInt64
  merkleRoot : Bytes
  txHash : Bytes
  blockNumber : UInt64
  gasUsed : UInt64
  calldata : Bytes

def errNoReceipts : GoError := .new "settle: no receipts in window"

/-- The resolver loop; the addresses stand in the order of the providers. -/
def resolveProviders (addressForPeer : Bytes → Except GoError Address) :
    List Bytes → Except GoError (List Address)
  | [] => .ok []
  | pid::pids =>
    match addressForPeer pid with
    | .error e => .error (.wrap "settle: resolve peer %s: %w" [.text pid] e)
    | .ok addr =>
      if addr = zeroAddress then
        .error (.errorf "settle: resolver returned zero address for peer %s" [.text pid])
      else (resolveProviders addressForPeer pids).map (fun addrs => addr::addrs)

def copyRoot (merkleRoot : Bytes) : Bytes := (merkleRoot++List.replicate 32 0).take 32

/-- Everything up to the signed transaction. -/
structure Payout where
  settlement : Settlement
  addrs : List Address
  root : Bytes
  calldata : Bytes
  tx : Transaction

variable (s : Settler PublicKey PrivateKey)

def assemble (recs : List Receipt) (answers : ChainAnswers) : Except GoError Payout := do
  let settlement ← context "settle: build settlement: %w" (buildSettlement s.lib recs)
  let addrs ← resolveProviders s.addressForPeer settlement.providers
  let root := copyRoot settlement.merkleRoot
  let calldata ← context "settle: encode calldata: %w"
    (encodeSubmitSettlement root addrs settlement.perProviderBytes s.cfg.totalRewards)
  let nonce ← context "settle: nonce: %w" answers.nonce
  let tip ← context "settle: suggest tip: %w" answers.tip
  let baseFee ← context "settle: base fee: %w" answers.baseFee
  let (maxFee, priority) := effectiveFees baseFee tip
  let tx ← context "settle: sign tx: %w" (signTx s.wallet {
    nonce := nonce
    recipient := s.cfg.poolAddress
    value := none
    data := calldata
    gasLimit := s.cfg.gasLimit
    maxFee := some maxFee
    priority := some priority })
  .ok ⟨settlement, addrs, root, calldata, tx⟩

/-- A later entry for an address replaces an earlier one. -/
def providerMap (addrs : List Address) (bytesServed : List UInt64) : Map Address UInt64 :=
  ofEntries (addrs.zip bytesServed)

def broadcast (p : Payout) (answers : ChainAnswers) :
    Except GoError Result :=
  match answers.sendError with
  | some e => .error (.wrap "settle: send tx: %w" [] e)
  | none => match waitMined (s.wallet.hash p.tx) s.cfg.timeout answers.polls with
    | .error e => .error (.wrap "settle: wait mined: %w" [] e)
    | .ok receipt =>
      if receipt.status ≠ 1 then
        .error (.errorf "settle: tx %s reverted" [.text (s.wallet.hash p.tx)])
      else .ok {
        receiptCount := p.settlement.receiptCount
        providers := providerMap p.addrs p.settlement.perProviderBytes
        totalBytes := p.settlement.totalBytes
        merkleRoot := p.root
        txHash := s.wallet.hash p.tx
        blockNumber := UInt64.ofInt receipt.blockNumber
        gasUsed := receipt.gasUsed
        calldata := p.calldata }

/-- What a call does: its result, the receipts of its window, the transaction it
has handed to the chain, and the store it leaves. -/
structure Settled where
  result : Except GoError Result
  recs : List Receipt
  sent : Option Transaction
  store : Database

def settleOnce (others : List (List (Write Bytes Bytes))) (db : Database) (since til : Int64)
    (answers : ChainAnswers) : Settled :=
  match windowForAllProviders others db since til with
  | (.error e, db) => ⟨.error (.wrap "settle: read window: %w" [] e), [], none, db⟩
  | (.ok recs, db) =>
    if recs.length = 0 then ⟨.error errNoReceipts, recs, none, db⟩
    else match assemble s recs answers with
    | .error e => ⟨.error e, recs, none, db⟩
    | .ok p => ⟨broadcast s p answers, recs, some p.tx, db⟩

/-- Where a call ends: the store cannot be read, the window is empty, the
transaction cannot be made, or it has been handed to the chain. -/
theorem settleOnce_cases (others : List (List (Write Bytes Bytes))) (db : Database)
    (since til : Int64) (answers : ChainAnswers) :
    (∃ e, settleOnce s others db since til answers =
      ⟨.error (.wrap "settle: read window: %w" [] e), [], none, (listAmid others db).2⟩) ∨
    ∃ recs, (windowForAllProviders others db since til).1 = .ok recs ∧
      (recs = [] ∧ settleOnce s others db since til answers =
        ⟨.error errNoReceipts, [], none, (listAmid others db).2⟩ ∨
      recs ≠ [] ∧ ((∃ e, assemble s recs answers = .error e ∧
          settleOnce s others db since til answers =
            ⟨.error e, recs, none, (listAmid others db).2⟩) ∨
        ∃ p, assemble s recs answers = .ok p ∧ settleOnce s others db since til answers =
          ⟨broadcast s p answers, recs, some p.tx, (listAmid others db).2⟩)) := by
  unfold settleOnce windowForAllProviders
  rcases listAmid others db with ⟨all | all, db'⟩
  · exact Or.inl ⟨all,rfl⟩
  · refine Or.inr ⟨windowOf since til all, rfl, ?_⟩
    dsimp only
    by_cases hempty : windowOf since til all = []
    · rw [if_pos (by rw [hempty]; rfl), hempty]
      exact Or.inl ⟨rfl,rfl⟩
    · rw [if_neg (fun h => hempty (List.length_eq_zero_iff.mp h))]
      refine Or.inr ⟨hempty, ?_⟩
      cases hp : assemble s (windowOf since til all) answers with
      | error e => exact Or.inl ⟨e,rfl,rfl⟩
      | ok p => exact Or.inr ⟨p,rfl,rfl⟩

theorem settleOnce_store (others : List (List (Write Bytes Bytes))) (db : Database)
    (since til : Int64) (answers : ChainAnswers) :
    (settleOnce s others db since til answers).store = (listAmid others db).2 := by
  rcases settleOnce_cases s others db since til answers with ⟨e, h⟩ | ⟨recs, -, ⟨-, h⟩ | ⟨-, h⟩⟩
  · rw [h]
  · rw [h]
  · rcases h with ⟨e, -, h⟩ | ⟨p, -, h⟩ <;> rw [h]

theorem resolveProviders_error (addressForPeer : Bytes → Except GoError Address)
    (pids : List Bytes) : resolveProviders addressForPeer pids ≠ .error errNoReceipts := by
  induction pids with
  | nil => nofun
  | cons pid pids ih =>
    unfold resolveProviders
    split
    · nofun
    · split_ifs
      · nofun
      · rename_i addr _ _
        intro h
        cases hrest : resolveProviders addressForPeer pids with
        | error e =>
          rw [hrest] at h ih
          exact ih (congrArg _ (Except.error.inj h))
        | ok addrs =>
          rw [hrest] at h
          cases h

theorem assemble_error (recs : List Receipt) (answers : ChainAnswers) :
    assemble s recs answers ≠ .error errNoReceipts := by
  have hcontext : ∀ {α : Type} (format : String) (x : Except GoError α),
      context format x ≠ .error errNoReceipts := by
    intro α format x h
    obtain ⟨cause, hcause⟩ := context_error format x _ h
    cases hcause
  intro h
  unfold assemble at h
  simp [bind_error, hcontext, resolveProviders_error] at h

theorem broadcast_error (p : Payout) (answers : ChainAnswers) :
    broadcast s p answers ≠ .error errNoReceipts := by
  unfold broadcast
  split
  · nofun
  · split
    · nofun
    · split_ifs <;> nofun

theorem recs_of_errNoReceipts (others : List (List (Write Bytes Bytes))) (db : Database)
    (since til : Int64) (answers : ChainAnswers)
    (h : (settleOnce s others db since til answers).result = .error errNoReceipts) :
    (windowForAllProviders others db since til).1 = .ok [] ∧
      (settleOnce s others db since til answers).recs = [] := by
  rcases settleOnce_cases s others db since til answers with
    ⟨e, hcall⟩ | ⟨recs, hwindow, ⟨rfl, hcall⟩ | ⟨-, ⟨e, he, hcall⟩ | ⟨p, -, hcall⟩⟩⟩
  · rw [hcall] at h
    cases h
  · rw [hcall]
    exact ⟨hwindow,rfl⟩
  · rw [hcall] at h
    rw [Except.error.inj h] at he
    exact (assemble_error s recs answers he).elim
  · rw [hcall] at h
    exact (broadcast_error s p answers h).elim

theorem mem_recs_settleOnce (others : List (List (Write Bytes Bytes))) (db : Database)
    (since til : Int64) (answers : ChainAnswers) (r : Receipt)
    (hr : r ∈ (settleOnce s others db since til answers).recs) :
    (0 < since → since ≤ r.timestampUnix) ∧ (0 < til → r.timestampUnix < til) := by
  have hwindow : ∀ recs, (windowForAllProviders others db since til).1 = .ok recs → r ∈ recs →
      (0 < since → since ≤ r.timestampUnix) ∧ (0 < til → r.timestampUnix < til) := by
    intro recs hrecs hr
    unfold windowForAllProviders at hrecs
    split at hrecs
    · cases hrecs
    · cases hrecs
      exact ((mem_windowOf _ _ _ r).mp hr).2
  rcases settleOnce_cases s others db since til answers with ⟨e, h⟩ | ⟨recs, hrecs, ⟨-, h⟩ | ⟨-, h⟩⟩
  · rw [h] at hr
    cases hr
  · rw [h] at hr
    cases hr
  · rcases h with ⟨e, -, h⟩ | ⟨p, -, h⟩
    · rw [h] at hr
      exact hwindow recs hrecs hr
    · rw [h] at hr
      exact hwindow recs hrecs hr

theorem settleOnce_ok (others : List (List (Write Bytes Bytes))) (db : Database)
    (since til : Int64) (answers : ChainAnswers) (result : Result)
    (h : (settleOnce s others db since til answers).result = .ok result) :
    ∃ p, (windowForAllProviders others db since til).1 =
        .ok (settleOnce s others db since til answers).recs ∧
      (settleOnce s others db since til answers).recs ≠ [] ∧
      assemble s (settleOnce s others db since til answers).recs answers = .ok p ∧
      (settleOnce s others db since til answers).sent = some p.tx ∧
      broadcast s p answers = .ok result := by
  rcases settleOnce_cases s others db since til answers with
    ⟨e, hcall⟩ | ⟨recs, hwindow, ⟨-, hcall⟩ | ⟨hrecs, hcall⟩⟩
  · rw [hcall] at h
    cases h
  · rw [hcall] at h
    cases h
  · rcases hcall with ⟨e, -, hcall⟩ | ⟨p, hp, hcall⟩
    · rw [hcall] at h
      cases h
    · rw [hcall] at h ⊢
      exact ⟨p,hwindow,hrecs,hp,rfl,h⟩

end Settle

section Samples

def sampleWallet : Wallet where
  address := ⟨List.replicate 20 7, rfl⟩
  chainID := 84532
  sign := fun _ => none
  hash := fun tx => sha256 (bigEndian 8 tx.nonce.toNat++tx.data)

def sampleSettler (addressForPeer : Bytes → Except GoError Address) : Settler Bytes Bytes where
  lib := sampleLib
  wallet := sampleWallet
  addressForPeer := addressForPeer
  cfg := ⟨⟨List.replicate 20 9, rfl⟩, defaultGasLimit, defaultTimeout, some 1000⟩

def sampleServed (provider : String) (size ts : Int64) : Receipt :=
  ⟨ascii provider, ascii "v", ascii "c", 0, size, ts, 1, [1], [1]⟩

def sampleStore (receipts : List Receipt) : Database :=
  applyBatch Map.empty (receipts.flatMap putWrites)

def sampleAnswers (nonce : UInt64) (polls : List Poll) : ChainAnswers :=
  ⟨.ok nonce, .ok (some 1), .ok (some 100), none, polls⟩

def sampleMined : Poll := .found ⟨1, 50, 21000⟩

end Samples

end Aevia.Coordinator
