import Aevia.Provider.SettlementCalldata

/-!
# Chain client and wallet

The transactions of the coordinator and what a chain node answers while one is
sent. Signing and hashing of a transaction are those of the wallet's library.
-/

set_option autoImplicit false

namespace Aevia.Coordinator
open Aevia.Bytes Aevia.Fallible Aevia.Por

structure Transaction where
  chainID : ℤ
  nonce : UInt64
  gasTipCap : ℤ
  gasFeeCap : ℤ
  gas : UInt64
  recipient : Address
  value : ℤ
  data : Bytes
  deriving DecidableEq

structure TxReceipt where
  status : UInt64
  blockNumber : ℤ
  gasUsed : UInt64

/-- The key of the coordinator; `sign` fails or signs, `hash` is the hash of the
signed transaction. -/
structure Wallet where
  address : Address
  chainID : ℤ
  sign : Transaction → Option GoError
  hash : Transaction → Bytes

structure TxParams where
  nonce : UInt64
  recipient : Address
  value : Option ℤ
  data : Bytes
  gasLimit : UInt64
  maxFee : Option ℤ
  priority : Option ℤ

def signTx (w : Wallet) (p : TxParams) : Except GoError Transaction :=
  if p.gasLimit = 0 then .error (.new "wallet: GasLimit is zero")
  else match p.maxFee with
  | none => .error (.new "wallet: MaxFee must be positive")
  | some maxFee =>
    if maxFee ≤ 0 then .error (.new "wallet: MaxFee must be positive")
    else match p.priority with
    | none => .error (.new "wallet: Priority must be non-negative")
    | some priority =>
      if priority < 0 then .error (.new "wallet: Priority must be non-negative")
      else
        let tx : Transaction := {
          chainID := w.chainID
          nonce := p.nonce
          gasTipCap := priority
          gasFeeCap := maxFee
          gas := p.gasLimit
          recipient := p.recipient
          value := p.value.getD 0
          data := p.data }
        match w.sign tx with
        | some e => .error (.wrap "wallet: SignTx: %w" [] e)
        | none => .ok tx

theorem signTx_ok (w : Wallet) (p : TxParams) (tx : Transaction) (h : signTx w p = .ok tx) :
    tx.data = p.data ∧ tx.recipient = p.recipient := by
  unfold signTx at h
  rw [guard_ok] at h
  obtain ⟨-, h⟩ := h
  split at h
  · cases h
  · rw [guard_ok] at h
    obtain ⟨-, h⟩ := h
    split at h
    · cases h
    · rw [guard_ok] at h
      obtain ⟨-, h⟩ := h
      dsimp only at h
      split at h
      · cases h
      · cases h
        exact ⟨rfl,rfl⟩

def effectiveFees (baseFee tip : Option ℤ) : ℤ × ℤ :=
  (baseFee.getD 0*2+tip.getD 0, tip.getD 0)

/-- One round of waiting: a receipt, an error other than a missing one, or no
receipt yet, with whether the deadline has passed and the context's error. -/
inductive Poll where
  | found (receipt : TxReceipt)
  | failed (e : GoError)
  | missing (expired : Bool) (cancelled : Option GoError)

def errNotMined (txHash : Bytes) (timeout : Int64) : GoError :=
  .errorf "chain: receipt %s not mined within %s" [.text txHash, .int timeout.toInt]

/-- The deadline passes at the latest after the last round. -/
def waitMined (txHash : Bytes) (timeout : Int64) : List Poll → Except GoError TxReceipt
  | [] => .error (errNotMined txHash timeout)
  | .found receipt::_ => .ok receipt
  | .failed e::_ => .error (.wrap "chain: TransactionReceipt: %w" [] e)
  | .missing true _::_ => .error (errNotMined txHash timeout)
  | .missing false (some e)::_ => .error e
  | .missing false none::rounds => waitMined txHash timeout rounds

structure ChainAnswers where
  nonce : Except GoError UInt64
  tip : Except GoError (Option ℤ)
  baseFee : Except GoError (Option ℤ)
  sendError : Option GoError
  polls : List Poll

end Aevia.Coordinator
