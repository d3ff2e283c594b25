import Aevia.Contracts.Evm
import Aevia.Foundation.Apportion
import Aevia.Foundation.Run

/-!
# The PersistencePool contract

Storage, entry points and reverts of the contract. `uint256` quantities are
naturals with the overflow checks of Solidity 0.8 written out; keys of mappings
are fixed-width words. The reward token is another contract, so it is a
parameter whose laws are those of a standard ERC-20 without transfer fees.
-/

set_option autoImplicit false

namespace Aevia.PersistencePool
open Aevia.Apportion Aevia.Evm

abbrev SettlementId := BitVec 256

structure Settlement where
  merkleRoot : Bytes32
  timestamp : ℕ
  totalRewards : ℕ
  totalBytes : ℕ
  providerCount : ℕ
  deriving DecidableEq, Repr

def Settlement.unset : Settlement := ⟨0, 0, 0, 0, 0⟩

inductive Event where
  | deposited (sender : Address) (manifestCid : Bytes32) (amount : ℕ)
  | coordinatorUpdated (previous current : Address)
  | settlementSubmitted (settlementId : SettlementId) (merkleRoot : Bytes32)
      (totalRewards totalBytes providerCount : ℕ)
  | allocationRecorded (settlementId : SettlementId) (provider : Address)
      (bytesServed allocation : ℕ)
  | claimed (settlementId : SettlementId) (provider : Address) (amount : ℕ)
  deriving DecidableEq, Repr

inductive Revert where
  | notCoordinator
  | zeroAmount
  | zeroAddress
  | lengthMismatch
  | zeroTotalBytes
  | zeroProviders
  | alreadyClaimed
  | nothingToClaim
  | insufficientPoolBalance
  | arithmeticOverflow
  | tokenCallFailed
  deriving DecidableEq, Repr

/-- Storage of the pool together with the ledger of its token. A deployed
contract never sits at the zero address. -/
structure Pool (T : StandardToken) where
  self : {a : Address // a ≠ 0}
  token : T.State
  coordinator : Address
  settlementCount : SettlementId
  settlements : SettlementId → Settlement
  allocations : SettlementId → Address → ℕ
  claimed : SettlementId → Address → Bool
  cumulativeBytesServed : Address → ℕ
  cumulativeRewardsPaid : Address → ℕ
  depositsByCid : Bytes32 → ℕ
  events : List Event

variable {T : StandardToken}

def Pool.poolBalance (s : Pool T) : ℕ := T.balanceOf s.token s.self

def checkedAdd (a b : ℕ) : Except Revert ℕ :=
  if a+b < wordBound then .ok (a+b) else .error .arithmeticOverflow

def checkedMul (a b : ℕ) : Except Revert ℕ :=
  if a*b < wordBound then .ok (a*b) else .error .arithmeticOverflow

def fresh (self : {a : Address // a ≠ 0}) (token : T.State) (coordinator : Address) : Pool T where
  self := self
  token := token
  coordinator := coordinator
  settlementCount := 0
  settlements := fun _ => Settlement.unset
  allocations := fun _ _ => 0
  claimed := fun _ _ => false
  cumulativeBytesServed := fun _ => 0
  cumulativeRewardsPaid := fun _ => 0
  depositsByCid := fun _ => 0
  events := [.coordinatorUpdated 0 coordinator]

/-- The constructor; `token` is the ledger of the contract at `rewardToken`. -/
def deploy (self : {a : Address // a ≠ 0}) (token : T.State) (rewardToken coordinator : Address) :
    Except Revert (Pool T) :=
  if rewardToken = 0 then .error .zeroAddress
  else if coordinator = 0 then .error .zeroAddress
  else .ok (fresh self token coordinator)

def fundedLedger : Ledger where
  balances := fun a => if a = 2 then 100 else 0
  allowances := fun owner spender => if owner = 2 ∧ spender = 0x100 then 100 else 0

def samplePool : Pool ledgerToken := fresh ⟨0x100, by decide⟩ fundedLedger 1

def deposit (s : Pool T) (sender : Address) (manifestCid : Bytes32) (amount : ℕ) :
    Except Revert (Pool T) :=
  if amount = 0 then .error .zeroAmount
  else match T.transferFrom s.token s.self sender s.self amount with
    | none => .error .tokenCallFailed
    | some token => do
      let total ← checkedAdd (s.depositsByCid manifestCid) amount
      .ok { s with
        token := token
        depositsByCid := Function.update s.depositsByCid manifestCid total
        events := s.events++[.deposited sender manifestCid amount] }

/-- The first loop of `submitSettlement`: byte total and address validation. -/
def sumBytes : List (Address × ℕ) → ℕ → Except Revert ℕ
  | [], total => .ok total
  | (provider, served)::rest, total =>
    if provider = 0 then .error .zeroAddress
    else do
      let total ← checkedAdd total served
      sumBytes rest total

/-- The second loop of `submitSettlement`: one allocation per entry. -/
def allocate (settlementId : SettlementId) (totalRewards totalBytes : ℕ) :
    List (Address × ℕ) → Pool T → Except Revert (Pool T)
  | [], s => .ok s
  | (provider, served)::rest, s => do
    let product ← checkedMul totalRewards served
    let share := product/totalBytes
    let cumulative ← checkedAdd (s.cumulativeBytesServed provider) served
    allocate settlementId totalRewards totalBytes rest
      { s with
        allocations := Function.update s.allocations settlementId
          (Function.update (s.allocations settlementId) provider share)
        cumulativeBytesServed := Function.update s.cumulativeBytesServed provider cumulative
        events := s.events++[.allocationRecorded settlementId provider served share] }

/-- `timestamp` is `block.timestamp`. The counter is incremented in an
`unchecked` block, so it wraps. -/
def submitSettlement (s : Pool T) (sender : Address) (timestamp : ℕ) (merkleRoot : Bytes32)
    (providers : List Address) (bytesServed : List ℕ) (totalRewards : ℕ) :
    Except Revert (SettlementId × Pool T) :=
  if sender ≠ s.coordinator then .error .notCoordinator
  else if providers.length = 0 then .error .zeroProviders
  else if providers.length ≠ bytesServed.length then .error .lengthMismatch
  else if totalRewards = 0 then .error .zeroAmount
  else if s.poolBalance < totalRewards then .error .insufficientPoolBalance
  else do
    let totalBytes ← sumBytes (providers.zip bytesServed) 0
    if totalBytes = 0 then .error .zeroTotalBytes
    else
      let settlementId := s.settlementCount+1
      let recorded := { s with
        settlementCount := settlementId
        settlements := Function.update s.settlements settlementId
          { merkleRoot := merkleRoot
            timestamp := timestamp%2^64
            totalRewards := totalRewards
            totalBytes := totalBytes
            providerCount := providers.length }
        events := s.events++
          [.settlementSubmitted settlementId merkleRoot totalRewards totalBytes providers.length] }
      let s' ← allocate settlementId totalRewards totalBytes (providers.zip bytesServed) recorded
      .ok (settlementId, s')

def claim (s : Pool T) (sender : Address) (settlementId : SettlementId) :
    Except Revert (ℕ × Pool T) :=
  let amount := s.allocations settlementId sender
  if amount = 0 then .error .nothingToClaim
  else if s.claimed settlementId sender then .error .alreadyClaimed
  else do
    let paid ← checkedAdd (s.cumulativeRewardsPaid sender) amount
    match T.transfer s.token s.self sender amount with
    | none => .error .tokenCallFailed
    | some token => .ok (amount, { s with
        token := token
        claimed := Function.update s.claimed settlementId
          (Function.update (s.claimed settlementId) sender true)
        cumulativeRewardsPaid := Function.update s.cumulativeRewardsPaid sender paid
        events := s.events++[.claimed settlementId sender amount] })

def setCoordinator (s : Pool T) (sender newCoordinator : Address) : Except Revert (Pool T) :=
  if sender ≠ s.coordinator then .error .notCoordinator
  else if newCoordinator = 0 then .error .zeroAddress
  else .ok { s with
    coordinator := newCoordinator
    events := s.events++[.coordinatorUpdated s.coordinator newCoordinator] }

inductive Action (T : StandardToken) where
  | deposit (sender : Address) (manifestCid : Bytes32) (amount : ℕ)
  | submitSettlement (sender : Address) (timestamp : ℕ) (merkleRoot : Bytes32)
      (providers : List Address) (bytesServed : List ℕ) (totalRewards : ℕ)
  | claim (sender : Address) (settlementId : SettlementId)
  | setCoordinator (sender newCoordinator : Address)
  | tokenActivity (ledger : T.State)

/-- Only the pool spends its balance and it grants no allowance, so what others
do on the token (direct transfers to the pool included) cannot lower it. -/
def execute (s : Pool T) : Action T → Except Revert (Pool T)
  | .deposit sender manifestCid amount => deposit s sender manifestCid amount
  | .submitSettlement sender timestamp merkleRoot providers bytesServed totalRewards =>
    (submitSettlement s sender timestamp merkleRoot providers bytesServed totalRewards).map Prod.snd
  | .claim sender settlementId => (claim s sender settlementId).map Prod.snd
  | .setCoordinator sender newCoordinator => setCoordinator s sender newCoordinator
  | .tokenActivity ledger =>
    if s.poolBalance ≤ T.balanceOf ledger s.self then .ok { s with token := ledger }
    else .error .tokenCallFailed

def next (s : Pool T) (a : Action T) : Pool T :=
  match execute s a with
  | .ok s' => s'
  | .error _ => s

end Aevia.PersistencePool
