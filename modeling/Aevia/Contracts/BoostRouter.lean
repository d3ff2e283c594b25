import Aevia.Contracts.Evm
import Aevia.Foundation.Fallible
import Aevia.Foundation.Run

/-!
# The BoostRouter contract

Split parameters, destinations and the boost itself. The registry and the oracle
are other contracts: a boost gets what their views answer in its transaction,
or nothing where such a call reverts. The router calls only them and the token,
so it is never its own caller.
-/

set_option autoImplicit false

namespace Aevia.BoostRouter
open Aevia.Evm Aevia.Fallible

def bpsTotal : ℕ := 10000

def thetaFeedBps : BitVec 16 := 3000

def minBoost : ℕ := 500000

inductive Event where
  | boost (manifestHash : Bytes32) (source creator : Address)
      (amount creatorAmount poolAmount llcAmount councilAmount : ℕ)
  | splitUpdated (creatorBps poolBps llcBps councilBps : BitVec 16) (updatedBy : Address)
  | councilUpdated (previous current : Address)
  deriving DecidableEq, Repr

inductive Revert where
  | zeroAddress
  | splitInvalidSum (got : BitVec 16)
  | notCouncil
  | belowMinimumBoost (amount minimum : ℕ)
  | unregisteredManifest (manifestHash : Bytes32)
  | riskScoreAboveThreshold (manifestHash : Bytes32) (scoreBps : BitVec 16)
  | arithmeticOverflow
  | tokenCallFailed
  | viewCallFailed
  deriving DecidableEq, Repr

structure IContentRegistry where
  ownerOf : Bytes32 → Option Address
  isRegistered : Bytes32 → Option Bool

structure IRiskOracle where
  scoreBps : Bytes32 → Option (BitVec 16)

abbrev Caller (router : Address) := {a : Address // a ≠ router}

/-- Storage and destinations of the contract at `router`, with the ledger of its token. -/
structure Router (T : StandardToken) (router : Address) where
  token : T.State
  persistencePool : Address
  llcTreasury : Address
  councilFund : Address
  council : Address
  creatorBps : BitVec 16
  poolBps : BitVec 16
  llcBps : BitVec 16
  councilBps : BitVec 16
  events : List Event

variable {T : StandardToken} {router : Address}

/-- The constructor; `token` is the ledger of the contract at `usdc`. -/
def deploy (token : T.State)
    (usdc registry oracle persistencePool llcTreasury councilFund council : Address) :
    Except Revert (Router T router) :=
  if usdc = 0 then .error .zeroAddress
  else if registry = 0 then .error .zeroAddress
  else if oracle = 0 then .error .zeroAddress
  else if persistencePool = 0 then .error .zeroAddress
  else if llcTreasury = 0 then .error .zeroAddress
  else if councilFund = 0 then .error .zeroAddress
  else if council = 0 then .error .zeroAddress
  else .ok {
    token := token
    persistencePool := persistencePool
    llcTreasury := llcTreasury
    councilFund := councilFund
    council := council
    creatorBps := 5000
    poolBps := 3000
    llcBps := 1900
    councilBps := 100
    events := [] }

def mul : ℕ → ℕ → Except Revert ℕ := uint256Mul .arithmeticOverflow

def sub : ℕ → ℕ → Except Revert ℕ := uint256Sub .arithmeticOverflow

def view {α : Type} (answer : Option α) : Except Revert α :=
  answer.elim (.error .viewCallFailed) .ok

def safeTransfer (token : T.State) (sender recipient : Address) (amount : ℕ) :
    Except Revert T.State :=
  (T.transfer token sender recipient amount).elim (.error .tokenCallFailed) .ok

def safeTransferFrom (token : T.State) (spender source recipient : Address) (amount : ℕ) :
    Except Revert T.State :=
  (T.transferFrom token spender source recipient amount).elim (.error .tokenCallFailed) .ok

def boost (s : Router T router) (registry : IContentRegistry) (oracle : IRiskOracle)
    (sender : Caller router) (manifestHash : Bytes32) (amount : ℕ) :
    Except Revert (Router T router) :=
  if amount < minBoost then .error (.belowMinimumBoost amount minBoost)
  else do
    let registered ← view (registry.isRegistered manifestHash)
    if registered = false then .error (.unregisteredManifest manifestHash)
    else do
      let rBps ← view (oracle.scoreBps manifestHash)
      if thetaFeedBps ≤ rBps then .error (.riskScoreAboveThreshold manifestHash rBps)
      else do
        let creator ← view (registry.ownerOf manifestHash)
        let poolProduct ← mul amount s.poolBps.toNat
        let poolAmount := poolProduct/bpsTotal
        let llcProduct ← mul amount s.llcBps.toNat
        let llcAmount := llcProduct/bpsTotal
        let councilProduct ← mul amount s.councilBps.toNat
        let councilAmount := councilProduct/bpsTotal
        let rest ← sub amount poolAmount
        let rest ← sub rest llcAmount
        let creatorAmount ← sub rest councilAmount
        let token ← safeTransferFrom s.token router sender router amount
        let token ← safeTransfer token router creator creatorAmount
        let token ← safeTransfer token router s.persistencePool poolAmount
        let token ← safeTransfer token router s.llcTreasury llcAmount
        let token ← safeTransfer token router s.councilFund councilAmount
        .ok { s with
          token := token
          events := s.events++[.boost manifestHash sender creator amount creatorAmount poolAmount
            llcAmount councilAmount] }

/-- The sum of four 16-bit numbers fits into the 32 bits it is computed in; the
error reports its low 16 bits. -/
def setSplit (s : Router T router) (sender : Caller router)
    (creatorBps poolBps llcBps councilBps : BitVec 16) : Except Revert (Router T router) :=
  if sender ≠ s.council then .error .notCouncil
  else
    let total := creatorBps.toNat+poolBps.toNat+llcBps.toNat+councilBps.toNat
    if total ≠ bpsTotal then .error (.splitInvalidSum (BitVec.ofNat 16 total))
    else .ok { s with
      creatorBps := creatorBps
      poolBps := poolBps
      llcBps := llcBps
      councilBps := councilBps
      events := s.events++[.splitUpdated creatorBps poolBps llcBps councilBps sender] }

def setCouncil (s : Router T router) (sender : Caller router) (council : Address) :
    Except Revert (Router T router) :=
  if sender ≠ s.council then .error .notCouncil
  else if council = 0 then .error .zeroAddress
  else .ok { s with
    council := council
    events := s.events++[.councilUpdated s.council council] }

def previewSplit (s : Router T router) (amount : ℕ) : Except Revert (ℕ × ℕ × ℕ × ℕ) := do
  let poolProduct ← mul amount s.poolBps.toNat
  let poolAmount := poolProduct/bpsTotal
  let llcProduct ← mul amount s.llcBps.toNat
  let llcAmount := llcProduct/bpsTotal
  let councilProduct ← mul amount s.councilBps.toNat
  let councilAmount := councilProduct/bpsTotal
  let rest ← sub amount poolAmount
  let rest ← sub rest llcAmount
  let creatorAmount ← sub rest councilAmount
  .ok (creatorAmount, poolAmount, llcAmount, councilAmount)

inductive Action (T : StandardToken) (router : Address) where
  | boost (registry : IContentRegistry) (oracle : IRiskOracle) (sender : Caller router)
      (manifestHash : Bytes32) (amount : ℕ)
  | setSplit (sender : Caller router) (creatorBps poolBps llcBps councilBps : BitVec 16)
  | setCouncil (sender : Caller router) (council : Address)
  | tokenActivity (ledger : T.State)

def execute (s : Router T router) : Action T router → Except Revert (Router T router)
  | .boost registry oracle sender manifestHash amount =>
    boost s registry oracle sender manifestHash amount
  | .setSplit sender creatorBps poolBps llcBps councilBps =>
    setSplit s sender creatorBps poolBps llcBps councilBps
  | .setCouncil sender council => setCouncil s sender council
  | .tokenActivity ledger => .ok { s with token := ledger }

/-- A reverting transaction leaves the chain as it was. -/
def next (s : Router T router) (a : Action T router) : Router T router := commit s (execute s a)

end Aevia.BoostRouter
