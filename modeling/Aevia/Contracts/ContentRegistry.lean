import Aevia.Contracts.Evm
import Aevia.Foundation.Abi
import Aevia.Foundation.Fallible
import Aevia.Foundation.Keccak
import Aevia.Foundation.Run

/-!
# The ContentRegistry contract

Records, nonces and the signed authorization of a registration. What
`SignatureChecker` answers for an owner depends on code and keys outside the
registry, so it comes with each call, as the chain id and the time of the block
do. The relayer that sends a call is not read anywhere.
-/

set_option autoImplicit false

namespace Aevia.ContentRegistry
open Aevia.Bytes Aevia.Evm Aevia.Fallible Aevia.Keccak

structure ContentRecord where
  owner : Address
  timestamp : BitVec 64
  policyFlags : BitVec 8
  parentCid : Bytes32
  deriving DecidableEq, Repr

/-- What an unwritten mapping entry reads as. -/
def ContentRecord.unset : ContentRecord := ⟨0, 0, 0, 0⟩

def domainName : Bytes := ascii "Aevia ContentRegistry"

def domainVersion : Bytes := ascii "1"

def domainTypehash : Bytes :=
  keccak256 (ascii
    "EIP712Domain(string name,string version,uint256 chainId,address verifyingContract)")

def registerTypehash : Bytes :=
  keccak256 (ascii ("RegisterContent(address owner,bytes32 manifestCid,bytes32 parentCid,"++
    "uint8 policyFlags,uint256 chainId,uint256 nonce)"))

def reservedPolicyBit : BitVec 8 := 0x80

/-- What `_buildDomainSeparator` hashes. -/
def domainFields (self : Address) (chainId : BitVec 256) : Bytes :=
  domainTypehash++keccak256 domainName++keccak256 domainVersion++
    Abi.encode [chainId.toNat, self.toNat]

def buildDomainSeparator (self : Address) (chainId : BitVec 256) : Bytes :=
  keccak256 (domainFields self chainId)

inductive Event where
  | contentRegistered (manifestCid : Bytes32) (owner : Address) (parentCid : Bytes32)
      (timestamp : BitVec 64) (policyFlags : BitVec 8)
  deriving DecidableEq, Repr

inductive Revert where
  | alreadyRegistered
  | zeroCid
  | selfParent
  | parentNotRegistered
  | reservedFlag
  | invalidSignature
  | zeroSigner
  deriving DecidableEq, Repr

/-- Storage and immutables of a deployed registry. The constructor caches the
separator of the chain it runs on. -/
structure Registry where
  self : Address
  cachedChainId : BitVec 256
  cachedDomainSeparator : Bytes
  cached : cachedDomainSeparator = buildDomainSeparator self cachedChainId
  records : Bytes32 → ContentRecord
  nonces : Address → BitVec 256
  events : List Event

def deploy (self : Address) (chainId : BitVec 256) : Registry where
  self := self
  cachedChainId := chainId
  cachedDomainSeparator := buildDomainSeparator self chainId
  cached := rfl
  records := fun _ => ContentRecord.unset
  nonces := fun _ => 0
  events := []

def Registry.isRegistered (s : Registry) (manifestCid : Bytes32) : Bool :=
  (s.records manifestCid).owner ≠ 0

def Registry.ownerOf (s : Registry) (manifestCid : Bytes32) : Address :=
  (s.records manifestCid).owner

def Registry.domainSeparator (s : Registry) (chainId : BitVec 256) : Bytes :=
  if chainId = s.cachedChainId then s.cachedDomainSeparator
  else buildDomainSeparator s.self chainId

/-- What `_hashRegisterContent` hashes into its `structHash`. -/
def registerFields (chainId : BitVec 256) (owner : Address) (manifestCid parentCid : Bytes32)
    (policyFlags : BitVec 8) (nonce : BitVec 256) : Bytes :=
  registerTypehash++Abi.encode [owner.toNat, manifestCid.toNat, parentCid.toNat,
    policyFlags.toNat, chainId.toNat, nonce.toNat]

/-- The digest of `_hashRegisterContent`. -/
def Registry.hashWithNonce (s : Registry) (chainId : BitVec 256) (owner : Address)
    (manifestCid parentCid : Bytes32) (policyFlags : BitVec 8) (nonce : BitVec 256) : Bytes :=
  let structHash := keccak256 (registerFields chainId owner manifestCid parentCid policyFlags nonce)
  keccak256 ([0x19, 0x01]++s.domainSeparator chainId++structHash)

def Registry.hashRegisterContent (s : Registry) (chainId : BitVec 256) (owner : Address)
    (manifestCid parentCid : Bytes32) (policyFlags : BitVec 8) : Bytes :=
  s.hashWithNonce chainId owner manifestCid parentCid policyFlags (s.nonces owner)

structure Call where
  chainId : BitVec 256
  timestamp : BitVec 256
  isValidSignatureNow : (signer : Address) → (digest signature : Bytes) → Bool
  owner : Address
  manifestCid : Bytes32
  parentCid : Bytes32
  policyFlags : BitVec 8
  signature : Bytes

/-- The nonce is incremented in an `unchecked` block and the time is truncated. -/
def registerContent (s : Registry) (c : Call) : Except Revert Registry :=
  if c.owner = 0 then .error .zeroSigner
  else if c.manifestCid = 0 then .error .zeroCid
  else if c.parentCid = c.manifestCid then .error .selfParent
  else if c.policyFlags &&& reservedPolicyBit ≠ 0 then .error .reservedFlag
  else if (s.records c.manifestCid).owner ≠ 0 then .error .alreadyRegistered
  else if c.parentCid ≠ 0 ∧ (s.records c.parentCid).owner = 0 then .error .parentNotRegistered
  else
    let nonce := s.nonces c.owner
    let digest := s.hashWithNonce c.chainId c.owner c.manifestCid c.parentCid c.policyFlags nonce
    if c.isValidSignatureNow c.owner digest c.signature = false then .error .invalidSignature
    else
      let ts := c.timestamp.setWidth 64
      .ok { s with
        nonces := Function.update s.nonces c.owner (nonce+1)
        records := Function.update s.records c.manifestCid
          { owner := c.owner, timestamp := ts, policyFlags := c.policyFlags, parentCid := c.parentCid }
        events := s.events++
          [.contentRegistered c.manifestCid c.owner c.parentCid ts c.policyFlags] }

def next (s : Registry) (c : Call) : Registry := commit s (registerContent s c)

end Aevia.ContentRegistry
