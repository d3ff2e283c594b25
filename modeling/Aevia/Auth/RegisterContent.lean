import Aevia.Contracts.RegistryReplay
import Aevia.Foundation.StructCodec

/-!
# The typed data of a registration

Three parties encode a registration: the builder for the wallet, with numbers, the
relayer that rebuilds the message with big integers, and the contract. On the same
values their digests are one.
-/

set_option autoImplicit false

namespace Aevia.RegisterContent
open Aevia.Bytes Aevia.ContentRegistry Aevia.Evm Aevia.JsText Aevia.Keccak Aevia.TypedData
open Aevia.Fallible Aevia.StructCodec

def contentRegistryDomainName : Bytes := ascii "Aevia ContentRegistry"

def contentRegistryDomainVersion : Bytes := ascii "1"

def registerContentFields : List Field := [
  ⟨ascii "owner", .address⟩, ⟨ascii "manifestCid", .bytes32⟩, ⟨ascii "parentCid", .bytes32⟩,
  ⟨ascii "policyFlags", .uint 8⟩, ⟨ascii "chainId", .uint 256⟩, ⟨ascii "nonce", .uint 256⟩]

def registerContentTypes : List (Bytes × List Field) :=
  [(ascii "RegisterContent", registerContentFields)]

/-- `policyFlags` and `chainId` are numbers that are integers, `nonce` is a big integer. -/
structure BuildRegisterContentTypedDataArgs where
  owner : Text
  manifestCid : Text
  parentCid : Text
  policyFlags : ℤ
  chainId : ℤ
  nonce : ℤ
  verifyingContract : Text

def maxSafeInteger : ℤ := 2^53-1

/-- An error is its message. -/
def buildRegisterContentTypedData (args : BuildRegisterContentTypedDataArgs) :
    Except Bytes Payload :=
  if args.policyFlags < 0 ∨ args.policyFlags > 0xff then
    .error (ascii "policyFlags out of uint8 range: "++intLiteral args.policyFlags)
  else if args.policyFlags.toNat &&& 0x80 ≠ 0 then
    .error (ascii "policyFlags top bit (0x80) is reserved for moderator use")
  else if args.nonce > maxSafeInteger then
    .error (ascii "nonce "++intLiteral args.nonce++ascii
      " exceeds Number.MAX_SAFE_INTEGER; typed-data emitter needs a bigint-safe path")
  else .ok {
    domain := [
      (ascii "name", .text contentRegistryDomainName),
      (ascii "version", .text contentRegistryDomainVersion),
      (ascii "chainId", .number (some args.chainId)),
      (ascii "verifyingContract", .hex args.verifyingContract)]
    types := registerContentTypes
    primaryType := ascii "RegisterContent"
    message := [
      (ascii "owner", .hex args.owner),
      (ascii "manifestCid", .hex args.manifestCid),
      (ascii "parentCid", .hex args.parentCid),
      (ascii "policyFlags", .number (some args.policyFlags)),
      (ascii "chainId", .number (some args.chainId)),
      (ascii "nonce", .number (JsNumber.toDouble args.nonce))] }

/-- What the relayer verifies the signature against. -/
def verifiedTypedData (args : BuildRegisterContentTypedDataArgs) : Payload where
  domain := [
    (ascii "name", .text (ascii "Aevia ContentRegistry")),
    (ascii "version", .text (ascii "1")),
    (ascii "chainId", .number (some args.chainId)),
    (ascii "verifyingContract", .hex args.verifyingContract)]
  types := registerContentTypes
  primaryType := ascii "RegisterContent"
  message := [
    (ascii "owner", .hex args.owner),
    (ascii "manifestCid", .hex args.manifestCid),
    (ascii "parentCid", .hex args.parentCid),
    (ascii "policyFlags", .number (some args.policyFlags)),
    (ascii "chainId", .bigint args.chainId),
    (ascii "nonce", .bigint args.nonce)]

structure Registration where
  chainId : BitVec 256
  owner : Address
  manifestCid : Bytes32
  parentCid : Bytes32
  policyFlags : BitVec 8
  nonce : BitVec 256

structure SameValues (registry : Address) (r : Registration)
    (args : BuildRegisterContentTypedDataArgs) : Prop where
  owner : hexBytes (strip0x args.owner) = some (bigEndian 20 r.owner.toNat)
  manifestCid : hexBytes (strip0x args.manifestCid) = some (bigEndian 32 r.manifestCid.toNat)
  parentCid : hexBytes (strip0x args.parentCid) = some (bigEndian 32 r.parentCid.toNat)
  policyFlags : args.policyFlags = r.policyFlags.toNat
  chainId : args.chainId = r.chainId.toNat
  nonce : args.nonce = r.nonce.toNat
  verifyingContract : hexBytes (strip0x args.verifyingContract) = some (bigEndian 20 registry.toNat)

def Registration.digest (s : Registry) (r : Registration) : Bytes :=
  s.hashWithNonce r.chainId r.owner r.manifestCid r.parentCid r.policyFlags r.nonce

section Digests
variable {registry : Address} {r : Registration} {args : BuildRegisterContentTypedDataArgs}

theorem address_word (a : Address) (digits : Text)
    (h : hexBytes (strip0x digits) = some (bigEndian 20 a.toNat)) :
    encodeField keccak256 .address (.hex digits) = some (Abi.word a.toNat) :=
  encodeHex_word 20 a.toNat digits (by decide) a.isLt h

theorem bytes32_word (b : Bytes32) (digits : Text)
    (h : hexBytes (strip0x digits) = some (bigEndian 32 b.toNat)) :
    encodeField keccak256 .bytes32 (.hex digits) = some (Abi.word b.toNat) :=
  encodeHex_word 32 b.toNat digits (by decide) b.isLt h

/-- The message with its two large numbers, however they are given. -/
def messageOf (args : BuildRegisterContentTypedDataArgs) (chainId nonce : Value) : Members := [
  (ascii "owner", .hex args.owner), (ascii "manifestCid", .hex args.manifestCid),
  (ascii "parentCid", .hex args.parentCid),
  (ascii "policyFlags", .number (some args.policyFlags)),
  (ascii "chainId", chainId), (ascii "nonce", nonce)]

theorem domainTypehash_eq : keccak256 (encodeType (ascii "EIP712Domain")
    (domainTypes (verifiedTypedData args).domain)) = domainTypehash := by
  have htype : domainTypes (verifiedTypedData args).domain = domainMembers.take 4 := rfl
  rw [htype, domainTypehash]
  exact congrArg keccak256 (by decide +kernel)

theorem registerTypehash_eq :
    keccak256 (encodeType (ascii "RegisterContent") registerContentFields) = registerTypehash := by
  rw [registerTypehash]
  exact congrArg keccak256 (by decide +kernel)

theorem SameValues.chainId_word (h : SameValues registry r args) :
    encodeField keccak256 (.uint 256) (.number (some (args.chainId : ℚ))) =
      some (Abi.word r.chainId.toNat) := by
  rw [h.chainId]
  exact encodeField_number keccak256 256 r.chainId.toNat r.chainId.isLt

theorem domain_structFields (h : SameValues registry r args) :
    structFields keccak256 (ascii "EIP712Domain") (domainTypes (verifiedTypedData args).domain)
      (verifiedTypedData args).domain = some (domainFields registry r.chainId) := by
  have hchain := h.chainId_word
  have hself := address_word registry args.verifyingContract h.verifyingContract
  have hdata := encodeData_words keccak256 (domainTypes (verifiedTypedData args).domain)
    (verifiedTypedData args).domain
    [keccak256 domainName, keccak256 domainVersion, Abi.word r.chainId.toNat, Abi.word registry.toNat]
    (.cons ⟨_, rfl, rfl⟩ (.cons ⟨_, rfl, rfl⟩ (.cons ⟨_, rfl, hchain⟩ (.cons ⟨_, rfl, hself⟩ .nil))))
  rw [structFields, hdata, Option.map_some, domainTypehash_eq, domainFields]
  simp only [Abi.encode, List.flatMap_cons, List.flatMap_nil, List.flatten_cons, List.flatten_nil,
    List.append_assoc]

theorem message_structFields (h : SameValues registry r args) (chainId nonce : Value)
    (hchain : encodeField keccak256 (.uint 256) chainId = some (Abi.word r.chainId.toNat))
    (hnonce : encodeField keccak256 (.uint 256) nonce = some (Abi.word r.nonce.toNat)) :
    structFields keccak256 (ascii "RegisterContent") registerContentFields
      (messageOf args chainId nonce) = some
        (registerFields r.chainId r.owner r.manifestCid r.parentCid r.policyFlags r.nonce) := by
  have hflags : encodeField keccak256 (.uint 8) (.number (some (args.policyFlags : ℚ))) =
      some (Abi.word r.policyFlags.toNat) := by
    rw [h.policyFlags]
    exact encodeField_number keccak256 8 r.policyFlags.toNat r.policyFlags.isLt
  have howner := address_word r.owner args.owner h.owner
  have hmanifest := bytes32_word r.manifestCid args.manifestCid h.manifestCid
  have hparent := bytes32_word r.parentCid args.parentCid h.parentCid
  have hdata := encodeData_words keccak256 registerContentFields (messageOf args chainId nonce)
    [Abi.word r.owner.toNat, Abi.word r.manifestCid.toNat, Abi.word r.parentCid.toNat,
      Abi.word r.policyFlags.toNat, Abi.word r.chainId.toNat, Abi.word r.nonce.toNat]
    (.cons ⟨_, rfl, howner⟩ (.cons ⟨_, rfl, hmanifest⟩ (.cons ⟨_, rfl, hparent⟩
      (.cons ⟨_, rfl, hflags⟩ (.cons ⟨_, rfl, hchain⟩ (.cons ⟨_, rfl, hnonce⟩ .nil))))))
  rw [structFields, hdata, Option.map_some, registerTypehash_eq, registerFields]
  simp only [Abi.encode, List.flatMap_cons, List.flatMap_nil, List.flatten_cons, List.flatten_nil]

theorem payload_digest (s : Registry) (h : SameValues s.self r args) (chainId nonce : Value)
    (hchain : encodeField keccak256 (.uint 256) chainId = some (Abi.word r.chainId.toNat))
    (hnonce : encodeField keccak256 (.uint 256) nonce = some (Abi.word r.nonce.toNat)) :
    Payload.digest keccak256 { verifiedTypedData args with message := messageOf args chainId nonce } =
      some (r.digest s) := by
  have hdomain := domain_structFields h
  have hmessage := message_structFields h chainId nonce hchain hnonce
  have hfields : ((verifiedTypedData args).types.find?
      (fun t => t.1 == ascii "RegisterContent")).map Prod.snd = some registerContentFields := rfl
  have hprimary : (verifiedTypedData args).primaryType = ascii "RegisterContent" := rfl
  rw [Payload.digest]
  simp only [hfields, hprimary, hdomain, hmessage, Option.bind_eq_bind, Option.bind_some]
  rw [Registration.digest, Registry.hashWithNonce, domainSeparator_eq]
  rfl

theorem nonce_word (n : ℕ) (hn : n < 2^53) :
    encodeField keccak256 (.uint 256) (.number (JsNumber.toDouble ((n : ℤ) : ℚ))) =
      some (Abi.word n) := by
  have hdouble := JsNumber.toDouble_natCast n hn
  rw [Int.cast_natCast, hdouble]
  exact encodeField_number keccak256 256 n (hn.trans (by decide))

theorem buildRegisterContentTypedData_ok (args : BuildRegisterContentTypedDataArgs)
    (payload : Payload) : buildRegisterContentTypedData args = .ok payload ↔
      (0 ≤ args.policyFlags ∧ args.policyFlags ≤ 0xff) ∧ args.policyFlags.toNat &&& 0x80 = 0 ∧
      args.nonce ≤ maxSafeInteger ∧
      payload = { verifiedTypedData args with
        message := messageOf args (.number (some args.chainId))
          (.number (JsNumber.toDouble args.nonce)) } := by
  unfold buildRegisterContentTypedData
  simp only [guard_ok, not_or, not_lt, not_not, Except.ok.injEq]
  refine and_congr_right (fun _ => and_congr_right (fun _ => and_congr_right (fun _ => ?_)))
  exact eq_comm

end Digests

section Agreement

/-- What is signed is what the relayer verifies and what the contract hashes, and the
builder takes what the contract would accept as long as the nonce is a safe number. -/
theorem registerContent_digests (s : Registry) (r : Registration)
    (args : BuildRegisterContentTypedDataArgs) (h : SameValues s.self r args) :
    (∀ payload, buildRegisterContentTypedData args = .ok payload →
      payload.digest keccak256 = some (r.digest s) ∧
      (verifiedTypedData args).digest keccak256 = some (r.digest s)) ∧
    ∀ c s', registerContent s c = .ok s' → c.policyFlags = r.policyFlags →
      s.nonces c.owner = r.nonce → r.nonce.toNat < 2^53 →
      ∃ payload, buildRegisterContentTypedData args = .ok payload := by
  constructor
  · intro payload hbuilt
    obtain ⟨-, -, hsafe, rfl⟩ := (buildRegisterContentTypedData_ok args payload).mp hbuilt
    rw [h.nonce, maxSafeInteger] at hsafe
    constructor
    · refine payload_digest s h _ _ h.chainId_word ?_
      rw [h.nonce]
      exact nonce_word r.nonce.toNat (by omega)
    · refine payload_digest s h (.bigint args.chainId) (.bigint args.nonce) ?_ ?_
      · rw [h.chainId]
        exact encodeUint_nat 256 r.chainId.toNat r.chainId.isLt
      · rw [h.nonce]
        exact encodeUint_nat 256 r.nonce.toNat r.nonce.isLt
  · intro c s' haccepted hflags hnonce hsafe
    refine ⟨_, (buildRegisterContentTypedData_ok args _).mpr ⟨?_, ?_, ?_, rfl⟩⟩
    · have hlt := r.policyFlags.isLt
      rw [h.policyFlags]
      omega
    · simp only [registerContent, guard_ok] at haccepted
      obtain ⟨-, -, -, hreserved, -⟩ := haccepted
      have hzero := congrArg BitVec.toNat (not_not.mp hreserved)
      rw [hflags, BitVec.toNat_and] at hzero
      rw [h.policyFlags, Int.toNat_natCast]
      exact hzero
    · rw [h.nonce, maxSafeInteger]
      omega

def sampleRegistry : Registry := deploy 0x07ffbcB245bcD8aA08F8dA75B2AeDE750d5592F0 84532

def sampleRegistration : Registration where
  chainId := 84532
  owner := 0xAbCdEf0000000000000000000000000000001234
  manifestCid := 7
  parentCid := 0
  policyFlags := 3
  nonce := 5

def sampleArgs : BuildRegisterContentTypedDataArgs where
  owner := js "0xAbCdEf0000000000000000000000000000001234"
  manifestCid := js "0x0000000000000000000000000000000000000000000000000000000000000007"
  parentCid := js "0x0000000000000000000000000000000000000000000000000000000000000000"
  policyFlags := 3
  chainId := 84532
  nonce := 5
  verifyingContract := js "0x07ffbcB245bcD8aA08F8dA75B2AeDE750d5592F0"

theorem sampleArgs_same : SameValues sampleRegistry.self sampleRegistration sampleArgs where
  owner := by decide
  manifestCid := by decide
  parentCid := by decide
  policyFlags := rfl
  chainId := rfl
  nonce := rfl
  verifyingContract := by decide

theorem registerContent_digests_sample :
    ∃ payload, buildRegisterContentTypedData sampleArgs = .ok payload ∧
      payload.digest keccak256 = some (sampleRegistration.digest sampleRegistry) ∧
      (verifiedTypedData sampleArgs).digest keccak256 =
        some (sampleRegistration.digest sampleRegistry) := by
  have hbuilt := (buildRegisterContentTypedData_ok sampleArgs _).mpr
    ⟨by decide, by decide, by decide, rfl⟩
  exact ⟨_, hbuilt,
    (registerContent_digests sampleRegistry sampleRegistration sampleArgs sampleArgs_same).1 _ hbuilt⟩

end Agreement

end Aevia.RegisterContent
