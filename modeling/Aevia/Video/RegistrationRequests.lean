import Aevia.Contracts.ContentRegistry
import Aevia.Foundation.Json
import Aevia.Video.MetaUpdates

/-!
# Requests to register a live input

The bodies that the two routes take, who owns a live input, and what the routes
answer. A field of a body is there if it has the type that the route asks for.
-/

set_option autoImplicit false

namespace Aevia.Lives
open Aevia.Bytes Aevia.Evm

def lowerByte (c : UInt8) : UInt8 := if 65 ≤ c ∧ c ≤ 90 then c+32 else c

def toLowerCase (text : Bytes) : Bytes := text.map lowerByte

def isHexDigit (c : UInt8) : Bool := (hexValue c).isSome

/-- `0x` and as many hexadecimal digits. -/
def isHex (digits : ℕ) (text : Bytes) : Bool :=
  text.length = digits+2 ∧ text.take 2 = ascii "0x" ∧ (text.drop 2).all isHexDigit

/-- `0x` and at least one hexadecimal digit. -/
def isSignatureHex (text : Bytes) : Bool :=
  2 < text.length ∧ text.take 2 = ascii "0x" ∧ (text.drop 2).all isHexDigit

def hexNumber (text : Bytes) : ℕ := ofBigEndian ((hexDecode (text.drop 2)).getD [])

structure Response where
  status : ℕ
  body : List (Bytes × Json)

def failure (status : ℕ) (error : Bytes) (more : List (Bytes × Json)) : Response :=
  ⟨status,(ascii "error", .str error)::more⟩

def unauthorized : Response := failure 401 (ascii "unauthorized") []
def forbidden : Response := failure 403 (ascii "forbidden") []
def manifestAlreadySet : Response := failure 409 (ascii "manifestCid already set for this live") []

section Relayed

/-- A number is any finite one. -/
structure RelayedBody where
  owner : Option Bytes
  manifestCid : Option Bytes
  parentCid : Option Bytes
  policyFlags : Option ℚ
  signature : Option Bytes

structure RelayedRequest where
  owner : Bytes
  manifestCid : Bytes
  parentCid : Bytes
  policyFlags : ℚ
  signature : Bytes
  deriving DecidableEq

/-- A body that is missing or no object has no fields to look at. -/
def parseBody (raw : Option RelayedBody) : Except Bytes RelayedRequest :=
  match raw with
  | none => .error (ascii "invalid_payload")
  | some b =>
    let owner := b.owner.getD []
    let manifestCid := b.manifestCid.getD []
    let parentCid := b.parentCid.getD []
    let signature := b.signature.getD []
    let policyFlags := b.policyFlags.getD (-1)
    if isHex 40 owner = false then .error (ascii "invalid_payload: owner")
    else if isHex 64 manifestCid = false then .error (ascii "invalid_payload: manifestCid")
    else if isHex 64 parentCid = false then .error (ascii "invalid_payload: parentCid")
    else if isSignatureHex signature = false ∨ signature.length < 2+2*65 then
      .error (ascii "invalid_payload: signature")
    else if policyFlags < 0 ∨ 0xff < policyFlags then .error (ascii "invalid_payload: policyFlags")
    else if policyFlags.floor.toNat &&& 0x80 ≠ 0 then
      .error (ascii "invalid_payload: reserved policy bit")
    else .ok ⟨toLowerCase owner,toLowerCase manifestCid,toLowerCase parentCid,policyFlags,signature⟩

theorem parseBody_manifestCid (raw : Option RelayedBody) (request : RelayedRequest)
    (h : parseBody raw = .ok request) : request.manifestCid ≠ [] := by
  cases raw with
  | none => cases h
  | some b =>
    simp only [parseBody, Fallible.guard_ok, Except.ok.injEq, Bool.not_eq_false] at h
    obtain ⟨-, hmanifest, -, -, -, -, hrequest⟩ := h
    have hlength : (b.manifestCid.getD []).length = 66 := by
      simp only [isHex, decide_eq_true_eq] at hmanifest
      exact hmanifest.1
    intro hnil
    rw [← hrequest] at hnil
    have hnil : toLowerCase (b.manifestCid.getD []) = [] := hnil
    rw [toLowerCase, List.map_eq_nil_iff] at hnil
    rw [hnil] at hlength
    cases hlength

end Relayed

section Register

/-- `registerBlock` is the number as it is printed, which is there if it is
finite and not negative. -/
structure RegisterBody where
  manifestCid : Option Bytes
  registerTxHash : Option Bytes
  registerBlock : Option Bytes
  sponsored : Bool

def normaliseRegistrationMeta (body : RegisterBody) : Except Bytes RegistrationMeta :=
  let manifestCid := toLowerCase (body.manifestCid.getD [])
  let txHash := toLowerCase (body.registerTxHash.getD [])
  if isHex 64 manifestCid = false then .error (ascii "invalid manifestCid")
  else if isHex 64 txHash = false then .error (ascii "invalid registerTxHash")
  else match body.registerBlock with
    | none => .error (ascii "invalid registerBlock")
    | some block => .ok ⟨manifestCid,txHash,block,body.sponsored⟩

theorem normaliseRegistrationMeta_manifestCid (body : RegisterBody) (registration : RegistrationMeta)
    (h : normaliseRegistrationMeta body = .ok registration) : registration.manifestCid ≠ [] := by
  simp only [normaliseRegistrationMeta, Fallible.guard_ok, Bool.not_eq_false] at h
  obtain ⟨hmanifest, -, hblock⟩ := h
  cases hbody : body.registerBlock with
  | none =>
    rw [hbody] at hblock
    cases hblock
  | some block =>
    rw [hbody, Except.ok.injEq] at hblock
    intro hnil
    rw [← hblock] at hnil
    have hnil : toLowerCase (body.manifestCid.getD []) = [] := hnil
    rw [hnil] at hmanifest
    simp [isHex] at hmanifest

end Register

section Ownership

def keyCreatorAddress : Bytes := ascii "creatorAddress"

def owned (live : LiveInput) (sessionAddress : Bytes) : Bool :=
  let me := toLowerCase sessionAddress
  (live.metaOf keyCreatorAddress).map toLowerCase = some me ∨
    live.defaultCreator.map toLowerCase = some me

/-- An absent entry is as good as an empty one. -/
def LiveInput.manifestCid (live : LiveInput) : Bytes := (live.metaOf keyManifestCid).getD []

def conflicting (live : LiveInput) (manifestCid : Bytes) : Bool :=
  live.manifestCid ≠ [] ∧ live.manifestCid ≠ manifestCid

def persistRegistrationMeta (live : LiveInput) (registration : RegistrationMeta) : LiveInput :=
  live.put (putBody live (registrationPatch registration))

@[simp] theorem persistRegistrationMeta_manifestCid (live : LiveInput)
    (registration : RegistrationMeta) :
    (persistRegistrationMeta live registration).manifestCid = registration.manifestCid := by
  have hpatch : (registrationPatch registration).metaOf keyManifestCid =
      some registration.manifestCid := by
    simp [registrationPatch, LivePatch.metaOf, object]
  show (MergeWrite.merge live.metaOf (registrationPatch registration).metaOf keyManifestCid).getD [] = _
  rw [MergeWrite.merge_patched _ _ _ _ hpatch]
  rfl

end Ownership

end Aevia.Lives
