import Aevia.Foundation.JsNumber
import Aevia.Provider.IngestSignature

/-!
# Identifiers of creators

The browser makes a DID from an address and reads the address back; the node reads the
address at the end of a DID. They agree on every DID that the browser makes or reads, and
the node reads some that the browser does not.
-/

set_option autoImplicit false

namespace Aevia.Auth
open Aevia.Bytes Aevia.JsNumber Aevia.Whip

def isHexDigit (c : UInt8) : Bool := (hexValue c).isSome

/-- `/^0x[a-fA-F0-9]{40}$/` -/
def isAddress (address : Bytes) : Bool :=
  (ascii "0x").isPrefixOf address && address.length == 42 && (address.drop 2).all isHexDigit

/-- The chain is written as JavaScript writes a natural number below 10^21. -/
def addressToDid (address : Bytes) (chainId : ℕ) : Except Bytes Bytes :=
  if isAddress address = false then .error (ascii "invalid ethereum address: "++address)
  else .ok (ascii "did:pkh:eip155:"++decimal chainId++ascii ":"++toLower address)

/-- The groups of `/^did:pkh:eip155:(\d+):(0x[a-fA-F0-9]{40})$/`, whose parts have no colon. -/
def matchDid (did : Bytes) : Option (Bytes × Bytes) :=
  match did.splitOn 58 with
  | [scheme, method, space, chain, address] =>
    if scheme = ascii "did" ∧ method = ascii "pkh" ∧ space = ascii "eip155" ∧
        (chain ≠ [] ∧ chain.all isDigit = true) ∧ isAddress address = true then
      some (chain, address)
    else none
  | _ => none

def didToAddress (did : Bytes) : Option Bytes :=
  match matchDid did with
  | none => none
  | some (_, address) => some (toLower address)

/-- The number of the digits; `none` inside for one beyond all doubles. -/
def didChainId (did : Bytes) : Option (Option ℚ) :=
  match matchDid did with
  | none => none
  | some (chain, _) => some (toDouble (ofDecimal chain))

section Agreement

theorem hexDigit_no_colon (c : UInt8) (h : isHexDigit c = true) : c ≠ 58 := by
  rintro rfl
  exact absurd h (by decide)

theorem lowerByte_hex (c : UInt8) (h : isHexDigit c = true) : isHexDigit (lowerByte c) = true := by
  have hall : ∀ c : Fin 256, isHexDigit (UInt8.ofNat c.val) = true →
      isHexDigit (lowerByte (UInt8.ofNat c.val)) = true := by decide +kernel
  have hc := hall ⟨c.toNat, c.toNat_lt⟩
  simp only [UInt8.ofNat_toNat] at hc
  exact hc h

theorem isAddress_iff (address : Bytes) : isAddress address = true ↔
    ∃ digits, address = ascii "0x"++digits ∧ digits.length = 40 ∧ ∀ c ∈ digits, isHexDigit c = true := by
  unfold isAddress
  rw [Bool.and_eq_true, Bool.and_eq_true, List.isPrefixOf_iff_prefix, beq_iff_eq, List.all_eq_true]
  constructor
  · rintro ⟨⟨⟨digits, rfl⟩, hlength⟩, hdigits⟩
    have htwo : (ascii "0x").length = 2 := rfl
    refine ⟨digits, rfl, ?_, hdigits⟩
    rw [List.length_append] at hlength
    omega
  · rintro ⟨digits, rfl, hlength, hdigits⟩
    refine ⟨⟨List.prefix_append _ _, ?_⟩, hdigits⟩
    rw [List.length_append, hlength]
    rfl

theorem isAddress_lower (address : Bytes) (h : isAddress address = true) :
    isAddress (toLower address) = true := by
  obtain ⟨digits, rfl, hlength, hdigits⟩ := (isAddress_iff address).mp h
  apply (isAddress_iff _).mpr
  refine ⟨toLower digits, ?_, ?_, ?_⟩
  · unfold toLower
    rw [List.map_append]
    rfl
  · unfold toLower
    rw [List.length_map, hlength]
  · intro c hc
    obtain ⟨d, hd, rfl⟩ := List.mem_map.mp hc
    exact lowerByte_hex d (hdigits d hd)

theorem isAddress_no_colon (address : Bytes) (h : isAddress address = true) :
    (58 : UInt8) ∉ address := by
  obtain ⟨digits, rfl, -, hdigits⟩ := (isAddress_iff address).mp h
  intro hmem
  rcases List.mem_append.mp hmem with hpre | hdigit
  · exact absurd hpre (by decide)
  · exact hexDigit_no_colon 58 (hdigits 58 hdigit) rfl

theorem addressFromDID_last (did address : Bytes) (parts : List Bytes)
    (hparts : did.splitOn 58 = parts++[address]) (hne : parts ≠ []) (h : isAddress address = true) :
    addressFromDID did = .ok (toLower address) := by
  obtain ⟨digits, rfl, hlength, -⟩ := (isAddress_iff address).mp h
  have hcount : ¬(parts++[ascii "0x"++digits]).length < 2 := by
    have hpos := List.length_pos_iff.mpr hne
    rw [List.length_append, List.length_singleton]
    omega
  have hlast : (parts++[ascii "0x"++digits]).getLastD [] = ascii "0x"++digits := by
    rw [List.getLastD_eq_getLast?, List.getLast?_append_of_ne_nil _ (List.cons_ne_nil _ _)]
    rfl
  have hshape : ¬((ascii "0x").isPrefixOf (ascii "0x"++digits) = false ∨
      (ascii "0x"++digits).length ≠ 42) := by
    have hpre : (ascii "0x").isPrefixOf (ascii "0x"++digits) = true :=
      List.isPrefixOf_iff_prefix.mpr (List.prefix_append _ _)
    rw [hpre, List.length_append, hlength]
    decide
  simp only [addressFromDID, hparts, if_neg hcount, hlast, if_neg hshape]

theorem matchDid_some (did chain address : Bytes) (h : matchDid did = some (chain, address)) :
    did.splitOn 58 = [ascii "did", ascii "pkh", ascii "eip155", chain]++[address] ∧
      isAddress address = true := by
  unfold matchDid at h
  split at h
  · rename_i scheme method space chain' address' hsplit
    split_ifs at h with hall
    obtain ⟨rfl, rfl, rfl, -, haddress⟩ := hall
    cases h
    exact ⟨hsplit,haddress⟩
  · cases h

theorem matchDid_made (address : Bytes) (chainId : ℕ) (h : isAddress address = true) :
    matchDid (ascii "did:pkh:eip155:"++decimal chainId++ascii ":"++address) =
      some (decimal chainId, address) := by
  have hdigits : (decimal chainId).all isDigit = true := List.all_eq_true.mpr (decimal_isDigit chainId)
  have hnumber : (58 : UInt8) ∉ decimal chainId := by
    intro hmem
    exact absurd (decimal_isDigit chainId 58 hmem) (by decide)
  have hjoin : ascii "did:pkh:eip155:"++decimal chainId++ascii ":"++address =
      [58].intercalate [ascii "did", ascii "pkh", ascii "eip155", decimal chainId, address] := by
    simp [ascii, List.intercalate]
  have hfields : ∀ field ∈ [ascii "did", ascii "pkh", ascii "eip155", decimal chainId, address],
      (58 : UInt8) ∉ field := by
    intro field hfield
    simp only [List.mem_cons, List.not_mem_nil, or_false] at hfield
    rcases hfield with rfl | rfl | rfl | rfl | rfl
    · decide
    · decide
    · decide
    · exact hnumber
    · exact isAddress_no_colon _ h
  unfold matchDid
  rw [hjoin, List.splitOn_intercalate 58 hfields (by simp)]
  dsimp only
  rw [if_pos ⟨rfl,rfl,rfl,⟨decimal_ne_nil chainId,hdigits⟩,h⟩]

theorem didToAddress_node (did address : Bytes) (h : didToAddress did = some address) :
    addressFromDID did = .ok address := by
  unfold didToAddress at h
  cases hmatch : matchDid did with
  | none =>
    rw [hmatch] at h
    cases h
  | some groups =>
    obtain ⟨chain, written⟩ := groups
    rw [hmatch] at h
    obtain rfl := Option.some.inj h
    obtain ⟨hsplit, haddress⟩ := matchDid_some did chain written hmatch
    exact addressFromDID_last did written _ hsplit (List.cons_ne_nil _ _) haddress

theorem addressToDid_read (address did : Bytes) (chainId : ℕ) (h : addressToDid address chainId = .ok did) :
    isAddress address = true ∧ matchDid did = some (decimal chainId, toLower address) ∧
      didToAddress did = some (toLower address) := by
  simp only [addressToDid, Fallible.guard_ok, Bool.not_eq_false, Except.ok.injEq] at h
  obtain ⟨haddress, rfl⟩ := h
  have hmatch := matchDid_made (toLower address) chainId (isAddress_lower address haddress)
  refine ⟨haddress, hmatch, ?_⟩
  rw [didToAddress, hmatch]
  dsimp only
  rw [toLower_idem]

/-- A DID that the browser makes from an address is read by the browser as that address on
that chain and by the node as that address, in lower case; and whatever the browser reads
as an address the node reads as the same. -/
theorem did_agreement (did : Bytes) :
    (∀ address chainId, addressToDid address chainId = .ok did → chainId < 2^53 →
      didToAddress did = some (toLower address) ∧ didChainId did = some (some (chainId : ℚ)) ∧
        addressFromDID did = .ok (toLower address)) ∧
    (∀ address, didToAddress did = some address → addressFromDID did = .ok address) := by
  refine ⟨fun address chainId h hchain => ?_, didToAddress_node did⟩
  obtain ⟨-, hmatch, hread⟩ := addressToDid_read address did chainId h
  refine ⟨hread, ?_, didToAddress_node did _ hread⟩
  rw [didChainId, hmatch]
  dsimp only
  rw [ofDecimal_decimal, toDouble_natCast chainId hchain]

section Samples

def sampleAddress : Bytes := ascii "0x07ffbcB245bcD8aA08F8dA75B2AeDE750d5592F0"

def sampleDid : Bytes := ascii "did:pkh:eip155:84532:0x07ffbcb245bcd8aa08f8da75b2aede750d5592f0"

theorem did_agreement_sample : didToAddress sampleDid = some (toLower sampleAddress) ∧
    didChainId sampleDid = some (some ((84532 : ℕ) : ℚ)) ∧
    addressFromDID sampleDid = .ok (toLower sampleAddress) :=
  (did_agreement sampleDid).1 sampleAddress 84532 (by decide +kernel) (by decide)

end Samples

end Agreement

end Aevia.Auth
