import Aevia.Foundation.Abi
import Aevia.Foundation.Fallible
import Aevia.Foundation.GoError

/-!
# Calldata of a settlement

The hand-written encoder for `submitSettlement`, and the contract's reading of
what it produces.
-/

set_option autoImplicit false

namespace Aevia.Por
open Aevia.Abi Aevia.Bytes Aevia.Fallible

abbrev Address := { b : Bytes // b.length = 20 }

def zeroAddress : Address := ⟨List.replicate 20 0, by simp⟩

/-- First bytes of the hash of
`submitSettlement(bytes32,address[],uint256[],uint256)`. -/
def submitSettlementSelector : Bytes := [0x48, 0xdb, 0x47, 0x1d]

def errSliceBounds : GoError := .new "runtime error: slice bounds out of range"

/-- Values above 256 bits do not fit the word and panic. -/
def uint256Word (v : ℕ) : Except GoError Bytes :=
  if v < 2^256 then .ok (word v) else .error errSliceBounds

def padAddress (addr : Address) : Bytes := List.replicate 12 0++addr.val

/-- Head and tails. A slice is far too short for the offsets to wrap. -/
def encodeSubmitSettlement (merkleRoot : Bytes) (providers : List Address)
    (bytesServed : List UInt64) (totalRewards : Option ℤ) : Except GoError Bytes :=
  if providers.length ≠ bytesServed.length then
    .error (.errorf "por: providers/bytesServed length mismatch: %d vs %d"
      [.int providers.length, .int bytesServed.length])
  else match totalRewards with
  | none => .error (.new "por: totalRewards is nil")
  | some totalRewards =>
    if totalRewards < 0 then .error (.new "por: totalRewards cannot be negative")
    else do
      let providersTailSize := wordSize+wordSize*providers.length
      let offsetProviders := 4*wordSize
      let offsetBytes := offsetProviders+providersTailSize
      let providersWord ← uint256Word offsetProviders
      let bytesWord ← uint256Word offsetBytes
      let rewardsWord ← uint256Word totalRewards.toNat
      let providersLength ← uint256Word providers.length
      let bytesLength ← uint256Word bytesServed.length
      .ok (submitSettlementSelector++merkleRoot++providersWord++bytesWord++rewardsWord++
        (providersLength++(providers.map padAddress).flatten)++
        (bytesLength++(bytesServed.map (fun b => word b.toNat)).flatten))

structure SettlementCall where
  merkleRoot : Bytes
  providers : List Bytes
  bytesServed : List ℕ
  totalRewards : ℕ
  deriving DecidableEq

/-- How the contract reads its calldata: an address must leave the upper bytes
of its word clear. -/
def decodeSubmitSettlement (calldata : Bytes) : Option SettlementCall :=
  if calldata.take 4 ≠ submitSettlementSelector then none
  else do
    let args := calldata.drop 4
    let merkleRoot ← wordAt args 0
    let offsetProviders ← natAt args wordSize
    let offsetBytes ← natAt args (2*wordSize)
    let totalRewards ← natAt args (3*wordSize)
    let providers ← arrayAt args offsetProviders
    let bytesServed ← arrayAt args offsetBytes
    if providers.all (fun w => w.take 12 = List.replicate 12 0) then
      some ⟨merkleRoot, providers.map (List.drop 12), bytesServed.map ofBigEndian, totalRewards⟩
    else none

theorem uint256Word_ok (v : ℕ) (w : Bytes) :
    uint256Word v = .ok w ↔ v < 2^256 ∧ w = word v := by
  unfold uint256Word
  rw [require_ok, Except.ok.injEq, eq_comm (a := word v)]

def settlementArgs (merkleRoot : Bytes) (providers bytesServed : List Bytes) (rewards : ℕ) :
    Bytes :=
  merkleRoot++word (4*wordSize)++word (4*wordSize+(wordSize+wordSize*providers.length))++
    word rewards++(word providers.length++providers.flatten)++
    (word bytesServed.length++bytesServed.flatten)

theorem flatten_length (ws : List Bytes) (h : ∀ w ∈ ws, w.length = wordSize) :
    ws.flatten.length = wordSize*ws.length := by
  induction ws with
  | nil => rfl
  | cons w ws ih =>
    rw [List.flatten_cons, List.length_append, h w List.mem_cons_self,
      ih (fun v hv => h v (List.mem_cons_of_mem _ hv)), List.length_cons]
    ring

section Args
variable (merkleRoot : Bytes) (providers bytesServed : List Bytes) (rewards : ℕ)
  (hroot : merkleRoot.length = wordSize)

include hroot in
theorem merkleRoot_at :
    wordAt (settlementArgs merkleRoot providers bytesServed rewards) 0 = some merkleRoot := by
  have h := wordAt_append [] merkleRoot (word (4*wordSize)++
    word (4*wordSize+(wordSize+wordSize*providers.length))++word rewards++
    (word providers.length++providers.flatten)++(word bytesServed.length++bytesServed.flatten)) hroot
  rw [List.length_nil] at h
  simp only [List.nil_append, List.append_assoc] at h
  simp only [settlementArgs, List.append_assoc, h]

include hroot in
theorem offsetProviders_at :
    natAt (settlementArgs merkleRoot providers bytesServed rewards) wordSize =
      some (4*wordSize) := by
  have h := natAt_append merkleRoot (word (4*wordSize+(wordSize+wordSize*providers.length))++
    word rewards++(word providers.length++providers.flatten)++
    (word bytesServed.length++bytesServed.flatten)) (4*wordSize) (by norm_num [wordSize])
  rw [hroot] at h
  simp only [List.append_assoc] at h
  simp only [settlementArgs, List.append_assoc, h]

include hroot in
theorem offsetBytes_at (hoffset : 4*wordSize+(wordSize+wordSize*providers.length) < 2^256) :
    natAt (settlementArgs merkleRoot providers bytesServed rewards) (2*wordSize) =
      some (4*wordSize+(wordSize+wordSize*providers.length)) := by
  have h := natAt_append (merkleRoot++word (4*wordSize)) (word rewards++
    (word providers.length++providers.flatten)++(word bytesServed.length++bytesServed.flatten)) _
    hoffset
  have hlen : (merkleRoot++word (4*wordSize)).length = 2*wordSize := by
    simp only [List.length_append, word_length, hroot]
    ring
  rw [hlen] at h
  simp only [List.append_assoc] at h
  simp only [settlementArgs, List.append_assoc, h]

include hroot in
theorem totalRewards_at (hrewards : rewards < 2^256) :
    natAt (settlementArgs merkleRoot providers bytesServed rewards) (3*wordSize) =
      some rewards := by
  have h := natAt_append (merkleRoot++word (4*wordSize)++
    word (4*wordSize+(wordSize+wordSize*providers.length)))
    ((word providers.length++providers.flatten)++(word bytesServed.length++bytesServed.flatten)) _
    hrewards
  have hlen : (merkleRoot++word (4*wordSize)++
      word (4*wordSize+(wordSize+wordSize*providers.length))).length = 3*wordSize := by
    simp only [List.length_append, word_length, hroot]
    ring
  rw [hlen] at h
  simp only [List.append_assoc] at h
  simp only [settlementArgs, List.append_assoc, h]

theorem head_length (hroot : merkleRoot.length = wordSize) : (merkleRoot++word (4*wordSize)++
    word (4*wordSize+(wordSize+wordSize*providers.length))++word rewards).length = 4*wordSize := by
  simp only [List.length_append, word_length, hroot]
  ring

variable (hproviders : ∀ w ∈ providers, w.length = wordSize)

include hroot hproviders

theorem providers_at (hlen : providers.length < 2^256) :
    arrayAt (settlementArgs merkleRoot providers bytesServed rewards) (4*wordSize) =
      some providers := by
  have h := arrayAt_append (merkleRoot++word (4*wordSize)++
    word (4*wordSize+(wordSize+wordSize*providers.length))++word rewards)
    (word bytesServed.length++bytesServed.flatten) providers hproviders hlen
  rw [head_length merkleRoot providers rewards hroot] at h
  simp only [List.append_assoc] at h
  simp only [settlementArgs, List.append_assoc, h]

theorem bytesServed_at (hbytes : ∀ w ∈ bytesServed, w.length = wordSize)
    (hlen : bytesServed.length < 2^256) :
    arrayAt (settlementArgs merkleRoot providers bytesServed rewards)
      (4*wordSize+(wordSize+wordSize*providers.length)) = some bytesServed := by
  have h := arrayAt_append (merkleRoot++word (4*wordSize)++
    word (4*wordSize+(wordSize+wordSize*providers.length))++word rewards++
    (word providers.length++providers.flatten)) [] bytesServed hbytes hlen
  rw [List.length_append, head_length merkleRoot providers rewards hroot, List.length_append,
    word_length, flatten_length providers hproviders, List.append_nil] at h
  simp only [List.append_assoc] at h
  simp only [settlementArgs, List.append_assoc, h]

theorem decodeSubmitSettlement_args (hlen : providers.length < 2^256)
    (hclear : providers.all (fun w => w.take 12 = List.replicate 12 0) = true)
    (hbytes : ∀ w ∈ bytesServed, w.length = wordSize) (hlen' : bytesServed.length < 2^256)
    (hoffset : 4*wordSize+(wordSize+wordSize*providers.length) < 2^256)
    (hrewards : rewards < 2^256) :
    decodeSubmitSettlement (submitSettlementSelector++
      settlementArgs merkleRoot providers bytesServed rewards) =
      some ⟨merkleRoot, providers.map (List.drop 12), bytesServed.map ofBigEndian, rewards⟩ := by
  have htake : (submitSettlementSelector++
      settlementArgs merkleRoot providers bytesServed rewards).take 4 = submitSettlementSelector := rfl
  have hdrop : (submitSettlementSelector++
      settlementArgs merkleRoot providers bytesServed rewards).drop 4 =
        settlementArgs merkleRoot providers bytesServed rewards := rfl
  unfold decodeSubmitSettlement
  rw [if_neg (not_not.mpr htake), hdrop]
  simp only [merkleRoot_at merkleRoot providers bytesServed rewards hroot,
    offsetProviders_at merkleRoot providers bytesServed rewards hroot,
    offsetBytes_at merkleRoot providers bytesServed rewards hroot hoffset,
    totalRewards_at merkleRoot providers bytesServed rewards hroot hrewards,
    providers_at merkleRoot providers bytesServed rewards hroot hproviders hlen,
    bytesServed_at merkleRoot providers bytesServed rewards hroot hproviders hbytes hlen',
    Option.bind_eq_bind, Option.bind_some, hclear, if_true]

end Args

theorem encodeSubmitSettlement_fits (merkleRoot : Bytes) (providers : List Address)
    (bytesServed : List UInt64) (rewards : ℤ) (hlen : providers.length = bytesServed.length)
    (hnonneg : 0 ≤ rewards) (hrewards : rewards < 2^256) (hcount : providers.length ≤ 2^160) :
    ∃ calldata, encodeSubmitSettlement merkleRoot providers bytesServed (some rewards) =
      .ok calldata := by
  unfold encodeSubmitSettlement
  simp only [guard_ok, bind_ok, uint256Word_ok, wordSize]
  exact ⟨_,not_not.mpr hlen,by omega,_,⟨by norm_num,rfl⟩,_,⟨by omega,rfl⟩,_,⟨by omega,rfl⟩,_,
    ⟨by omega,rfl⟩,_,⟨by omega,rfl⟩,rfl⟩

theorem encodeSubmitSettlement_ok (merkleRoot : Bytes) (providers : List Address)
    (bytesServed : List UInt64) (totalRewards : Option ℤ) (calldata : Bytes)
    (h : encodeSubmitSettlement merkleRoot providers bytesServed totalRewards = .ok calldata) :
    providers.length = bytesServed.length ∧ ∃ rewards, totalRewards = some rewards ∧
      rewards.toNat < 2^256 ∧ 4*wordSize+(wordSize+wordSize*providers.length) < 2^256 ∧
      calldata = submitSettlementSelector++settlementArgs merkleRoot (providers.map padAddress)
        (bytesServed.map (fun b => word b.toNat)) rewards.toNat := by
  unfold encodeSubmitSettlement at h
  rw [guard_ok] at h
  obtain ⟨hlen, h⟩ := h
  cases totalRewards with
  | none => cases h
  | some rewards =>
    simp only [guard_ok, bind_ok, uint256Word_ok, Except.ok.injEq] at h
    obtain ⟨-, w1, ⟨-, h1⟩, w2, ⟨hoffset, h2⟩, w3, ⟨hrewards, h3⟩, w4, ⟨-, h4⟩, w5, ⟨-, h5⟩,
      hcalldata⟩ := h
    refine ⟨not_not.mp hlen, rewards, rfl, hrewards, hoffset, ?_⟩
    rw [← hcalldata, h1, h2, h3, h4, h5]
    simp only [settlementArgs, List.length_map, List.append_assoc]

theorem padAddress_words (providers : List Address) :
    ∀ w ∈ providers.map padAddress, w.length = wordSize := by
  intro w hw
  obtain ⟨addr, -, rfl⟩ := List.mem_map.mp hw
  rw [padAddress, List.length_append, List.length_replicate, addr.property]
  rfl

theorem uint64_words (bytesServed : List UInt64) :
    ∀ w ∈ bytesServed.map (fun b => word b.toNat), w.length = wordSize := by
  intro w hw
  obtain ⟨b, -, rfl⟩ := List.mem_map.mp hw
  exact word_length _

theorem decodeSubmitSettlement_encode (merkleRoot : Bytes) (providers : List Address)
    (bytesServed : List UInt64) (totalRewards : Option ℤ) (calldata : Bytes)
    (hroot : merkleRoot.length = wordSize)
    (h : encodeSubmitSettlement merkleRoot providers bytesServed totalRewards = .ok calldata) :
    ∃ rewards, totalRewards = some rewards ∧ decodeSubmitSettlement calldata =
      some ⟨merkleRoot, providers.map Subtype.val, bytesServed.map UInt64.toNat, rewards.toNat⟩ := by
  obtain ⟨hlen, rewards, hsome, hrewards, hoffset, hargs⟩ :=
    encodeSubmitSettlement_ok merkleRoot providers bytesServed totalRewards calldata h
  have hcount : providers.length < 2^256 :=
    lt_of_le_of_lt (by rw [wordSize]; omega) hoffset
  have hclear : (providers.map padAddress).all (fun w => w.take 12 = List.replicate 12 0) =
      true := by
    refine List.all_eq_true.mpr (fun w hw => ?_)
    obtain ⟨addr, -, rfl⟩ := List.mem_map.mp hw
    simp [padAddress]
  have hpadded : (providers.map padAddress).length = providers.length := List.length_map _
  have hwords : (bytesServed.map (fun b => word b.toNat)).length = providers.length := by
    rw [List.length_map, hlen]
  have hdecode := decodeSubmitSettlement_args merkleRoot (providers.map padAddress)
    (bytesServed.map (fun b => word b.toNat)) rewards.toNat hroot (padAddress_words providers)
    (hpadded.symm ▸ hcount) hclear (uint64_words bytesServed) (hwords.symm ▸ hcount)
    (hpadded.symm ▸ hoffset) hrewards
  refine ⟨rewards, hsome, ?_⟩
  rw [hargs, hdecode, List.map_map, List.map_map]
  have hdrop : List.drop 12 ∘ padAddress = Subtype.val := by
    funext addr
    simp [padAddress]
  have hword : (ofBigEndian ∘ fun b : UInt64 => word b.toNat) = UInt64.toNat := by
    funext b
    have hb : b.toNat < 2^256 := b.toNat_lt.trans (by norm_num)
    rw [Function.comp_apply, ofBigEndian_word b.toNat hb]
  rw [hdrop, hword]

theorem settlementArgs_length (merkleRoot : Bytes) (providers bytesServed : List Bytes)
    (rewards : ℕ) (hroot : merkleRoot.length = wordSize)
    (hproviders : ∀ w ∈ providers, w.length = wordSize)
    (hbytes : ∀ w ∈ bytesServed, w.length = wordSize) :
    (settlementArgs merkleRoot providers bytesServed rewards).length =
      wordSize*(6+providers.length+bytesServed.length) := by
  simp only [settlementArgs, List.length_append, word_length, hroot,
    flatten_length providers hproviders, flatten_length bytesServed hbytes]
  ring

/-- Arrays of one length and any reward of 256 bits come back from the calldata,
which is as long as its words. A slice is no longer than an `int` can say. -/
theorem encodeSubmitSettlement_roundTrip (merkleRoot : Bytes) (providers : List Address)
    (bytesServed : List UInt64) (totalRewards : ℕ) (hroot : merkleRoot.length = wordSize)
    (hlen : providers.length = bytesServed.length) (hrewards : totalRewards < 2^256)
    (hslice : 4+wordSize*(6+2*providers.length) < 2^63) :
    ∃ calldata, encodeSubmitSettlement merkleRoot providers bytesServed (some totalRewards) =
      .ok calldata ∧
    decodeSubmitSettlement calldata =
      some ⟨merkleRoot, providers.map Subtype.val, bytesServed.map UInt64.toNat, totalRewards⟩ ∧
    calldata.length = 4+wordSize*(6+2*providers.length) := by
  obtain ⟨calldata, h⟩ := encodeSubmitSettlement_fits merkleRoot providers bytesServed totalRewards
    hlen (Int.natCast_nonneg _) (by exact_mod_cast hrewards) (by rw [wordSize] at hslice; omega)
  obtain ⟨rewards, hsome, hdecode⟩ :=
    decodeSubmitSettlement_encode merkleRoot providers bytesServed _ calldata hroot h
  obtain rfl : (totalRewards : ℤ) = rewards := Option.some.inj hsome
  refine ⟨calldata, h, hdecode, ?_⟩
  obtain ⟨-, rewards, -, -, -, hargs⟩ :=
    encodeSubmitSettlement_ok merkleRoot providers bytesServed _ calldata h
  rw [hargs, List.length_append, settlementArgs_length _ _ _ _ hroot (padAddress_words providers)
    (uint64_words bytesServed), List.length_map, List.length_map, ← hlen, two_mul, Nat.add_assoc]
  rfl

def samplePayees : List Address :=
  [⟨List.replicate 19 0++[9], rfl⟩, ⟨List.replicate 20 255, rfl⟩]

/-- Two providers with amounts of one and of eight bytes, and the largest reward. -/
theorem encodeSubmitSettlement_roundTrip_two :
    ∃ calldata, encodeSubmitSettlement (List.replicate 32 7) samplePayees
      [9, 18446744073709551615] (some (2^256-1)) = .ok calldata ∧
    decodeSubmitSettlement calldata = some ⟨List.replicate 32 7, samplePayees.map Subtype.val,
      [9, 18446744073709551615], 2^256-1⟩ ∧
    calldata.length = 324 := by
  obtain ⟨calldata, hencode, hdecode, hlength⟩ := encodeSubmitSettlement_roundTrip
    (List.replicate 32 7) samplePayees [9, 18446744073709551615] (2^256-1) (by decide) rfl
    (by norm_num) (by norm_num [wordSize, samplePayees])
  refine ⟨calldata, by exact_mod_cast hencode, ?_, ?_⟩
  · rw [hdecode]
    rfl
  · rw [hlength]
    rfl

end Aevia.Por
