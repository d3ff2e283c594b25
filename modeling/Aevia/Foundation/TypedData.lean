import Aevia.Foundation.Abi
import Aevia.Foundation.JsNumber
import Aevia.Foundation.JsText
import Mathlib.Data.Set.Function

/-!
# Typed structured data

What a wallet signs: the hash of a domain separator and of a struct hash,
behind the prefix that keeps it apart from a transaction. A struct is hashed behind its
type, field by field, a word for each. A hash that is injective on the byte strings it
was applied to binds the digest to the separator and the fields.
-/

set_option autoImplicit false

namespace Aevia.TypedData
open Aevia.Bytes Aevia.JsText

variable (hash : Bytes → Bytes)

def message (separator fields : Bytes) : Bytes := [0x19, 0x01]++separator++hash fields

def digest (separator fields : Bytes) : Bytes := hash (message hash separator fields)

theorem digest_inj (hashed : Set Bytes) (hinj : Set.InjOn hash hashed)
    (separator separator' fields fields' : Bytes) (hlen : separator.length = separator'.length)
    (hfields : fields ∈ hashed) (hfields' : fields' ∈ hashed)
    (hmessage : message hash separator fields ∈ hashed)
    (hmessage' : message hash separator' fields' ∈ hashed)
    (h : digest hash separator fields = digest hash separator' fields') :
    separator = separator' ∧ fields = fields' := by
  have hequal := hinj hmessage hmessage' h
  rw [message, message, List.append_assoc, List.append_assoc, List.append_right_inj] at hequal
  obtain ⟨hseparator, hstruct⟩ := List.append_inj hequal hlen
  exact ⟨hseparator,hinj hfields hfields' hstruct⟩

section Structs

inductive FieldType where
  | address
  | bytes32
  | uint (bits : ℕ)
  | string

def FieldType.name : FieldType → Bytes
  | .address => ascii "address"
  | .bytes32 => ascii "bytes32"
  | .uint bits => ascii "uint"++decimal bits
  | .string => ascii "string"

structure Field where
  name : Bytes
  type : FieldType

/-- A value as a program in JavaScript has it; a number that is infinite is `none`. -/
inductive Value where
  | number (x : Option ℚ)
  | bigint (n : ℤ)
  | hex (digits : Text)
  | text (s : Bytes)

abbrev Members := List (Bytes × Value)

def valueOf (data : Members) (name : Bytes) : Option Value :=
  (data.find? (fun f => f.1 == name)).map Prod.snd

def encodeUint (bits : ℕ) (n : ℤ) : Option Bytes :=
  if 0 ≤ n ∧ n < 2^bits then some (Abi.word n.toNat) else none

def encodeHex (size : ℕ) (digits : Text) : Option Bytes := do
  let b ← hexBytes (strip0x digits)
  if b.length = size then some (List.replicate (Abi.wordSize-size) 0++b) else none

def encodeField : FieldType → Value → Option Bytes
  | .address, .hex digits => encodeHex 20 digits
  | .bytes32, .hex digits => encodeHex 32 digits
  | .uint bits, .number (some x) => if x.den = 1 then encodeUint bits x.num else none
  | .uint bits, .bigint n => encodeUint bits n
  | .string, .text s => some (hash s)
  | _, _ => none

def encodeType (name : Bytes) (fields : List Field) : Bytes :=
  name++40::[44].intercalate (fields.map (fun f => f.type.name++32::f.name))++[41]

def encodeData (fields : List Field) (data : Members) : Option Bytes :=
  (fields.mapM (fun f => (valueOf data f.name).bind (encodeField hash f.type))).map List.flatten

def structFields (name : Bytes) (fields : List Field) (data : Members) : Option Bytes :=
  (encodeData hash fields data).map (fun words => hash (encodeType name fields)++words)

structure Payload where
  domain : Members
  types : List (Bytes × List Field)
  primaryType : Bytes
  message : Members

def domainMembers : List Field := [
  ⟨ascii "name", .string⟩, ⟨ascii "version", .string⟩, ⟨ascii "chainId", .uint 256⟩,
  ⟨ascii "verifyingContract", .address⟩, ⟨ascii "salt", .bytes32⟩]

def domainTypes (domain : Members) : List Field :=
  domainMembers.filter (fun f => (valueOf domain f.name).isSome)

def Payload.digest (p : Payload) : Option Bytes := do
  let fields ← (p.types.find? (fun t => t.1 == p.primaryType)).map Prod.snd
  let domain ← structFields hash (ascii "EIP712Domain") (domainTypes p.domain) p.domain
  let struct ← structFields hash p.primaryType fields p.message
  some (TypedData.digest hash (hash domain) struct)

end Structs

section Words

theorem encodeData_words (fields : List Field) (data : Members) (words : List Bytes)
    (h : List.Forall₂ (fun f w => ∃ v, valueOf data f.name = some v ∧
      encodeField hash f.type v = some w) fields words) :
    encodeData hash fields data = some words.flatten := by
  have hwords : fields.mapM (fun f => (valueOf data f.name).bind (encodeField hash f.type)) =
      some words := by
    induction h with
    | nil => rfl
    | cons hfield _ ih =>
      obtain ⟨v, hv, hencode⟩ := hfield
      rw [List.mapM_cons, ih, hv, Option.bind_some, hencode]
      rfl
  rw [encodeData, hwords, Option.map_some]

theorem encodeUint_nat (bits n : ℕ) (hn : n < 2^bits) : encodeUint bits n = some (Abi.word n) := by
  rw [encodeUint, if_pos ⟨Int.natCast_nonneg n, by exact_mod_cast hn⟩, Int.toNat_natCast]

theorem encodeField_number (bits n : ℕ) (hn : n < 2^bits) :
    encodeField hash (.uint bits) (.number (some (n : ℚ))) = some (Abi.word n) := by
  rw [encodeField, if_pos (Rat.den_natCast n), Rat.num_natCast, encodeUint_nat bits n hn]

theorem bigEndian_padded (w k n : ℕ) (hn : n < 256^w) :
    bigEndian (k+w) n = List.replicate k 0++bigEndian w n := by
  have hzeros : ∀ k b, ofBigEndian (List.replicate k 0++b) = ofBigEndian b := by
    intro k b
    induction k with
    | zero => rfl
    | succ k ih => exact ih
  refine ofBigEndian_inj _ _ (by simp) ?_
  rw [hzeros, ofBigEndian_bigEndian, ofBigEndian_bigEndian, Nat.mod_eq_of_lt hn, Nat.mod_eq_of_lt]
  exact hn.trans_le (Nat.pow_le_pow_right (by decide) (by omega))

theorem encodeHex_word (size n : ℕ) (digits : Text) (hsize : size ≤ Abi.wordSize)
    (hn : n < 256^size) (h : hexBytes (strip0x digits) = some (bigEndian size n)) :
    encodeHex size digits = some (Abi.word n) := by
  have hword : Abi.word n = List.replicate (Abi.wordSize-size) 0++bigEndian size n := by
    rw [← bigEndian_padded size (Abi.wordSize-size) n hn, Nat.sub_add_cancel hsize, Abi.word]
  rw [encodeHex, h, hword]
  exact if_pos (bigEndian_length _ _)

end Words

end Aevia.TypedData
