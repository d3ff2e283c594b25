import Aevia.Foundation.GoError
import Aevia.Foundation.Keccak
import Aevia.Foundation.TextFields
import Aevia.Provider.Manifest

/-!
# Signatures of offers

A wallet signs an offer behind a prefix that carries its length in decimals, so that two
offers are never the same text to sign. The address that a signature recovers to is
compared with the one at the end of a DID.
-/

set_option autoImplicit false

namespace Aevia.Whip
open Aevia.Bytes Aevia.Keccak Aevia.TextFields

section Messages

def eip191Prefix : Bytes := 0x19::ascii "Ethereum Signed Message:\n"

def eip191 (message : Bytes) : Bytes := eip191Prefix++decimal message.length++message

theorem decimal_length_mono (m n : ℕ) (h : m ≤ n) : (decimal m).length ≤ (decimal n).length := by
  by_cases hm : m = 0
  · rw [hm]
    exact List.length_pos_iff.mpr (decimal_ne_nil n)
  · have hn : n ≠ 0 := by omega
    unfold decimal
    rw [if_neg hm, if_neg hn, List.length_map, List.length_map, List.length_reverse,
      List.length_reverse]
    exact Nat.le_length_digits_le 10 m n h

theorem eip191_inj (m n : Bytes) (h : eip191 m = eip191 n) : m = n := by
  have hrest : decimal m.length++m = decimal n.length++n := by
    unfold eip191 at h
    rw [List.append_assoc, List.append_assoc, List.append_right_inj] at h
    exact h
  have hlength : m.length = n.length := by
    have hsum := congrArg List.length hrest
    rw [List.length_append, List.length_append] at hsum
    have hle := decimal_length_mono m.length n.length
    have hge := decimal_length_mono n.length m.length
    omega
  rw [hlength] at hrest
  exact List.append_cancel_left hrest

end Messages

section Recovery

def errBadSignature : GoError := .new "whip: signature must be 65 bytes (r||s||v)"

def errDIDMismatch : GoError := .new "whip: recovered address does not match DID"

/-- `v` as the curve wants it. -/
def normalise (signature : Bytes) : Bytes :=
  if 27 ≤ signature.getD 64 0 then signature.set 64 (signature.getD 64 0-27) else signature

def addressOf (pub : Bytes) : Bytes := ascii "0x"++hexEncode ((keccak256 (pub.drop 1)).drop 12)

-- What the curve gives for a hash and a signature.
variable (ecrecover : Bytes → Bytes → Except GoError Bytes)

def recoverEIP191 (message signature : Bytes) : Except GoError Bytes :=
  if signature.length ≠ 65 then .error errBadSignature
  else match ecrecover (keccak256 (eip191 message)) (normalise signature) with
    | .error e => .error (.wrap "whip: recover pubkey: %w" [] e)
    | .ok pub => .ok (addressOf pub)

def lowerByte (c : UInt8) : UInt8 := if 65 ≤ c ∧ c ≤ 90 then c+32 else c

/-- `strings.ToLower` on ASCII. No other letter is lowered or folded to a hex digit, so a
comparison with a recovered address comes out as it does with all of Unicode; only the text
of a mismatch would show such a letter lowered. -/
def toLower (s : Bytes) : Bytes := s.map lowerByte

def addressFromDID (did : Bytes) : Except GoError Bytes :=
  let parts := did.splitOn 58
  if parts.length < 2 then .error (.errorf "whip: malformed DID %q" [.text did])
  else
    let tail := parts.getLastD []
    if (ascii "0x").isPrefixOf tail = false ∨ tail.length ≠ 42 then
      .error (.errorf "whip: DID tail is not a 20-byte address: %q" [.text tail])
    else .ok (toLower tail)

/-- A fold of case is a comparison of the lower-case forms. -/
def verifySignatureForDID (did message signature : Bytes) : Except GoError Unit := do
  let recovered ← recoverEIP191 ecrecover message signature
  let claimed ← addressFromDID did
  if toLower recovered ≠ toLower claimed then
    .error (.wrap "%w: recovered=%s claimed=%s" [.text recovered, .text claimed] errDIDMismatch)
  else .ok ()

def trimPrefix (pre s : Bytes) : Bytes := if pre.isPrefixOf s then s.drop pre.length else s

def parseHexSignature (s : Bytes) : Except GoError Bytes :=
  let s := trimPrefix (ascii "0x") (trimSpace s)
  if s.length ≠ 130 then
    .error (.wrap "%w: got %d hex chars, want 130" [.int s.length] errBadSignature)
  else Manifests.hexDecodeString s

end Recovery

section Lower

theorem lowerByte_idem (c : UInt8) : lowerByte (lowerByte c) = lowerByte c := by
  have hall : ∀ c : Fin 256, lowerByte (lowerByte (UInt8.ofNat c.val)) =
      lowerByte (UInt8.ofNat c.val) := by decide +kernel
  have h := hall ⟨c.toNat, c.toNat_lt⟩
  simp only [UInt8.ofNat_toNat] at h
  exact h

@[simp] theorem toLower_idem (s : Bytes) : toLower (toLower s) = toLower s := by
  unfold toLower
  rw [List.map_map]
  exact List.map_congr_left (fun c _ => lowerByte_idem c)

theorem lowerByte_hexDigit : ∀ d < 16, lowerByte (hexDigit d) = hexDigit d := by decide

theorem toLower_hexEncode (b : Bytes) : toLower (hexEncode b) = hexEncode b := by
  induction b with
  | nil => rfl
  | cons x b ih =>
    have hx := x.toNat_lt
    rw [hexEncode, toLower, List.map_cons, List.map_cons]
    change lowerByte _::lowerByte _::toLower (hexEncode b) = _
    rw [ih, lowerByte_hexDigit _ (by omega), lowerByte_hexDigit _ (by omega)]

@[simp] theorem toLower_addressOf (pub : Bytes) : toLower (addressOf pub) = addressOf pub := by
  have happend : toLower (addressOf pub) =
      toLower (ascii "0x")++toLower (hexEncode ((keccak256 (pub.drop 1)).drop 12)) :=
    List.map_append
  rw [happend, toLower_hexEncode]
  rfl

theorem addressFromDID_lower (did address : Bytes) (h : addressFromDID did = .ok address) :
    toLower address = address := by
  simp only [addressFromDID, Fallible.guard_ok, Except.ok.injEq] at h
  obtain ⟨-, -, rfl⟩ := h
  exact toLower_idem _

end Lower

end Aevia.Whip
