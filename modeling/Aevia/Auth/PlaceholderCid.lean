import Aevia.Foundation.JsText
import Aevia.Foundation.Keccak

/-!
# Placeholder manifest ids

Before a manifest has a content address, its id is the hash of the video's UID, the
owner and the time, each cut or padded to a fixed width. The UID loses everything that
is not a hex digit, its case and what stands behind 64 digits, and its end is padded
with zeros. So two UIDs meet exactly when these digits do.
-/

set_option autoImplicit false

namespace Aevia.RegisterContent
open Aevia.JsText

/-- `0x` and the digits of 20 bytes, in either case. -/
def IsAddress (s : Text) : Prop :=
  ∃ digits : Text, s = js "0x"++digits ∧ digits.length = 40 ∧ ∀ c ∈ digits, isHexDigit c = true

structure PlaceholderArgs where
  videoUid : Text
  owner : Text
  createdAtSeconds : ℕ
  isAddress : IsAddress owner
  isSafeInteger : createdAtSeconds < 2^53

def videoUidToBytes32 (videoUid : Text) : Text :=
  let hex := toLowerCase (videoUid.filter isHexDigit)
  if hex.length ≥ 64 then hex.take 64 else padEnd 64 48 hex

def placeholderData (args : PlaceholderArgs) : Text :=
  let videoHex := videoUidToBytes32 args.videoUid
  let ownerHex := padStart 40 48 (strip0x (toLowerCase args.owner))
  let tsHex := padStart 16 48 (toString16 args.createdAtSeconds)
  js "0x"++videoHex++ownerHex++tsHex

def sprint2PlaceholderManifestCid (keccak256 : Text → Text) (args : PlaceholderArgs) : Text :=
  keccak256 (placeholderData args)

/-- `keccak256` of viem: digits in, digits out. -/
def viemKeccak256 (data : Text) : Text :=
  js "0x"++hexText (Keccak.keccak256 ((hexBytes (strip0x data)).getD []))

/-- A hex digit of a UID in lower case, counted without what is no digit; behind the
last digit there are zeros. -/
def uidDigit (videoUid : Text) (i : ℕ) : UInt16 :=
  (toLowerCase (videoUid.filter isHexDigit)).getD i 48

def SameDigits (u v : Text) : Prop := ∀ i < 64, uidDigit u i = uidDigit v i

section Widths

theorem videoUidToBytes32_length (u : Text) : (videoUidToBytes32 u).length = 64 := by
  simp only [videoUidToBytes32]
  split
  · rename_i hlong
    rw [List.length_take, Nat.min_eq_left hlong]
  · rw [padEnd, List.length_append, List.length_replicate]
    omega

theorem videoUidToBytes32_get (u : Text) (i : ℕ) (hi : i < 64) :
    (videoUidToBytes32 u)[i]? = some (uidDigit u i) := by
  simp only [videoUidToBytes32, uidDigit]
  split
  · rename_i hlong
    rw [List.getElem?_take_of_lt hi, List.getD_eq_getElem?_getD, List.getElem?_eq_getElem (by omega),
      Option.getD_some]
  · exact padEnd_get 64 i 48 _ hi

theorem videoUidToBytes32_eq (u v : Text) :
    videoUidToBytes32 u = videoUidToBytes32 v ↔ SameDigits u v := by
  constructor
  · intro h i hi
    have hget := congrArg (fun t => t[i]?) h
    simp only [videoUidToBytes32_get _ i hi] at hget
    exact Option.some.inj hget
  · intro h
    refine List.ext_getElem? (fun i => ?_)
    by_cases hi : i < 64
    · rw [videoUidToBytes32_get u i hi, videoUidToBytes32_get v i hi, h i hi]
    · rw [List.getElem?_eq_none (by rw [videoUidToBytes32_length]; omega),
        List.getElem?_eq_none (by rw [videoUidToBytes32_length]; omega)]

/-- An address keeps its digits, and loses its `0x`, which comes back in front. -/
theorem owner_digits (owner : Text) (h : IsAddress owner) :
    (padStart 40 48 (strip0x (toLowerCase owner))).length = 40 ∧
      js "0x"++padStart 40 48 (strip0x (toLowerCase owner)) = toLowerCase owner := by
  obtain ⟨digits, rfl, hdigits, -⟩ := h
  have hlower : toLowerCase (js "0x"++digits) = js "0x"++toLowerCase digits := by
    rw [toLowerCase_append]
    rfl
  have hstrip : strip0x (js "0x"++toLowerCase digits) = toLowerCase digits := by
    rw [strip0x, if_pos (List.prefix_append _ _)]
    rfl
  have hlength : (toLowerCase digits).length = 40 := by rw [toLowerCase_length, hdigits]
  rw [hlower, hstrip, padStart_wide 40 48 _ hlength.ge]
  exact ⟨hlength,rfl⟩

theorem placeholderData_eq (a b : PlaceholderArgs) :
    placeholderData a = placeholderData b ↔
      SameDigits a.videoUid b.videoUid ∧ toLowerCase a.owner = toLowerCase b.owner ∧
        a.createdAtSeconds = b.createdAtSeconds := by
  obtain ⟨hwidth, howner⟩ := owner_digits a.owner a.isAddress
  obtain ⟨hwidth', howner'⟩ := owner_digits b.owner b.isAddress
  constructor
  · intro h
    simp only [placeholderData, List.append_assoc, List.append_right_inj] at h
    obtain ⟨hvideo, hrest⟩ :=
      List.append_inj h (by rw [videoUidToBytes32_length, videoUidToBytes32_length])
    obtain ⟨hdigits, htime⟩ := List.append_inj hrest (by rw [hwidth, hwidth'])
    refine ⟨(videoUidToBytes32_eq _ _).mp hvideo, ?_, padStart_toString16_inj 16 _ _ htime⟩
    rw [← howner, ← howner', hdigits]
  · rintro ⟨hvideo, hlower, htime⟩
    simp only [placeholderData]
    rw [(videoUidToBytes32_eq _ _).mpr hvideo, hlower, htime]

end Widths

section Collisions

/-- Two ids are told apart exactly when the UIDs of one owner at one time are told
apart by their digits. -/
theorem sprint2PlaceholderManifestCid_exact (keccak256 : Text → Text) (a b : PlaceholderArgs)
    (hcollision : keccak256 (placeholderData a) = keccak256 (placeholderData b) →
      placeholderData a = placeholderData b) :
    (sprint2PlaceholderManifestCid keccak256 a = sprint2PlaceholderManifestCid keccak256 b →
        a.videoUid = b.videoUid ∧ toLowerCase a.owner = toLowerCase b.owner ∧
          a.createdAtSeconds = b.createdAtSeconds) ↔
      ¬(toLowerCase a.owner = toLowerCase b.owner ∧ a.createdAtSeconds = b.createdAtSeconds ∧
        a.videoUid ≠ b.videoUid ∧ SameDigits a.videoUid b.videoUid) := by
  constructor
  · rintro h ⟨howner, htime, huid, hdigits⟩
    have hdata := (placeholderData_eq a b).mpr ⟨hdigits, howner, htime⟩
    exact huid (h (congrArg keccak256 hdata)).1
  · intro h hequal
    obtain ⟨hdigits, howner, htime⟩ := (placeholderData_eq a b).mp (hcollision hequal)
    refine ⟨?_, howner, htime⟩
    by_contra huid
    exact h ⟨howner, htime, huid, hdigits⟩

def someOwner : Text := js "0xAbCdEf0000000000000000000000000000001234"

theorem someOwner_isAddress : IsAddress someOwner :=
  ⟨js "AbCdEf0000000000000000000000000000001234", by decide, by decide,
    List.all_eq_true.mp (by decide)⟩

def placeholderOf (videoUid : String) : PlaceholderArgs where
  videoUid := js videoUid
  owner := someOwner
  createdAtSeconds := 1776384000
  isAddress := someOwner_isAddress
  isSafeInteger := by decide

theorem sprint2PlaceholderManifestCid_exact_dashes :
    (placeholderOf "dead-beef").videoUid ≠ (placeholderOf "dead-bee1").videoUid ∧
    sprint2PlaceholderManifestCid viemKeccak256 (placeholderOf "dead-beef") ≠
      sprint2PlaceholderManifestCid viemKeccak256 (placeholderOf "dead-bee1") := by
  have hcollision : viemKeccak256 (placeholderData (placeholderOf "dead-beef")) =
      viemKeccak256 (placeholderData (placeholderOf "dead-bee1")) →
      placeholderData (placeholderOf "dead-beef") = placeholderData (placeholderOf "dead-bee1") :=
    fun h => absurd h (by decide +kernel)
  have hdigits : ¬SameDigits (placeholderOf "dead-beef").videoUid (placeholderOf "dead-bee1").videoUid :=
    fun h => absurd (h 7 (by decide)) (by decide)
  have hvideo : (placeholderOf "dead-beef").videoUid ≠ (placeholderOf "dead-bee1").videoUid := by
    decide
  refine ⟨hvideo, fun h => hvideo ?_⟩
  exact ((sprint2PlaceholderManifestCid_exact viemKeccak256 _ _ hcollision).mpr
    (fun hall => hdigits hall.2.2.2) h).1

/-- A letter that is no hex digit, a dash and a closing zero are lost. -/
theorem placeholder_meets :
    sprint2PlaceholderManifestCid viemKeccak256 (placeholderOf "live-1") =
      sprint2PlaceholderManifestCid viemKeccak256 (placeholderOf "live-10") ∧
    (placeholderOf "live-1").videoUid ≠ (placeholderOf "live-10").videoUid := by
  refine ⟨congrArg viemKeccak256 ?_, by decide⟩
  decide

end Collisions

end Aevia.RegisterContent
