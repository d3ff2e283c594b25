import Aevia.Foundation.Utf8

/-!
# Texts of JavaScript

A string is its sequence of 16-bit code units, surrogates standing alone or in
pairs. Case is folded on the letters of ASCII, where folding does not depend on
what stands around a unit; a number is written in base sixteen as `toString` does.
-/

set_option autoImplicit false

namespace Aevia.JsText
open Aevia.Bytes

abbrev Text := List UInt16

/-- The code units of a literal without characters beyond ASCII. -/
def js (s : String) : Text := s.toList.map (fun c => UInt16.ofNat c.toNat)

def hexValue (c : UInt16) : Option ℕ :=
  if 48 ≤ c ∧ c ≤ 57 then some (c.toNat-48)
  else if 97 ≤ c ∧ c ≤ 102 then some (c.toNat-87)
  else if 65 ≤ c ∧ c ≤ 70 then some (c.toNat-55)
  else none

def isHexDigit (c : UInt16) : Bool := (hexValue c).isSome

def lowerUnit (c : UInt16) : UInt16 := if 65 ≤ c ∧ c ≤ 90 then c+32 else c

def toLowerCase (s : Text) : Text := s.map lowerUnit

def padStart (width : ℕ) (filler : UInt16) (s : Text) : Text :=
  List.replicate (width-s.length) filler++s

def padEnd (width : ℕ) (filler : UInt16) (s : Text) : Text :=
  s++List.replicate (width-s.length) filler

def digitUnit (d : ℕ) : UInt16 := if d < 10 then UInt16.ofNat (48+d) else UInt16.ofNat (87+d)

/-- `toString(16)` of a number that is a natural one. -/
def toString16 (n : ℕ) : Text :=
  if n = 0 then [48] else ((Nat.digits 16 n).reverse).map digitUnit

def hexText (b : Bytes) : Text := (hexEncode b).map (fun c => UInt16.ofNat c.toNat)

def hexBytes : Text → Option Bytes
  | [] => some []
  | [_] => none
  | high::low::rest => do
    let h ← hexValue high
    let l ← hexValue low
    let bytes ← hexBytes rest
    return UInt8.ofNat (h*16+l)::bytes

/-- `TextEncoder.encode`; a surrogate that stands alone is replaced. -/
def textEncode : Text → Bytes
  | [] => []
  | [u] => Utf8.encodeRune u.toNat
  | u::v::s =>
    if 0xd800 ≤ u ∧ u ≤ 0xdbff ∧ 0xdc00 ≤ v ∧ v ≤ 0xdfff then
      Utf8.encodeRune (0x10000+(u.toNat-0xd800)*1024+(v.toNat-0xdc00))++textEncode s
    else Utf8.encodeRune u.toNat++textEncode (v::s)

def strip0x (s : Text) : Text := if js "0x" <+: s then s.drop 2 else s

section Padding

@[simp] theorem toLowerCase_length (s : Text) : (toLowerCase s).length = s.length :=
  List.length_map _

theorem toLowerCase_append (s t : Text) : toLowerCase (s++t) = toLowerCase s++toLowerCase t :=
  List.map_append

theorem padStart_wide (width : ℕ) (filler : UInt16) (s : Text) (h : width ≤ s.length) :
    padStart width filler s = s := by
  rw [padStart, Nat.sub_eq_zero_of_le h, List.replicate_zero, List.nil_append]

theorem padEnd_get (width i : ℕ) (filler : UInt16) (s : Text) (hi : i < width) :
    (padEnd width filler s)[i]? = some (s.getD i filler) := by
  rw [padEnd, List.getElem?_append]
  by_cases hs : i < s.length
  · rw [if_pos hs, List.getD_eq_getElem?_getD, List.getElem?_eq_getElem hs, Option.getD_some]
  · rw [if_neg hs, List.getElem?_replicate_of_lt (by omega), List.getD_eq_getElem?_getD,
      List.getElem?_eq_none (by omega), Option.getD_none]

end Padding

section Numbers

theorem digitUnit_inj : ∀ d < 16, ∀ e < 16, digitUnit d = digitUnit e → d = e := by decide

theorem map_digitUnit_inj (ds es : List ℕ) (hds : ∀ d ∈ ds, d < 16) (hes : ∀ e ∈ es, e < 16)
    (h : ds.map digitUnit = es.map digitUnit) : ds = es := by
  induction ds generalizing es with
  | nil => exact (List.map_eq_nil_iff.mp h.symm).symm
  | cons d ds ih =>
    cases es with
    | nil => cases h
    | cons e es =>
      obtain ⟨hd, hds⟩ := List.forall_mem_cons.mp hds
      obtain ⟨he, hes⟩ := List.forall_mem_cons.mp hes
      obtain ⟨hhead, htail⟩ := List.cons.inj h
      rw [digitUnit_inj d hd e he hhead, ih es hds hes htail]

theorem padStart_toString16 (width n : ℕ) :
    ∃ ds : List ℕ, (∀ d ∈ ds, d < 16) ∧ Nat.ofDigits 16 ds.reverse = n ∧
      padStart width 48 (toString16 n) = ds.map digitUnit := by
  by_cases hn : n = 0
  · subst hn
    refine ⟨List.replicate (width-1) 0++[0], ?_, ?_, ?_⟩
    · intro d hd
      rcases List.mem_append.mp hd with hd | hd
      · rw [List.eq_of_mem_replicate hd]
        decide
      · rw [List.mem_singleton.mp hd]
        decide
    · simp [Nat.ofDigits_cons, Nat.ofDigits_replicate_zero]
    · simp [padStart, toString16, digitUnit]
  · refine ⟨List.replicate (width-(toString16 n).length) 0++(Nat.digits 16 n).reverse, ?_, ?_, ?_⟩
    · intro d hd
      rcases List.mem_append.mp hd with hd | hd
      · rw [List.eq_of_mem_replicate hd]
        decide
      · exact Nat.digits_lt_base (by decide) (List.mem_reverse.mp hd)
    · simp [Nat.ofDigits_append, Nat.ofDigits_replicate_zero, Nat.ofDigits_digits]
    · simp [padStart, toString16, hn, digitUnit]

theorem padStart_toString16_inj (width m n : ℕ)
    (h : padStart width 48 (toString16 m) = padStart width 48 (toString16 n)) : m = n := by
  obtain ⟨ds, hds, hm, hds'⟩ := padStart_toString16 width m
  obtain ⟨es, hes, hn, hes'⟩ := padStart_toString16 width n
  rw [hds', hes'] at h
  rw [← hm, ← hn, map_digitUnit_inj ds es hds hes h]

end Numbers

end Aevia.JsText
