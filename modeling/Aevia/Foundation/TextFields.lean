import Aevia.Foundation.Bytes
import Mathlib.Data.List.TakeWhile

/-!
# Fields of a text

A text is trimmed by dropping white space, whose characters may take several bytes,
from either end, and is cut once at a separator. Bytes that no white space has stay.
-/

set_option autoImplicit false

namespace Aevia.TextFields
open Aevia.Bytes

def whiteSpaces : List Bytes :=
  [[9], [10], [11], [12], [13], [32], [0xC2, 0x85], [0xC2, 0xA0], [0xE1, 0x9A, 0x80],
    [0xE2, 0x80, 0x80], [0xE2, 0x80, 0x81], [0xE2, 0x80, 0x82], [0xE2, 0x80, 0x83],
    [0xE2, 0x80, 0x84], [0xE2, 0x80, 0x85], [0xE2, 0x80, 0x86], [0xE2, 0x80, 0x87],
    [0xE2, 0x80, 0x88], [0xE2, 0x80, 0x89], [0xE2, 0x80, 0x8A], [0xE2, 0x80, 0xA8],
    [0xE2, 0x80, 0xA9], [0xE2, 0x80, 0xAF], [0xE2, 0x81, 0x9F], [0xE3, 0x80, 0x80]]

def dropWords (words : List Bytes) : ℕ → Bytes → Bytes
  | 0, s => s
  | rounds+1, s =>
    match words.find? (fun w => w.isPrefixOf s) with
    | some w => dropWords words rounds (s.drop w.length)
    | none => s

def trimLeft (words : List Bytes) (s : Bytes) : Bytes := dropWords words s.length s

def trimRight (words : List Bytes) (s : Bytes) : Bytes :=
  (trimLeft (words.map List.reverse) s.reverse).reverse

def trimSpace (s : Bytes) : Bytes := trimRight whiteSpaces (trimLeft whiteSpaces s)

def splitN2 (sep : UInt8) (s : Bytes) : List Bytes :=
  match s.dropWhile (fun c => c ≠ sep) with
  | [] => [s]
  | _::rest => [s.takeWhile (fun c => c ≠ sep), rest]

section Trim
variable (words : List Bytes)

theorem dropWords_suffix (rounds : ℕ) (s : Bytes) : dropWords words rounds s <:+ s := by
  induction rounds generalizing s with
  | zero => exact List.suffix_refl s
  | succ rounds ih =>
    rw [dropWords]
    split
    · exact (ih _).trans (List.drop_suffix _ s)
    · exact List.suffix_refl s

theorem trimRight_prefix (s : Bytes) : trimRight words s <+: s := by
  rw [trimRight, ← List.reverse_suffix, List.reverse_reverse]
  exact dropWords_suffix _ _ _

theorem mem_dropWords (c : UInt8) (hc : ∀ w ∈ words, c ∉ w) (rounds : ℕ) (s : Bytes) (h : c ∈ s) :
    c ∈ dropWords words rounds s := by
  induction rounds generalizing s with
  | zero => exact h
  | succ rounds ih =>
    rw [dropWords]
    split
    · rename_i w hw
      have hpre : w.isPrefixOf s = true := by simpa using List.find?_some hw
      obtain ⟨rest, rfl⟩ := List.isPrefixOf_iff_prefix.mp hpre
      rw [List.drop_left]
      refine ih rest ?_
      exact (List.mem_append.mp h).resolve_left (hc w (List.mem_of_find?_eq_some hw))
    · exact h

theorem mem_trimSpace (c : UInt8) (hc : ∀ w ∈ whiteSpaces, c ∉ w) (s : Bytes) (h : c ∈ s) :
    c ∈ trimSpace s := by
  have hreversed : ∀ w ∈ whiteSpaces.map List.reverse, c ∉ w := by
    intro w hw
    obtain ⟨v, hv, rfl⟩ := List.mem_map.mp hw
    rw [List.mem_reverse]
    exact hc v hv
  rw [trimSpace, trimRight, List.mem_reverse]
  refine mem_dropWords _ c hreversed _ _ ?_
  rw [List.mem_reverse]
  exact mem_dropWords _ c hc _ _ h

theorem trimSpace_prefix (c : UInt8) (hc : ∀ w ∈ whiteSpaces, c ∉ w ∧ w ≠ []) (s : Bytes) :
    trimSpace (c::s) <+: c::s := by
  have hleft : trimLeft whiteSpaces (c::s) = c::s := by
    have hnone : whiteSpaces.find? (fun w => w.isPrefixOf (c::s)) = none := by
      refine List.find?_eq_none.mpr (fun w hw hpre => ?_)
      obtain ⟨b, v, rfl⟩ := List.exists_cons_of_ne_nil (hc w hw).2
      obtain ⟨rfl, -⟩ := List.cons_prefix_cons.mp (List.isPrefixOf_iff_prefix.mp hpre)
      exact (hc _ hw).1 List.mem_cons_self
    rw [trimLeft, List.length_cons, dropWords, hnone]
  rw [trimSpace, hleft]
  exact trimRight_prefix _ _

theorem dropWords_disjoint (rounds : ℕ) (s : Bytes) (h : ∀ w ∈ words, w ≠ [] ∧ ∀ c ∈ w, c ∉ s) :
    dropWords words rounds s = s := by
  cases rounds with
  | zero => rfl
  | succ rounds =>
    have hnone : words.find? (fun w => w.isPrefixOf s) = none := by
      apply List.find?_eq_none.mpr
      intro w hw hpre
      obtain ⟨hne, hout⟩ := h w hw
      obtain ⟨b, v, rfl⟩ := List.exists_cons_of_ne_nil hne
      obtain ⟨rest, rfl⟩ := List.isPrefixOf_iff_prefix.mp hpre
      exact hout b List.mem_cons_self (by simp)
    rw [dropWords, hnone]

theorem trimSpace_disjoint (s : Bytes) (h : ∀ w ∈ whiteSpaces, w ≠ [] ∧ ∀ c ∈ w, c ∉ s) :
    trimSpace s = s := by
  have hreversed : ∀ w ∈ whiteSpaces.map List.reverse, w ≠ [] ∧ ∀ c ∈ w, c ∉ s.reverse := by
    intro w hw
    obtain ⟨v, hv, rfl⟩ := List.mem_map.mp hw
    obtain ⟨hne, hout⟩ := h v hv
    refine ⟨fun hnil => hne (List.reverse_eq_nil_iff.mp hnil), fun c hc => ?_⟩
    rw [List.mem_reverse] at hc ⊢
    exact hout c hc
  have hleft : trimLeft whiteSpaces s = s := dropWords_disjoint whiteSpaces _ s h
  have hright : trimLeft (whiteSpaces.map List.reverse) s.reverse = s.reverse :=
    dropWords_disjoint _ _ _ hreversed
  rw [trimSpace, hleft, trimRight, hright, List.reverse_reverse]

end Trim

section Split

theorem splitN2_splitOn (sep : UInt8) (s : Bytes) :
    (splitN2 sep s = [s] ∧ s.splitOn sep = [s]) ∨
      ∃ first rest, splitN2 sep s = [first, rest] ∧ s.splitOn sep = first::rest.splitOn sep := by
  by_cases h : sep ∈ s
  · right
    obtain ⟨first, rest, rfl, hfirst⟩ := List.eq_append_cons_of_mem h
    have hne : ∀ c ∈ first, decide (c ≠ sep) = true := by
      intro c hc
      rw [decide_eq_true_eq]
      rintro rfl
      exact hfirst hc
    refine ⟨first, rest, ?_, List.splitOn_append_cons_self_of_not_mem hfirst rest⟩
    rw [splitN2, List.dropWhile_append_of_pos hne, List.dropWhile_cons_of_neg (by simp),
      List.takeWhile_append_of_pos hne, List.takeWhile_cons_of_neg (by simp), List.append_nil]
  · left
    have hall : s.dropWhile (fun c => decide (c ≠ sep)) = [] := by
      refine List.dropWhile_eq_nil_iff.mpr (fun c hc => ?_)
      rw [decide_eq_true_eq]
      rintro rfl
      exact h hc
    exact ⟨by rw [splitN2, hall],List.splitOn_eq_singleton h⟩

theorem splitOn_singleton (sep : UInt8) (s field : Bytes) (h : s.splitOn sep = [field]) :
    field = s ∧ sep ∉ s := by
  have hnot : sep ∉ s := by
    intro hmem
    obtain ⟨first, rest, rfl, hfirst⟩ := List.eq_append_cons_of_mem hmem
    rw [List.splitOn_append_cons_self_of_not_mem hfirst] at h
    exact List.splitOn_ne_nil sep rest (List.cons.inj h).2
  rw [List.splitOn_eq_singleton hnot] at h
  exact ⟨(List.cons.inj h).1.symm,hnot⟩

end Split

end Aevia.TextFields
