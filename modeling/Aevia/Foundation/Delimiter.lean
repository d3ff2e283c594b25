import Mathlib.Data.List.Infix

/-!
# Delimiters of several symbols

A delimiter none of whose proper suffixes is a prefix of it cannot overlap
itself. Where it follows a piece that does not contain it, its first occurrence
is the one that was put there, whatever the piece ends with.
-/

set_option autoImplicit false

namespace Aevia.Delimiter

variable {α : Type*}

/-- No proper suffix is a prefix. -/
def Unbordered (d : List α) : Prop := ∀ k, 0 < k → k < d.length → ¬ d.drop k <+: d

/-- The delimiter starts at `i`, and nowhere before. -/
def FirstAt (d l : List α) (i : ℕ) : Prop := d <+: l.drop i ∧ ∀ j < i, ¬ d <+: l.drop j

theorem FirstAt.unique (d l : List α) (i j : ℕ) (hi : FirstAt d l i) (hj : FirstAt d l j) :
    i = j := by
  rcases Nat.lt_trichotomy i j with hlt | heq | hgt
  · exact absurd hi.1 (hj.2 i hlt)
  · exact heq
  · exact absurd hj.1 (hi.2 j hgt)

theorem infix_of_drop (d a : List α) (i : ℕ) (h : d <+: a.drop i) : d <:+: a :=
  h.isInfix.trans (List.drop_suffix i a).isInfix

theorem firstAt_append (d a b : List α) (hd : Unbordered d) (ha : ¬ d <:+: a) :
    FirstAt d (a++d++b) a.length := by
  refine ⟨?_, ?_⟩
  · rw [List.append_assoc, List.drop_left]
    exact List.prefix_append d b
  · intro i hi hpre
    have hrest : (a++d++b).drop i = a.drop i++(d++b) := by
      rw [List.append_assoc, List.drop_append_of_le_length hi.le]
    rw [hrest] at hpre
    have htail : (a.drop i).length = a.length-i := List.length_drop
    rcases Nat.lt_or_ge (a.drop i).length d.length with hshort | hlong
    · -- it starts in the piece and ends in the delimiter behind it
      have hinner : a.drop i <+: d :=
        List.prefix_of_prefix_length_le (List.prefix_append _ _) hpre hshort.le
      obtain ⟨s, hs⟩ := hinner
      have hdrop : d.drop (a.drop i).length = s := by
        conv_lhs => rw [← hs]
        exact List.drop_left
      have hsuffix : s <+: d := by
        rw [← hs, List.prefix_append_right_inj] at hpre
        refine List.prefix_of_prefix_length_le hpre ?_ ?_
        · rw [hs]
          exact List.prefix_append d b
        · have hlen := congrArg List.length hs
          rw [List.length_append] at hlen
          omega
      exact hd (a.drop i).length (by omega) hshort (hdrop ▸ hsuffix)
    · -- it lies in the piece
      exact ha (infix_of_drop d a i
        (List.prefix_of_prefix_length_le hpre (List.prefix_append _ _) hlong))

end Aevia.Delimiter
