import Mathlib.Data.List.Sort
import Mathlib.Data.List.Count
import Mathlib.Data.List.GetD
import Mathlib.Order.Defs.LinearOrder

/-!
# Quantiles by rank

The value of rank `r` in a list has fewer than `r` values below it and at least
`r` that are at most it. Taken at the truncated share of the length it covers the
exact share only where nothing was truncated or the next rank has the same value.
-/

set_option autoImplicit false

namespace Aevia.Quantiles

variable {α : Type*} [LinearOrder α]

def below (xs : List α) (v : α) : ℕ := xs.countP (fun x => x < v)
def atMost (xs : List α) (v : α) : ℕ := xs.countP (fun x => x ≤ v)

def Ties (xs : List α) (r : ℕ) : Prop := ∃ v, below xs v < r ∧ r < atMost xs v

theorem below_perm (xs ys : List α) (h : xs.Perm ys) (v : α) : below xs v = below ys v :=
  h.countP_eq _

theorem atMost_perm (xs ys : List α) (h : xs.Perm ys) (v : α) : atMost xs v = atMost ys v :=
  h.countP_eq _

theorem ties_perm (xs ys : List α) (h : xs.Perm ys) (r : ℕ) : Ties xs r ↔ Ties ys r := by
  simp only [Ties, below_perm xs ys h, atMost_perm xs ys h]

theorem atMost_mono (xs : List α) (v w : α) (h : v ≤ w) : atMost xs v ≤ atMost xs w := by
  refine List.countP_mono_left (fun x _ hx => ?_)
  rw [decide_eq_true_eq] at hx ⊢
  exact hx.trans h

omit [LinearOrder α] in
theorem exists_split (s : List α) (i : ℕ) (hi : i < s.length) (zero : α) :
    ∃ front back, s = front++s.getD i zero::back ∧ front.length = i := by
  refine ⟨s.take i, s.drop (i+1), ?_, List.length_take_of_le hi.le⟩
  rw [List.getD_eq_getElem s zero hi, List.getElem_cons_drop, List.take_append_drop]

section Sorted
variable (front : List α) (v : α) (back : List α)
  (hsorted : (front++v::back).Pairwise (fun x y => x ≤ y))

include hsorted

theorem below_split : below (front++v::back) v ≤ front.length := by
  obtain ⟨-, hback, -⟩ := List.pairwise_append.mp hsorted
  have hnone : (v::back).countP (fun x => decide (x < v)) = 0 := by
    rw [List.countP_eq_zero]
    intro x hx
    rw [decide_eq_true_eq, not_lt]
    rcases List.mem_cons.mp hx with rfl | hx
    · exact le_rfl
    · exact (List.pairwise_cons.mp hback).1 x hx
  rw [below, List.countP_append, hnone, Nat.add_zero]
  exact List.countP_le_length

theorem atMost_split (w : α) (h : v ≤ w) : front.length < atMost (front++v::back) w := by
  obtain ⟨-, -, hfront⟩ := List.pairwise_append.mp hsorted
  have hall : front.countP (fun x => decide (x ≤ w)) = front.length := by
    rw [List.countP_eq_length]
    intro x hx
    rw [decide_eq_true_eq]
    exact (hfront x hx v List.mem_cons_self).trans h
  rw [atMost, List.countP_append, hall, List.countP_cons_of_pos (by rwa [decide_eq_true_eq])]
  omega

theorem ties_split : Ties (front++v::back) (front.length+1) ↔
    front.length+1 < atMost (front++v::back) v := by
  constructor
  · rintro ⟨w, hbelow, hatMost⟩
    refine hatMost.trans_le (atMost_mono _ _ _ ?_)
    by_contra hlt
    rw [not_le] at hlt
    -- The front and `v` would be below `w`.
    have hall : (front++[v]).countP (fun x => decide (x < w)) = (front++[v]).length := by
      rw [List.countP_eq_length]
      intro x hx
      rw [decide_eq_true_eq]
      rcases List.mem_append.mp hx with hx | hx
      · obtain ⟨-, -, hfront⟩ := List.pairwise_append.mp hsorted
        exact (hfront x hx v List.mem_cons_self).trans_lt hlt
      · rwa [List.mem_singleton.mp hx]
    rw [below, List.append_cons front v back, List.countP_append, hall, List.length_append,
      List.length_singleton] at hbelow
    omega
  · exact fun h => ⟨v, Nat.lt_succ_of_le (below_split front v back hsorted), h⟩

/-- The value whose rank is the truncated share covers the share if and only if
nothing was truncated or the ranks tie. -/
theorem share_split (p q total : ℕ) (hrank : front.length+1 = p*total/q) :
    p*total ≤ q*atMost (front++v::back) v ↔ q ∣ p*total ∨ Ties (front++v::back) (p*total/q) := by
  have hatMost := atMost_split front v back hsorted v le_rfl
  have hq : 0 < q := by
    by_contra hzero
    rw [Nat.eq_zero_of_not_pos hzero, Nat.div_zero] at hrank
    omega
  have hparts := Nat.div_add_mod (p*total) q
  rw [← hrank, ties_split front v back hsorted, Nat.dvd_iff_mod_eq_zero]
  rw [← hrank] at hparts
  constructor
  · intro hle
    by_contra hneither
    obtain ⟨hmod, htie⟩ := not_or.mp hneither
    have heq : atMost (front++v::back) v = front.length+1 := by omega
    rw [heq] at hle
    omega
  · rintro (hmod | htie)
    · calc p*total = q*(front.length+1) := by omega
        _ ≤ q*atMost (front++v::back) v := Nat.mul_le_mul_left q hatMost
    · calc p*total ≤ q*(front.length+1+1) := by
            have hlt := Nat.mod_lt (p*total) hq
            rw [Nat.mul_succ]
            omega
        _ ≤ q*atMost (front++v::back) v := Nat.mul_le_mul_left q htie

end Sorted

end Aevia.Quantiles
