import Mathlib.Algebra.BigOperators.Group.Finset.Basic
import Mathlib.Algebra.BigOperators.Group.Finset.Piecewise
import Mathlib.Algebra.Order.BigOperators.Group.Finset
import Mathlib.Algebra.Ring.Nat
import Mathlib.Data.Fintype.BigOperators

/-!
# Apportioning a reward over keyed entries

A list of keyed entries is written into a table in order, so a later entry for
a key replaces an earlier one. Truncating division hands out at most the whole
reward, and what is replaced is not handed out at all.
-/

set_option autoImplicit false

namespace Aevia.Apportion

variable {α : Type*}

/-- The truncated share of each entry in a reward `R` over a total weight `B`. -/
def shares (R B : ℕ) (es : List (α × ℕ)) : List (α × ℕ) :=
  es.map (fun e => (e.1, R*e.2/B))

@[simp] theorem shares_keys (R B : ℕ) (es : List (α × ℕ)) :
    (shares R B es).map Prod.fst = es.map Prod.fst := by
  simp [shares, Function.comp_def]

theorem shares_sum_le (R B : ℕ) (es : List (α × ℕ)) :
    ((shares R B es).map Prod.snd).sum ≤ R*(es.map Prod.snd).sum/B := by
  induction es with
  | nil => simp [shares]
  | cons e es ih =>
    simp only [shares, List.map_cons, List.sum_cons, Nat.mul_add] at *
    exact (Nat.add_le_add_left ih _).trans Nat.div_add_div_le_add_div

variable [DecidableEq α]

/-- Entries are written in order; a later entry for a key replaces an earlier one. -/
def assign : List (α × ℕ) → (α → ℕ) → (α → ℕ)
  | [], f => f
  | e::es, f => assign es (Function.update f e.1 e.2)

def lastTotal : List (α × ℕ) → ℕ
  | [] => 0
  | e::es => (if e.1 ∈ es.map Prod.fst then 0 else e.2) + lastTotal es

theorem assign_unwritten (es : List (α × ℕ)) (f : α → ℕ) (a : α)
    (ha : a ∉ es.map Prod.fst) : assign es f a = f a := by
  induction es generalizing f with
  | nil => rfl
  | cons e es ih =>
    obtain ⟨hae,hes⟩ := not_or.mp (fun h => ha (List.mem_cons.mpr h))
    rw [assign, ih _ hes, Function.update_of_ne hae]

theorem assign_written (es : List (α × ℕ)) (f g : α → ℕ) (a : α)
    (ha : a ∈ es.map Prod.fst) : assign es f a = assign es g a := by
  induction es generalizing f g with
  | nil => simp at ha
  | cons e es ih =>
    by_cases hes : a ∈ es.map Prod.fst
    · exact ih _ _ hes
    · have hae : a = e.1 := by simpa [hes] using ha
      rw [assign, assign, assign_unwritten es _ a hes, assign_unwritten es _ a hes, hae,
        Function.update_self, Function.update_self]

theorem assign_nodup (es : List (α × ℕ)) (f : α → ℕ) (h : (es.map Prod.fst).Nodup)
    (e : α × ℕ) (he : e ∈ es) : assign es f e.1 = e.2 := by
  induction es generalizing f with
  | nil => cases he
  | cons d es ih =>
    rw [List.map_cons, List.nodup_cons] at h
    by_cases hd : e = d
    · rw [hd, assign, assign_unwritten es _ _ h.1, Function.update_self]
    · exact ih _ h.2 ((List.mem_cons.mp he).resolve_left hd)

theorem assign_le (es : List (α × ℕ)) (f : α → ℕ) (a : α) :
    assign es f a ≤ f a+assign es 0 a := by
  by_cases ha : a ∈ es.map Prod.fst
  · rw [assign_written es f 0 a ha]
    exact Nat.le_add_left _ _
  · rw [assign_unwritten es f a ha]
    exact Nat.le_add_right _ _

theorem lastTotal_le (es : List (α × ℕ)) : lastTotal es ≤ (es.map Prod.snd).sum := by
  induction es with
  | nil => simp [lastTotal]
  | cons e es ih =>
    simp only [lastTotal, List.map_cons, List.sum_cons]
    split <;> omega

def keyTotal (es : List (α × ℕ)) (a : α) : ℕ :=
  (es.map (fun e => if e.1 = a then e.2 else 0)).sum

theorem keyTotal_cons (e : α × ℕ) (es : List (α × ℕ)) (a : α) :
    keyTotal (e::es) a = (if e.1 = a then e.2 else 0)+keyTotal es a := by
  rw [keyTotal, List.map_cons, List.sum_cons]
  rfl

theorem keyTotal_absent (es : List (α × ℕ)) (a : α) (ha : a ∉ es.map Prod.fst) :
    keyTotal es a = 0 := by
  induction es with
  | nil => rfl
  | cons e es ih =>
    obtain ⟨hae,hes⟩ := not_or.mp (fun h => ha (List.mem_cons.mpr h))
    rw [keyTotal_cons, if_neg (Ne.symm hae), ih hes]

/-- Entries that are replaced later are worth nothing. -/
def Unreplaced (es : List (α × ℕ)) : Prop := es.Pairwise (fun e e' => e.1 = e'.1 → e.2 = 0)

theorem assign_le_keyTotal (es : List (α × ℕ)) (f : α → ℕ) (a : α) (ha : a ∈ es.map Prod.fst) :
    assign es f a ≤ keyTotal es a := by
  induction es generalizing f with
  | nil => cases ha
  | cons e es ih =>
    rw [assign, keyTotal_cons]
    by_cases hes : a ∈ es.map Prod.fst
    · exact (ih _ hes).trans (Nat.le_add_left _ _)
    · have hae : a = e.1 := (List.mem_cons.mp ha).resolve_right hes
      rw [assign_unwritten es _ a hes, hae, Function.update_self, if_pos rfl]
      exact Nat.le_add_right _ _

theorem assign_eq_keyTotal (es : List (α × ℕ)) (f : α → ℕ) (a : α) :
    assign es f a = keyTotal es a ↔
      es.Pairwise (fun e e' => e.1 = a → e'.1 = a → e.2 = 0) ∧ (a ∉ es.map Prod.fst → f a = 0) := by
  induction es generalizing f with
  | nil => simp [assign, keyTotal]
  | cons e es ih =>
    rw [assign, keyTotal_cons, List.pairwise_cons, List.map_cons, List.mem_cons, not_or]
    by_cases hes : a ∈ es.map Prod.fst
    · -- a later entry replaces this one
      have hlater : ∃ e' ∈ es, e'.1 = a := List.mem_map.mp hes
      have hrest := ih f
      have hle := assign_le_keyTotal es f a hes
      rw [assign_written es _ f a hes]
      simp only [hes, not_true_eq_false, false_imp_iff, and_true, and_false] at hrest ⊢
      rw [← hrest]
      constructor
      · intro h
        refine ⟨?_, by omega⟩
        intro e' _ hea _
        rw [if_pos hea] at h
        omega
      · rintro ⟨hzero, heq⟩
        obtain ⟨e', he', hea'⟩ := hlater
        have hnone : (if e.1 = a then e.2 else 0) = 0 := by
          split_ifs with hea
          · exact hzero e' he' hea hea'
          · rfl
        omega
    · have hfree : es.Pairwise (fun e e' => e.1 = a → e'.1 = a → e.2 = 0) :=
        List.pairwise_iff_forall_sublist.mpr (fun {d d'} hsub hd _ =>
          (hes (List.mem_map.mpr ⟨d,hsub.subset (by simp),hd⟩)).elim)
      have hnot : ∀ e' ∈ es, e'.1 ≠ a := fun e' he' h => hes (List.mem_map.mpr ⟨e',he',h⟩)
      rw [assign_unwritten es _ a hes, keyTotal_absent es a hes, Nat.add_zero]
      by_cases hea : e.1 = a
      · rw [if_pos hea, ← hea, Function.update_self]
        simp only [true_iff, not_true_eq_false, false_and, false_imp_iff, and_true]
        exact ⟨fun e' he' _ h => (hnot e' he' (h.trans hea)).elim,hea ▸ hfree⟩
      · rw [if_neg hea, Function.update_of_ne (Ne.symm hea)]
        simp only [Ne.symm hea, hes, not_false_eq_true, and_self, true_imp_iff]
        exact ⟨fun h => ⟨⟨fun _ _ h' => (hea h').elim,hfree⟩,h⟩,fun h => h.2⟩

/-- Every key finds its sum if and only if nothing of worth is replaced and the
keys that are not written have nothing. -/
theorem assign_eq_keyTotals (es : List (α × ℕ)) (f : α → ℕ) :
    (∀ a, assign es f a = keyTotal es a) ↔
      Unreplaced es ∧ ∀ a, a ∉ es.map Prod.fst → f a = 0 := by
  simp only [assign_eq_keyTotal, forall_and]
  refine and_congr_left (fun _ => ?_)
  rw [Unreplaced, List.pairwise_iff_forall_sublist]
  simp only [List.pairwise_iff_forall_sublist]
  constructor
  · intro h e e' hsub heq
    exact h e.1 hsub rfl heq.symm
  · intro h a e e' hsub he he'
    exact h hsub (he.trans he'.symm)

omit [DecidableEq α] in
theorem shares_sum_gt (R B : ℕ) (es : List (α × ℕ)) (hB : 0 < B) :
    R*(es.map Prod.snd).sum+es.length ≤ (((shares R B es).map Prod.snd).sum+es.length)*B := by
  induction es with
  | nil => simp
  | cons e es ih =>
    simp only [shares, List.map_cons, List.sum_cons, List.length_cons] at *
    have hone : R*e.2 < R*e.2/B*B+B := Nat.lt_div_mul_add hB
    simp only [Nat.mul_add, Nat.add_mul, Nat.one_mul] at *
    omega

omit [DecidableEq α] in
theorem shares_dust (R : ℕ) (es : List (α × ℕ)) (hB : 0 < (es.map Prod.snd).sum) :
    R < ((shares R (es.map Prod.snd).sum es).map Prod.snd).sum+es.length := by
  have h := shares_sum_gt R _ es hB
  have hpos : 0 < es.length := by
    cases es with
    | nil => simp at hB
    | cons e es => simp
  by_contra hle
  have hmul := Nat.mul_le_mul_right (es.map Prod.snd).sum (not_lt.mp hle)
  omega

section Total
variable [Fintype α]

theorem sum_keyTotal (es : List (α × ℕ)) : ∑ a, keyTotal es a = (es.map Prod.snd).sum := by
  induction es with
  | nil => simp [keyTotal]
  | cons e es ih =>
    simp only [keyTotal_cons, Finset.sum_add_distrib, ih, List.map_cons, List.sum_cons]
    simp

theorem sum_update (f : α → ℕ) (a : α) (n : ℕ) :
    (∑ b, Function.update f a n b)+f a = (∑ b, f b)+n := by
  have hu := Finset.sum_update_of_mem (Finset.mem_univ a) f n
  have hf := Finset.add_sum_erase Finset.univ f (Finset.mem_univ a)
  rw [Finset.sdiff_singleton_eq_erase] at hu
  omega

theorem sum_assign_from (es : List (α × ℕ)) (f : α → ℕ) (hf : ∀ a ∈ es.map Prod.fst, f a = 0) :
    ∑ a, assign es f a = (∑ a, f a)+lastTotal es := by
  induction es generalizing f with
  | nil => simp [assign, lastTotal]
  | cons e es ih =>
    have hfe : f e.1 = 0 := hf e.1 (by simp)
    have hkeep : ∀ a ∈ es.map Prod.fst, f a = 0 := fun a ha => hf a (List.mem_cons_of_mem _ ha)
    have hu := sum_update f e.1 e.2
    by_cases hm : e.1 ∈ es.map Prod.fst
    · -- The entry is replaced later, so it may as well never have been written.
      have hskip : assign es (Function.update f e.1 e.2) = assign es f := by
        funext a
        by_cases ha : a ∈ es.map Prod.fst
        · exact assign_written es _ _ a ha
        · have hne : a ≠ e.1 := fun h => ha (h ▸ hm)
          rw [assign_unwritten es _ a ha, assign_unwritten es _ a ha, Function.update_of_ne hne]
      rw [assign, hskip, ih f hkeep, lastTotal, if_pos hm, Nat.zero_add]
    · have hclear : ∀ a ∈ es.map Prod.fst, Function.update f e.1 e.2 a = 0 := by
        intro a ha
        have hne : a ≠ e.1 := fun h => hm (h ▸ ha)
        rw [Function.update_of_ne hne, hkeep a ha]
      rw [assign, ih _ hclear, lastTotal, if_neg hm]
      omega

theorem sum_assign (es : List (α × ℕ)) : ∑ a, assign es 0 a = lastTotal es := by
  simpa using sum_assign_from es 0 (fun _ _ => rfl)

end Total

theorem lastTotal_shares_le (R : ℕ) (es : List (α × ℕ)) :
    lastTotal (shares R (es.map Prod.snd).sum es) ≤ R := by
  have h := (lastTotal_le _).trans (shares_sum_le R (es.map Prod.snd).sum es)
  exact h.trans (Nat.div_le_of_le_mul (le_of_eq (Nat.mul_comm _ _)))

end Aevia.Apportion
