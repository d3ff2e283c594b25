import Mathlib.Algebra.BigOperators.Group.List.Basic
import Mathlib.Algebra.Order.Group.Multiset
import Mathlib.Data.List.Basic

/-!
# Totals over members that change one at a time

The sum of a measure over a list of members, in any commutative monoid. If one
member is exchanged for another, the total gains what the other measures and
loses what the one did.
-/

set_option autoImplicit false

namespace Aevia.Totals

variable {α M : Type*} [AddCommMonoid M] (f : α → M)

def total (members : List α) : M := (members.map f).sum

@[simp] theorem total_nil : total f [] = 0 := rfl

theorem total_concat (members : List α) (a : α) : total f (members++[a]) = total f members+f a := by
  simp [total]

theorem total_set (members : List α) (k : ℕ) (a b : α) (h : members[k]? = some a) :
    total f (members.set k b)+f a = total f members+f b := by
  induction members generalizing k with
  | nil => cases h
  | cons c members ih =>
    cases k with
    | zero =>
      obtain rfl : c = a := Option.some.inj h
      simp only [total, List.set_cons_zero, List.map_cons, List.sum_cons]
      rw [add_right_comm, add_comm (f b), add_right_comm]
    | succ k =>
      have htail := ih k h
      simp only [total, List.set_cons_succ, List.map_cons, List.sum_cons] at htail ⊢
      rw [add_assoc, htail, add_assoc]

/-- If a member balances what goes in and out of it, so does the total. -/
theorem total_balance {M : Type*} [AddCancelCommMonoid M] (f : α → M) (members : List α) (k : ℕ)
    (a b : α) (h : members[k]? = some a) (into out received given : M)
    (hmember : f b+out = f a+into) (hall : total f members+given = received) :
    total f (members.set k b)+(given+out) = received+into := by
  apply add_right_cancel (b := f a)
  calc total f (members.set k b)+(given+out)+f a
      = total f (members.set k b)+f a+(given+out) := add_right_comm _ _ _
    _ = total f members+f b+(given+out) := by rw [total_set f members k a b h]
    _ = total f members+given+(f b+out) := add_add_add_comm _ _ _ _
    _ = received+(f a+into) := by rw [hmember, hall]
    _ = received+into+f a := by rw [add_comm (f a), add_assoc]

theorem total_zero (members : List α) (h : ∀ a ∈ members, f a = 0) : total f members = 0 := by
  apply List.sum_eq_zero
  intro m hm
  obtain ⟨a, ha, rfl⟩ := List.mem_map.mp hm
  exact h a ha

theorem mem_total {β : Type*} (f : α → Multiset β) (members : List α) (x : β) :
    x ∈ total f members ↔ ∃ a ∈ members, x ∈ f a := by
  induction members with
  | nil => simp [total]
  | cons a members ih =>
    rw [total, List.map_cons, List.sum_cons, Multiset.mem_add]
    change x ∈ f a ∨ x ∈ total f members ↔ _
    rw [ih]
    simp

end Aevia.Totals
