import Mathlib.Dynamics.PeriodicPts.Defs
import Mathlib.Logic.Function.Iterate

/-!
# Parent pointers without cycles

A parent function with a distinguished root. A node is rooted when following
parents from it ends at the root, and that survives any growth of the forest
outside the nodes already there.
-/

set_option autoImplicit false

namespace Aevia.Forest

variable {α : Type*}

/-- Following parents from the node ends at the root. -/
inductive Rooted (parent : α → α) (root : α) : α → Prop where
  | root : Rooted parent root root
  | child (a : α) : Rooted parent root (parent a) → Rooted parent root a

theorem Rooted.iterate (parent : α → α) (root a : α) (h : Rooted parent root a) :
    ∃ n, parent^[n] a = root := by
  induction h with
  | root => exact ⟨0,rfl⟩
  | child a h ih =>
    obtain ⟨n, hn⟩ := ih
    exact ⟨n+1,hn⟩

theorem Rooted.top (parent : α → α) (root a : α) (h : Rooted parent root a) (ha : a ≠ root) :
    ∃ n, parent^[n] a ≠ root ∧ parent (parent^[n] a) = root := by
  induction h with
  | root => exact (ha rfl).elim
  | child a h ih =>
    by_cases hp : parent a = root
    · exact ⟨0,ha,hp⟩
    · obtain ⟨n, hne, htop⟩ := ih hp
      exact ⟨n+1,hne,htop⟩

theorem Rooted.acyclic (parent : α → α) (root a : α) (hroot : parent root = root)
    (h : Rooted parent root a) (ha : a ≠ root) (k : ℕ) (hk : 0 < k) :
    ¬Function.IsPeriodicPt parent k a := by
  intro hcycle
  obtain ⟨n, hn⟩ := Rooted.iterate parent root a h
  have hlong : parent^[k*n] a = a := hcycle.mul_const n
  have hsplit : k*n = (k*n-n)+n := by
    have hle : n ≤ k*n := Nat.le_mul_of_pos_left n hk
    omega
  rw [hsplit, Function.iterate_add_apply, hn, Function.iterate_fixed hroot] at hlong
  exact ha hlong.symm

theorem Rooted.frame (parent parent' : α → α) (root : α) (nodes : Set α)
    (hclosed : ∀ a ∈ nodes, parent a = root ∨ parent a ∈ nodes)
    (hagree : ∀ a ∈ nodes, parent' a = parent a) (a : α) (ha : a ∈ nodes)
    (h : Rooted parent root a) : Rooted parent' root a := by
  induction h with
  | root => exact .root
  | child a h ih =>
    apply Rooted.child
    rw [hagree a ha]
    rcases hclosed a ha with hp | hp
    · rw [hp]
      exact .root
    · exact ih hp

theorem Rooted.insert (parent parent' : α → α) (root : α) (nodes : Set α) (b : α)
    (hclosed : ∀ a ∈ nodes, parent a = root ∨ parent a ∈ nodes)
    (hagree : ∀ a ∈ nodes, parent' a = parent a)
    (hb : parent' b = root ∨ parent' b ∈ nodes)
    (h : ∀ a ∈ nodes, Rooted parent root a) : Rooted parent' root b := by
  apply Rooted.child
  rcases hb with hb | hb
  · rw [hb]
    exact .root
  · exact Rooted.frame parent parent' root nodes hclosed hagree _ hb (h _ hb)

end Aevia.Forest
