import Mathlib.Data.List.Forall2

/-!
# Lists that go together

What a list says of its elements and of their order, carried over to another list
whose elements are related to them one by one.
-/

set_option autoImplicit false

namespace Aevia.Paired

variable {α β : Type*} {R : α → β → Prop}

theorem forall₂_mem_left (xs : List α) (ys : List β) (h : List.Forall₂ R xs ys) (x : α)
    (hx : x ∈ xs) : ∃ y ∈ ys, R x y := by
  induction h with
  | nil => cases hx
  | cons hxy _ ih =>
    rcases List.mem_cons.mp hx with rfl | hx
    · exact ⟨_,List.mem_cons_self,hxy⟩
    · obtain ⟨y, hy, hR⟩ := ih hx
      exact ⟨y,List.mem_cons_of_mem _ hy,hR⟩

theorem forall₂_mem_right (xs : List α) (ys : List β) (h : List.Forall₂ R xs ys) (y : β)
    (hy : y ∈ ys) : ∃ x ∈ xs, R x y :=
  forall₂_mem_left ys xs h.flip y hy

theorem forall₂_and_right (xs : List α) (ys : List β) (h : List.Forall₂ R xs ys) (P : β → Prop)
    (hys : ∀ y ∈ ys, P y) : List.Forall₂ (fun x y => P y ∧ R x y) xs ys :=
  ((List.forall₂_and_left _ _).mpr ⟨hys, h.flip⟩).flip

theorem forall₂_both {S : α → β → Prop} (xs : List α) (ys : List β) (h : List.Forall₂ R xs ys)
    (g : List.Forall₂ S xs ys) : List.Forall₂ (fun x y => R x y ∧ S x y) xs ys := by
  induction h with
  | nil => exact .nil
  | cons hxy _ ih =>
    cases g with
    | cons gxy g => exact .cons ⟨hxy,gxy⟩ (ih g)

theorem forall₂_pairwise {S : α → α → Prop} {T : β → β → Prop} (xs : List α) (ys : List β)
    (h : List.Forall₂ R xs ys) (hxs : xs.Pairwise S)
    (himp : ∀ x ∈ xs, ∀ x' ∈ xs, ∀ y y', R x y → R x' y' → S x x' → T y y') : ys.Pairwise T := by
  induction h with
  | nil => exact List.Pairwise.nil
  | @cons x y xs ys hxy hrest ih =>
    rw [List.pairwise_cons] at hxs ⊢
    refine ⟨?_, ih hxs.2 ?_⟩
    · intro y' hy'
      obtain ⟨x', hx', hR⟩ := forall₂_mem_right _ _ hrest y' hy'
      exact himp x List.mem_cons_self x' (List.mem_cons_of_mem _ hx') y y' hxy hR (hxs.1 x' hx')
    · intro a ha a' ha'
      exact himp a (List.mem_cons_of_mem _ ha) a' (List.mem_cons_of_mem _ ha')

end Aevia.Paired
