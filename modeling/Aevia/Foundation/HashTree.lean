import Mathlib.Data.List.Basic
import Mathlib.Data.Nat.Log
import Mathlib.Tactic.Linarith

/-!
# Hash trees that duplicate the last node of an odd level

Adjacent nodes are combined level by level until one is left; an odd level
repeats its last node. `virtualLeaves` is the sequence of leaves the hashing
consumes, repetitions included. Equal levels have equal virtual leaves unless
two different pairs that were hashed collide, so two equal roots can only come
from lists that differ in repetitions, or in how high their trees are.
-/

set_option autoImplicit false

namespace Aevia.HashTree

section Levels
variable {α : Type}

def pairs : List α → List (α × α)
  | [] => []
  | [a] => [(a, a)]
  | a::b::rest => (a, b)::pairs rest

def nextLevel (combine : α → α → α) (xs : List α) : List α :=
  (pairs xs).map (fun p => combine p.1 p.2)

theorem pairs_length (xs : List α) : (pairs xs).length = (xs.length+1)/2 := by
  induction xs using pairs.induct with
  | case1 => simp [pairs]
  | case2 a => simp [pairs]
  | case3 a b rest ih =>
    simp only [pairs, List.length_cons, ih]
    omega

theorem nextLevel_length (combine : α → α → α) (xs : List α) :
    (nextLevel combine xs).length = (xs.length+1)/2 := by
  rw [nextLevel, List.length_map, pairs_length]

theorem pairs_map {β : Type} (f : α → β) (xs : List α) :
    pairs (xs.map f) = (pairs xs).map (Prod.map f f) := by
  induction xs using pairs.induct with
  | case1 => rfl
  | case2 a => rfl
  | case3 a b rest ih => simp [pairs, ih]

theorem pairs_flatMap (xs : List α) : xs <+: (pairs xs).flatMap (fun p => [p.1, p.2]) := by
  induction xs using pairs.induct with
  | case1 => simp
  | case2 a => simp [pairs]
  | case3 a b rest ih =>
    simp only [pairs, List.flatMap_cons, List.cons_append, List.nil_append]
    exact (List.prefix_cons_inj a).mpr ((List.prefix_cons_inj b).mpr ih)

def level (combine : α → α → α) : ℕ → List α → List α
  | 0, xs => xs
  | d+1, xs => level combine d (nextLevel combine xs)

theorem level_add (combine : α → α → α) (d e : ℕ) (xs : List α) :
    level combine (d+e) xs = level combine e (level combine d xs) := by
  induction d generalizing xs with
  | zero => rw [Nat.zero_add, level]
  | succ d ih =>
    rw [Nat.add_right_comm, level, level]
    exact ih _

/-- All levels from the leaves up to the first that has a single node. -/
def levels (combine : α → α → α) : ℕ → List α → List (List α)
  | 0, xs => [xs]
  | n+1, xs => if 1 < xs.length then xs::levels combine n (nextLevel combine xs) else [xs]

theorem levels_ne_nil (combine : α → α → α) (n : ℕ) (xs : List α) : levels combine n xs ≠ [] := by
  cases n with
  | zero => simp [levels]
  | succ n =>
    unfold levels
    split <;> simp

theorem levels_length_congr (combine : α → α → α) (n : ℕ) (xs ys : List α)
    (h : xs.length = ys.length) : (levels combine n xs).length = (levels combine n ys).length := by
  induction n generalizing xs ys with
  | zero => rfl
  | succ n ih =>
    unfold levels
    rw [h]
    split
    · simp [ih (nextLevel combine xs) (nextLevel combine ys)
        (by rw [nextLevel_length, nextLevel_length, h])]
    · rfl

theorem levels_last (combine : α → α → α) (n : ℕ) (xs : List α) :
    (levels combine n xs).getLast? =
      some (level combine ((levels combine n xs).length-1) xs) := by
  induction n generalizing xs with
  | zero => rfl
  | succ n ih =>
    unfold levels
    split
    · have hne := levels_ne_nil combine n (nextLevel combine xs)
      obtain ⟨y, ys, hys⟩ := List.exists_cons_of_ne_nil hne
      have hrec := ih (nextLevel combine xs)
      rw [hys] at hrec ⊢
      rw [List.getLast?_cons_cons, hrec]
      rfl
    · rfl

theorem levels_top (combine : α → α → α) (n : ℕ) (xs : List α) (hne : xs ≠ [])
    (hn : xs.length ≤ n+1) :
    (level combine ((levels combine n xs).length-1) xs).length = 1 := by
  induction n generalizing xs with
  | zero =>
    have hpos := List.length_pos_iff.mpr hne
    change xs.length = 1
    omega
  | succ n ih =>
    have hpos := List.length_pos_iff.mpr hne
    unfold levels
    split
    · have hlen := nextLevel_length combine xs
      have hnext : nextLevel combine xs ≠ [] := List.length_pos_iff.mp (by omega)
      have hrec := ih (nextLevel combine xs) hnext (by omega)
      obtain ⟨y, ys, hys⟩ := List.exists_cons_of_ne_nil (levels_ne_nil combine n _)
      rw [hys] at hrec ⊢
      exact hrec
    · change xs.length = 1
      omega

theorem levels_length (combine : α → α → α) (n : ℕ) (xs : List α) (hn : xs.length ≤ n+1) :
    (levels combine n xs).length = Nat.clog 2 xs.length+1 := by
  induction n generalizing xs with
  | zero =>
    rw [Nat.clog_of_right_le_one hn]
    rfl
  | succ n ih =>
    unfold levels
    split
    · rename_i hmore
      have hhalf := nextLevel_length combine xs
      rw [List.length_cons, ih _ (by omega), hhalf, Nat.clog_of_two_le (by decide) hmore]
      rfl
    · rename_i hone
      rw [Nat.clog_of_right_le_one (by omega)]
      rfl

end Levels

/-- The leaves a tree of height `d` consumes, repetitions included. -/
def virtualLeaves : ℕ → {α : Type} → List α → List α
  | 0, _, xs => xs
  | d+1, _, xs => (virtualLeaves d (pairs xs)).flatMap (fun p => [p.1, p.2])

section Binding
variable {α β : Type}

theorem virtualLeaves_map (d : ℕ) (f : α → β) (xs : List α) :
    virtualLeaves d (xs.map f) = (virtualLeaves d xs).map f := by
  induction d generalizing α β with
  | zero => rfl
  | succ d ih =>
    rw [virtualLeaves, virtualLeaves, pairs_map, ih (Prod.map f f), List.flatMap_map,
      List.map_flatMap]
    rfl

theorem virtualLeaves_mem (d : ℕ) (xs : List α) : ∀ a ∈ virtualLeaves d xs, a ∈ xs := by
  induction d generalizing α with
  | zero => exact fun a ha => ha
  | succ d ih =>
    have hpair : ∀ p ∈ pairs xs, p.1 ∈ xs ∧ p.2 ∈ xs := by
      induction xs using pairs.induct with
      | case1 => simp [pairs]
      | case2 a => simp [pairs]
      | case3 a b rest ihrest =>
        intro p hp
        rcases List.mem_cons.mp hp with rfl | hp
        · simp
        · have h := ihrest p hp
          simp [h.1, h.2]
    intro a ha
    obtain ⟨p, hp, hap⟩ := List.mem_flatMap.mp ha
    have h := hpair p (ih (pairs xs) p hp)
    rcases List.mem_pair.mp hap with rfl | rfl
    · exact h.1
    · exact h.2

theorem prefix_virtualLeaves (d : ℕ) (xs : List α) : xs <+: virtualLeaves d xs := by
  induction d generalizing α with
  | zero => exact List.prefix_refl xs
  | succ d ih =>
    obtain ⟨t, ht⟩ := ih (pairs xs)
    have hpairs := pairs_flatMap xs
    rw [virtualLeaves, ← ht, List.flatMap_append]
    exact hpairs.trans (List.prefix_append _ _)

def hashedPairs (combine : α → α → α) : ℕ → List α → List (α × α)
  | 0, _ => []
  | d+1, xs => pairs xs++hashedPairs combine d (nextLevel combine xs)

theorem hashedPairs_add (combine : α → α → α) (d e : ℕ) (xs : List α) :
    hashedPairs combine (d+e) xs =
      hashedPairs combine d xs++hashedPairs combine e (level combine d xs) := by
  induction d generalizing xs with
  | zero => rw [Nat.zero_add, hashedPairs, level, List.nil_append]
  | succ d ih =>
    rw [Nat.add_right_comm, hashedPairs, hashedPairs, level, ih, List.append_assoc]

/-- No two different pairs of the list have the same hash. -/
def CollisionFree (combine : α → α → α) (ps : List (α × α)) : Prop :=
  ∀ p ∈ ps, ∀ q ∈ ps, combine p.1 p.2 = combine q.1 q.2 → p = q

theorem CollisionFree.mono {combine : α → α → α} {ps qs : List (α × α)}
    (h : CollisionFree combine qs) (hsub : ∀ p ∈ ps, p ∈ qs) : CollisionFree combine ps :=
  fun p hp q hq => h p (hsub p hp) q (hsub q hq)

theorem map_inj_on {γ δ : Type} (f : γ → δ) (xs ys : List γ)
    (hinj : ∀ x ∈ xs, ∀ y ∈ ys, f x = f y → x = y) (h : xs.map f = ys.map f) : xs = ys := by
  induction xs generalizing ys with
  | nil =>
    cases ys with
    | nil => rfl
    | cons y ys => cases h
  | cons x xs ih =>
    cases ys with
    | nil => cases h
    | cons y ys =>
      obtain ⟨hx, hxs⟩ := List.cons.inj h
      rw [hinj x (by simp) y (by simp) hx,
        ih ys (fun a ha b hb => hinj a (by simp [ha]) b (by simp [hb])) hxs]

theorem virtualLeaves_eq (combine : α → α → α) (d : ℕ) (xs ys : List α)
    (hfree : CollisionFree combine (hashedPairs combine d xs++hashedPairs combine d ys))
    (htop : level combine d xs = level combine d ys) :
    virtualLeaves d xs = virtualLeaves d ys := by
  induction d generalizing xs ys with
  | zero => exact htop
  | succ d ih =>
    have hnodes : virtualLeaves d (nextLevel combine xs) = virtualLeaves d (nextLevel combine ys) :=
      ih _ _ (hfree.mono (by
        intro p hp
        rcases List.mem_append.mp hp with hp | hp
        · simp [hashedPairs, hp]
        · simp [hashedPairs, hp])) htop
    rw [nextLevel, nextLevel, virtualLeaves_map, virtualLeaves_map] at hnodes
    have hpairs : virtualLeaves d (pairs xs) = virtualLeaves d (pairs ys) := by
      refine map_inj_on _ _ _ (fun p hp q hq hpq => ?_) hnodes
      have hpx := virtualLeaves_mem d (pairs xs) p hp
      have hqy := virtualLeaves_mem d (pairs ys) q hq
      exact hfree p (by simp [hashedPairs, hpx]) q (by simp [hashedPairs, hqy]) hpq
    rw [virtualLeaves, virtualLeaves, hpairs]

theorem virtualLeaves_eq_level (combine : α → α → α) (d e : ℕ) (xs ys : List α)
    (hfree : CollisionFree combine (hashedPairs combine d xs++hashedPairs combine (e+d) ys))
    (htop : level combine d xs = level combine (e+d) ys) :
    virtualLeaves d xs = virtualLeaves d (level combine e ys) := by
  rw [level_add] at htop
  refine virtualLeaves_eq combine d xs _ (hfree.mono (fun p hp => ?_)) htop
  rw [hashedPairs_add]
  rcases List.mem_append.mp hp with hp | hp
  · simp [hp]
  · simp [hp]

theorem getElem?_of_virtualLeaves (d : ℕ) (xs ys : List α)
    (h : virtualLeaves d xs = virtualLeaves d ys) (i : ℕ) (hx : i < xs.length)
    (hy : i < ys.length) : xs[i]? = ys[i]? := by
  obtain ⟨s, hs⟩ := prefix_virtualLeaves d xs
  obtain ⟨t, ht⟩ := prefix_virtualLeaves d ys
  calc xs[i]?
      = (xs++s)[i]? := (List.getElem?_append_left hx).symm
    _ = (ys++t)[i]? := by rw [hs, ht, h]
    _ = ys[i]? := List.getElem?_append_left hy

end Binding

end Aevia.HashTree
