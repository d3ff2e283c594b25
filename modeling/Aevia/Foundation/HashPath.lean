import Aevia.Foundation.HashTree

/-!
# Paths from a leaf to the top of a hash tree

A step names the sibling of the current node and its side. The directions alone
address one of the leaves a tree consumes, repetitions included. Without a
collision a walk that ends at the top has started at that leaf, and from that
leaf there is a walk along the pairs of the tree.
-/

set_option autoImplicit false

namespace Aevia.HashTree

variable {α : Type}

structure Step (α : Type) where
  sibling : α
  right : Bool

def Step.pair (s : Step α) (current : α) : α × α :=
  if s.right then (current, s.sibling) else (s.sibling, current)

def walk (combine : α → α → α) : α → List (Step α) → α
  | current, [] => current
  | current, s::steps => walk combine (combine (s.pair current).1 (s.pair current).2) steps

def walked (combine : α → α → α) : α → List (Step α) → List (α × α)
  | _, [] => []
  | current, s::steps =>
    s.pair current::walked combine (combine (s.pair current).1 (s.pair current).2) steps

/-- The place that directions lead to, counted from the left. -/
def address : List Bool → ℕ
  | [] => 0
  | right::directions => 2*address directions+(if right then 0 else 1)

/-- The directions to a place: a sibling stands on the right of an even one. -/
def directionsTo : ℕ → ℕ → List Bool
  | 0, _ => []
  | n+1, place => decide (place%2 = 0)::directionsTo n (place/2)

theorem directionsTo_length (n place : ℕ) : (directionsTo n place).length = n := by
  induction n generalizing place with
  | zero => rfl
  | succ n ih => rw [directionsTo, List.length_cons, ih]

theorem address_directionsTo (n place : ℕ) (h : place < 2^n) :
    address (directionsTo n place) = place := by
  induction n generalizing place with
  | zero =>
    rw [Nat.pow_zero] at h
    rw [directionsTo, address]
    omega
  | succ n ih =>
    rw [Nat.pow_succ] at h
    rw [directionsTo, address, ih (place/2) (by omega)]
    by_cases heven : place%2 = 0
    · rw [decide_eq_true heven, if_pos rfl]
      omega
    · rw [decide_eq_false heven, if_neg Bool.false_ne_true]
      omega

theorem step_walked (combine : α → α → α) (current : α) (steps : List (Step α)) (s : Step α)
    (hs : s ∈ steps) : ∃ a, s.pair a ∈ walked combine current steps := by
  induction steps generalizing current with
  | nil => cases hs
  | cons first steps ih =>
    rcases List.mem_cons.mp hs with rfl | hs
    · exact ⟨current,List.mem_cons_self⟩
    · obtain ⟨a, ha⟩ := ih _ hs
      exact ⟨a,List.mem_cons_of_mem _ ha⟩

theorem pairs_getElem? (xs : List α) (i : ℕ) :
    (pairs xs)[i]? = (xs[2*i]?).map (fun a => (a, (xs[2*i+1]?).getD a)) := by
  induction xs using pairs.induct generalizing i with
  | case1 => rfl
  | case2 a => cases i <;> simp [pairs, Nat.mul_succ]
  | case3 a b rest ih =>
    cases i with
    | zero => rfl
    | succ i =>
      rw [pairs, List.getElem?_cons_succ, ih i]
      rfl

theorem flatMap_pair_getElem? (ps : List (α × α)) (i : ℕ) (right : Bool) :
    (ps.flatMap (fun p => [p.1, p.2]))[2*i+(if right then 0 else 1)]? =
      (ps[i]?).map (fun p => if right then p.1 else p.2) := by
  induction ps generalizing i with
  | nil => simp
  | cons p ps ih =>
    cases i with
    | zero => cases right <;> rfl
    | succ i =>
      rw [List.flatMap_cons, List.getElem?_cons_succ, ← ih i, Nat.mul_succ, Nat.add_right_comm]
      rfl

theorem walk_sound (combine : α → α → α) (xs : List α) (x top : α) (steps : List (Step α))
    (hfree : CollisionFree combine (hashedPairs combine steps.length xs++walked combine x steps))
    (htop : level combine steps.length xs = [top]) (hwalk : walk combine x steps = top) :
    (virtualLeaves steps.length xs)[address (steps.map Step.right)]? = some x := by
  induction steps generalizing xs x with
  | nil =>
    change xs[0]? = some x
    rw [show xs = [top] from htop, ← hwalk]
    rfl
  | cons s steps ih =>
    have hup := ih (nextLevel combine xs) (combine (s.pair x).1 (s.pair x).2)
      (hfree.mono (by
        intro p hp
        rcases List.mem_append.mp hp with hp | hp
        · simp [hashedPairs, hp]
        · simp [walked, hp])) htop hwalk
    rw [nextLevel, virtualLeaves_map, List.getElem?_map, Option.map_eq_some_iff] at hup
    obtain ⟨p, hp, hcombine⟩ := hup
    have hmem := virtualLeaves_mem steps.length (pairs xs) p (List.mem_of_getElem? hp)
    have hpair : p = s.pair x :=
      hfree p (by simp [hashedPairs, hmem]) (s.pair x) (by simp [walked]) hcombine
    rw [List.length_cons, List.map_cons, address, virtualLeaves, flatMap_pair_getElem?, hp, hpair,
      Option.map_some, Step.pair]
    cases s.right <;> rfl

theorem address_exists (combine : α → α → α) (xs : List α) (top : α) (directions : List Bool)
    (htop : level combine directions.length xs = [top]) :
    ∃ x, (virtualLeaves directions.length xs)[address directions]? = some x := by
  induction directions generalizing xs with
  | nil => exact ⟨top,by rw [show xs = [top] from htop]; rfl⟩
  | cons right directions ih =>
    obtain ⟨y, hy⟩ := ih (nextLevel combine xs) htop
    rw [nextLevel, virtualLeaves_map, List.getElem?_map, Option.map_eq_some_iff] at hy
    obtain ⟨p, hp, -⟩ := hy
    rw [List.length_cons, address, virtualLeaves, flatMap_pair_getElem?, hp]
    exact ⟨_,rfl⟩

theorem walk_complete (combine : α → α → α) (xs : List α) (x top : α) (directions : List Bool)
    (htop : level combine directions.length xs = [top])
    (hx : (virtualLeaves directions.length xs)[address directions]? = some x) :
    ∃ steps : List (Step α), steps.map Step.right = directions ∧ walk combine x steps = top ∧
      ∀ p ∈ walked combine x steps, p ∈ hashedPairs combine directions.length xs := by
  induction directions generalizing xs x with
  | nil =>
    have hsingle : xs = [top] := htop
    rw [hsingle] at hx
    exact ⟨[],rfl,(Option.some.inj hx).symm,by simp [walked]⟩
  | cons right directions ih =>
    rw [List.length_cons, address, virtualLeaves, flatMap_pair_getElem?, Option.map_eq_some_iff] at hx
    obtain ⟨p, hp, hx⟩ := hx
    have hmem := virtualLeaves_mem directions.length (pairs xs) p (List.mem_of_getElem? hp)
    obtain ⟨steps, hsteps, hwalk, hwalked⟩ := ih (nextLevel combine xs) (combine p.1 p.2) htop (by
      rw [nextLevel, virtualLeaves_map, List.getElem?_map, hp]
      rfl)
    have hpair : (Step.mk (if right then p.2 else p.1) right).pair x = p := by
      rw [← hx]
      cases right <;> rfl
    refine ⟨⟨if right then p.2 else p.1, right⟩::steps, by rw [List.map_cons, hsteps], ?_, ?_⟩
    · rw [walk, hpair]
      exact hwalk
    · intro q hq
      rw [walked, hpair] at hq
      rw [List.length_cons, hashedPairs]
      rcases List.mem_cons.mp hq with rfl | hq
      · exact List.mem_append_left _ hmem
      · exact List.mem_append_right _ (hwalked q hq)

end Aevia.HashTree
