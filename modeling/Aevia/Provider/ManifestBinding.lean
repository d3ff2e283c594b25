import Aevia.Provider.Manifest
import Mathlib.Data.List.GetD

/-!
# What a manifest CID commits to

The tree hashes leaves and inner nodes alike and repeats the last node of an
odd level, so a CID commits to the leaves up to these repetitions, and an inner
node of one manifest may be a leaf of another. Beyond that it commits to
everything: cut to the smaller depth, two trees under one CID consume the same
leaves, so manifests under one CID have the same segments unless their trees differ
in height or one list goes on with the repetitions of the other.
-/

set_option autoImplicit false

namespace Aevia.Manifests
open Aevia.Bytes Aevia.Sha256 Aevia.Fallible Aevia.HashTree

/-- What is hashed when the manifest is verified: the children of every inner node. -/
def Tree.hashInputs (t : Tree) : List Bytes :=
  (hashedPairs nodeHash (t.depth-1) t.leaves).map (fun p => p.1++p.2)

def Manifest.hashInputs (m : Manifest) : List Bytes :=
  match m.decodedTree with
  | .ok t => t.hashInputs
  | .error _ => []

def Sha256CollisionFree (inputs : List Bytes) : Prop :=
  ∀ x ∈ inputs, ∀ y ∈ inputs, sha256 x = sha256 y → x = y

theorem pairs_mem {α : Type} (xs : List α) : ∀ p ∈ pairs xs, p.1 ∈ xs ∧ p.2 ∈ xs := by
  intro p hp
  have h1 := virtualLeaves_mem 1 xs p.1
  have h2 := virtualLeaves_mem 1 xs p.2
  simp only [virtualLeaves, List.mem_flatMap] at h1 h2
  exact ⟨h1 ⟨p,hp,by simp⟩,h2 ⟨p,hp,by simp⟩⟩

theorem hashedPairs_sized (d : ℕ) (xs : List Bytes) (h : ∀ l ∈ xs, l.length = hashSize) :
    ∀ p ∈ hashedPairs nodeHash d xs, p.1.length = hashSize ∧ p.2.length = hashSize := by
  induction d generalizing xs with
  | zero => simp [hashedPairs]
  | succ d ih =>
    intro p hp
    rcases List.mem_append.mp hp with hp | hp
    · have hmem := pairs_mem xs p hp
      exact ⟨h _ hmem.1,h _ hmem.2⟩
    · exact ih _ (Tree.level_sized 1 xs h) p hp

/-- Digests have one length, so a concatenation determines both children. -/
theorem collisionFree_of_inputs (ps : List (Bytes × Bytes)) (hsized : ∀ p ∈ ps, p.1.length = hashSize)
    (h : Sha256CollisionFree (ps.map (fun p => p.1++p.2))) : CollisionFree nodeHash ps := by
  intro p hp q hq hpq
  have hinput := h _ (List.mem_map.mpr ⟨p,hp,rfl⟩) _ (List.mem_map.mpr ⟨q,hq,rfl⟩) hpq
  obtain ⟨hleft, hright⟩ := List.append_inj hinput ((hsized p hp).trans (hsized q hq).symm)
  exact Prod.ext hleft hright

theorem collisionFree_pairs (s t : Tree)
    (h : Sha256CollisionFree (s.hashInputs++t.hashInputs)) :
    CollisionFree nodeHash
      (hashedPairs nodeHash (s.depth-1) s.leaves++hashedPairs nodeHash (t.depth-1) t.leaves) := by
  apply collisionFree_of_inputs
  · intro p hp
    rcases List.mem_append.mp hp with hp | hp
    · exact (hashedPairs_sized _ _ s.sized p hp).1
    · exact (hashedPairs_sized _ _ t.sized p hp).1
  · rw [List.map_append]
    exact h

theorem same_root_leaves (s t : Tree) (hroot : s.root = t.root) (hdepth : s.depth ≤ t.depth)
    (hfree : Sha256CollisionFree (s.hashInputs++t.hashInputs)) :
    virtualLeaves (s.depth-1) s.leaves =
      virtualLeaves (s.depth-1) (level nodeHash (t.depth-s.depth) t.leaves) := by
  have hpos : 0 < s.depth := List.length_pos_iff.mpr (levels_ne_nil _ _ _)
  have hsplit : t.depth-1 = (t.depth-s.depth)+(s.depth-1) := by omega
  have hpairs := collisionFree_pairs s t hfree
  have hs := s.top
  have ht := t.top
  rw [hsplit] at hpairs ht
  exact virtualLeaves_eq_level nodeHash (s.depth-1) (t.depth-s.depth) s.leaves t.leaves hpairs
    (by rw [hs, ht, hroot])

theorem decodedTree_leaves (m : Manifest) (t : Tree) (h : m.decodedTree = .ok t) :
    m.leafList.map hexDecode = t.leaves.map some := by
  simp only [Manifest.decodedTree, bind_ok, newTree_ok] at h
  obtain ⟨leaves, hleaves, rfl⟩ := h
  exact (decodeLeaves_ok 0 _ _ hleaves).1

theorem verify_decodedTree (m : Manifest) (h : m.verify = .ok ()) :
    ∃ t, m.decodedTree = .ok t ∧ m.segmentCount.toInt = t.leafCount ∧
      cidv1Raw t.root = .ok m.cid := by
  obtain ⟨-, hcount, -, t, hleaves, -, hcid⟩ := (verify_ok m).mp h
  refine ⟨t, by simp [Manifest.decodedTree, hleaves, newTree_ok], ?_, hcid⟩
  have hlen := congrArg List.length (decodeLeaves_ok 0 _ _ hleaves).1
  rw [List.length_map, List.length_map] at hlen
  rw [hcount, Tree.leafCount, hlen]

theorem leafAt_decoded (m : Manifest) (t : Tree) (h : m.decodedTree = .ok t) (i : Int64)
    (h0 : 0 ≤ i.toInt) (hi : i.toInt.toNat < t.leafCount) :
    m.leafAt i = .ok (t.leaves.getD i.toInt.toNat []) := by
  have hmap := decodedTree_leaves m t h
  have hlen : m.leafList.length = t.leaves.length := by
    simpa using congrArg List.length hmap
  have hi' : i.toInt.toNat < t.leaves.length := hi
  have hget := congrArg (·[i.toInt.toNat]?) hmap
  simp only [List.getElem?_map, List.getElem?_eq_getElem hi',
    List.getElem?_eq_getElem (hlen ▸ hi'), Option.map_some, Option.some.injEq] at hget
  have hdecode : hexDecodeString (m.leafList.getD i.toInt.toNat []) =
      .ok (t.leaves.getD i.toInt.toNat []) := by
    rw [hexDecodeString_ok, List.getD_eq_getElem _ _ hi', List.getD_eq_getElem _ _ (hlen ▸ hi')]
    exact hget
  have hsized : (t.leaves.getD i.toInt.toNat []).length = hashSize := by
    rw [List.getD_eq_getElem _ _ hi']
    exact t.sized _ (List.getElem_mem hi')
  have hrange : ¬(i < 0 ∨ (m.leafList.length : ℤ) ≤ i.toInt) := by
    rw [Int64.lt_iff_toInt_lt, hlen]
    change ¬(i.toInt < 0 ∨ _)
    omega
  simp only [Manifest.leafAt, if_neg hrange, hdecode, hsized, ne_eq, not_true_eq_false, if_false]

/-- Two manifests under one CID. Cut to the smaller depth their trees consume
the same leaves, repetitions of a last node included. Trees of one depth agree
on every index both have, and equal counts mean equal leaves. -/
theorem same_cid_leaves (m₁ m₂ : Manifest) (h₁ : m₁.verify = .ok ()) (h₂ : m₂.verify = .ok ())
    (hcid : m₁.cid = m₂.cid)
    (hfree : Sha256CollisionFree (m₁.hashInputs++m₂.hashInputs)) :
    ∃ t₁ t₂ : Tree, m₁.decodedTree = .ok t₁ ∧ m₂.decodedTree = .ok t₂ ∧
      virtualLeaves (min t₁.depth t₂.depth-1) (level nodeHash (t₁.depth-t₂.depth) t₁.leaves) =
        virtualLeaves (min t₁.depth t₂.depth-1) (level nodeHash (t₂.depth-t₁.depth) t₂.leaves) ∧
      (t₁.depth = t₂.depth → ∀ i : Int64, 0 ≤ i → i < m₁.segmentCount → i < m₂.segmentCount →
        m₁.leafAt i = m₂.leafAt i) ∧
      (m₁.segmentCount = m₂.segmentCount → ∀ i : Int64, 0 ≤ i → i < m₁.segmentCount →
        m₁.leafAt i = m₂.leafAt i) := by
  obtain ⟨t₁, ht₁, hcount₁, hcid₁⟩ := verify_decodedTree m₁ h₁
  obtain ⟨t₂, ht₂, hcount₂, hcid₂⟩ := verify_decodedTree m₂ h₂
  have hroot : t₁.root = t₂.root := cidv1Raw_inj _ _ _ hcid₁ (by rw [hcid₂, hcid])
  simp only [Manifest.hashInputs, ht₁, ht₂] at hfree
  have hcut : virtualLeaves (min t₁.depth t₂.depth-1)
      (level nodeHash (t₁.depth-t₂.depth) t₁.leaves) =
      virtualLeaves (min t₁.depth t₂.depth-1)
        (level nodeHash (t₂.depth-t₁.depth) t₂.leaves) := by
    rcases Nat.le_total t₁.depth t₂.depth with h | h
    · rw [Nat.min_eq_left h, Nat.sub_eq_zero_of_le h]
      exact same_root_leaves t₁ t₂ hroot h hfree
    · rw [Nat.min_eq_right h, Nat.sub_eq_zero_of_le h]
      refine (same_root_leaves t₂ t₁ hroot.symm h (fun x hx y hy => ?_)).symm
      exact hfree x (by simpa [or_comm] using hx) y (by simpa [or_comm] using hy)
  have hagree : t₁.depth = t₂.depth → ∀ i : Int64, 0 ≤ i → i < m₁.segmentCount →
      i < m₂.segmentCount → m₁.leafAt i = m₂.leafAt i := by
    intro hdepth i h0 hi₁ hi₂
    rw [Int64.lt_iff_toInt_lt] at hi₁ hi₂
    rw [Int64.le_iff_toInt_le] at h0
    change 0 ≤ i.toInt at h0
    have hk₁ : i.toInt.toNat < t₁.leafCount := by omega
    have hk₂ : i.toInt.toNat < t₂.leafCount := by omega
    rw [hdepth, Nat.sub_self] at hcut
    have hget := getElem?_of_virtualLeaves _ t₁.leaves t₂.leaves hcut _ hk₁ hk₂
    rw [leafAt_decoded m₁ t₁ ht₁ i h0 hk₁, leafAt_decoded m₂ t₂ ht₂ i h0 hk₂,
      List.getD_eq_getElem?_getD, List.getD_eq_getElem?_getD, hget]
  refine ⟨t₁, t₂, ht₁, ht₂, hcut, hagree, ?_⟩
  intro hcount i h0 hi
  have hlen : t₁.leaves.length = t₂.leaves.length := by
    rw [hcount, hcount₂] at hcount₁
    exact_mod_cast hcount₁.symm
  have hdepth : t₁.depth = t₂.depth := by
    simp only [Tree.depth, Tree.levels, hlen]
    exact levels_length_congr _ _ _ _ hlen
  exact hagree hdepth i h0 hi (hcount ▸ hi)

/-- Leaves that go on behind others with what a tree over the others repeats anyway. -/
def Overruns (xs ys : List Bytes) : Prop :=
  xs.length < ys.length ∧ ys <+: virtualLeaves (Nat.clog 2 xs.length) xs

/-- Trees of one height, neither of which has the repetitions of the other as leaves. -/
structure Separate (xs ys : List Bytes) : Prop where
  height : Nat.clog 2 xs.length = Nat.clog 2 ys.length
  forth : ¬ Overruns xs ys
  back : ¬ Overruns ys xs

def Manifest.decodedLeaves (m : Manifest) : List Bytes :=
  match m.decodedTree with
  | .ok t => t.leaves
  | .error _ => []

theorem Tree.depth_eq (t : Tree) : t.depth = Nat.clog 2 t.leaves.length+1 :=
  levels_length _ _ _ (Nat.le_succ _)

theorem Separate.refl (xs : List Bytes) : Separate xs xs :=
  ⟨rfl,fun h => h.1.ne rfl,fun h => h.1.ne rfl⟩

theorem manifestOf_decodedLeaves (t : Tree) (d : Int64) :
    (manifestOf t d).decodedLeaves = t.leaves := by
  rw [Manifest.decodedLeaves, manifestOf_decodedTree]

/-- Rows of one tree height that are consumed alike are as long unless one overruns the other. -/
theorem Separate.length_eq {xs ys : List Bytes} (h : Separate xs ys)
    (hrow : virtualLeaves (Nat.clog 2 xs.length) xs = virtualLeaves (Nat.clog 2 ys.length) ys) :
    xs.length = ys.length := by
  rcases Nat.lt_trichotomy xs.length ys.length with hlt | heq | hlt
  · exact (h.forth ⟨hlt,hrow ▸ prefix_virtualLeaves _ ys⟩).elim
  · exact heq
  · exact (h.back ⟨hlt,hrow ▸ prefix_virtualLeaves _ xs⟩).elim

/-- Two manifests under one CID have the same segments if and only if their trees
are of one height and neither list is the other with repetitions written out. -/
theorem same_cid_exact (m₁ m₂ : Manifest) (h₁ : m₁.verify = .ok ()) (h₂ : m₂.verify = .ok ())
    (hcid : m₁.cid = m₂.cid)
    (hfree : Sha256CollisionFree (m₁.hashInputs++m₂.hashInputs)) :
    (m₁.segmentCount = m₂.segmentCount ∧ ∀ i : Int64, 0 ≤ i → i < m₁.segmentCount →
      m₁.leafAt i = m₂.leafAt i) ↔ Separate m₁.decodedLeaves m₂.decodedLeaves := by
  obtain ⟨t₁, ht₁, hcount₁, -⟩ := verify_decodedTree m₁ h₁
  obtain ⟨t₂, ht₂, hcount₂, -⟩ := verify_decodedTree m₂ h₂
  obtain ⟨s₁, s₂, hs₁, hs₂, hcut, -, hagree⟩ := same_cid_leaves m₁ m₂ h₁ h₂ hcid hfree
  rw [ht₁, Except.ok.injEq] at hs₁
  rw [ht₂, Except.ok.injEq] at hs₂
  subst hs₁ hs₂
  simp only [Manifest.decodedLeaves, ht₁, ht₂]
  constructor
  · rintro ⟨hcount, -⟩
    have hlen : t₁.leaves.length = t₂.leaves.length := by
      rw [hcount, hcount₂] at hcount₁
      exact_mod_cast hcount₁.symm
    exact ⟨by rw [hlen],fun h => h.1.ne hlen,fun h => h.1.ne hlen.symm⟩
  · intro hseparate
    have hdepth : t₁.depth = t₂.depth := by
      rw [t₁.depth_eq, t₂.depth_eq, hseparate.height]
    have hlen : t₁.leaves.length = t₂.leaves.length := by
      refine hseparate.length_eq ?_
      rw [hdepth, Nat.min_self, Nat.sub_self] at hcut
      rw [hseparate.height]
      rwa [t₂.depth_eq, Nat.add_sub_cancel] at hcut
    have hcount : m₁.segmentCount = m₂.segmentCount := by
      apply Int64.toInt_inj.mp
      rw [hcount₁, hcount₂, Tree.leafCount, Tree.leafCount, hlen]
    exact ⟨hcount,hagree hcount⟩

section Samples

def pairTree : Tree where
  leaves := [hashLeaf [1], hashLeaf [2]]
  nonempty := by simp
  sized := by simp [hashLeaf, hashSize]

def joinedTree : Tree where
  leaves := [hashLeaf (hashLeaf [1]++hashLeaf [2])]
  nonempty := by simp
  sized := by simp [hashLeaf, hashSize]

theorem samples_root : joinedTree.root = pairTree.root := by
  simp [Tree.root, Tree.levels, joinedTree, pairTree, HashTree.levels, nextLevel, pairs, nodeHash,
    hashLeaf]

theorem samples_hashInputs :
    joinedTree.hashInputs++pairTree.hashInputs = [hashLeaf [1]++hashLeaf [2]] := rfl

theorem samples_collisionFree :
    Sha256CollisionFree ((manifestOf joinedTree 6).hashInputs++(manifestOf pairTree 6).hashInputs) := by
  simp only [Manifest.hashInputs, manifestOf_decodedTree, samples_hashInputs]
  intro x hx y hy _
  rw [List.mem_singleton.mp hx, List.mem_singleton.mp hy]

/-- The segment that consists of two digests and the two segments with these
digests have one CID, although nothing collides. -/
theorem inner_node_as_leaf :
    buildFromPayloads [hashLeaf [1]++hashLeaf [2]] 6 = .ok (manifestOf joinedTree 6) ∧
    buildFromPayloads [[1], [2]] 6 = .ok (manifestOf pairTree 6) ∧
    (manifestOf joinedTree 6).verify = .ok () ∧ (manifestOf pairTree 6).verify = .ok () ∧
    (manifestOf joinedTree 6).cid = (manifestOf pairTree 6).cid ∧
    Sha256CollisionFree
      ((manifestOf joinedTree 6).hashInputs++(manifestOf pairTree 6).hashInputs) ∧
    (manifestOf joinedTree 6).segmentCount ≠ (manifestOf pairTree 6).segmentCount := by
  refine ⟨(buildFromPayloads_ok _ _ _).mpr ⟨by decide,joinedTree,rfl,rfl⟩,
    (buildFromPayloads_ok _ _ _).mpr ⟨by decide,pairTree,rfl,rfl⟩,
    manifestOf_verify _ _ (by decide) (by decide), manifestOf_verify _ _ (by decide) (by decide),
    ?_, samples_collisionFree, ?_⟩
  · simp only [manifestOf, samples_root]
  · change Int64.ofNat 1 ≠ Int64.ofNat 2
    decide

def tripleTree : Tree where
  leaves := [hashLeaf [1], hashLeaf [2], hashLeaf [3]]
  nonempty := by simp
  sized := by simp [hashLeaf, hashSize]

def repeatedTree : Tree where
  leaves := [hashLeaf [1], hashLeaf [2], hashLeaf [3], hashLeaf [3]]
  nonempty := by simp
  sized := by simp [hashLeaf, hashSize]

/-- Manifests of one tree share their segments whatever their durations; the four
segments overrun the three, so they share the CID alone. -/
theorem same_cid_exact_samples :
    (∀ i : Int64, 0 ≤ i → i < 2 →
      (manifestOf pairTree 6).leafAt i = (manifestOf pairTree 10).leafAt i) ∧
    (manifestOf tripleTree 6).cid = (manifestOf repeatedTree 6).cid ∧
    ¬ Separate (manifestOf tripleTree 6).decodedLeaves (manifestOf repeatedTree 6).decodedLeaves := by
  have hpair : Sha256CollisionFree
      ((manifestOf pairTree 6).hashInputs++(manifestOf pairTree 10).hashInputs) := by
    unfold Sha256CollisionFree
    decide +kernel
  have hrepeated : Sha256CollisionFree
      ((manifestOf tripleTree 6).hashInputs++(manifestOf repeatedTree 6).hashInputs) := by
    unfold Sha256CollisionFree
    decide +kernel
  have hcid : (manifestOf tripleTree 6).cid = (manifestOf repeatedTree 6).cid := by decide +kernel
  have hsame := (same_cid_exact (manifestOf pairTree 6) (manifestOf pairTree 10)
    (manifestOf_verify _ _ (by decide) (by decide)) (manifestOf_verify _ _ (by decide) (by decide))
    rfl hpair).mpr (by
      rw [manifestOf_decodedLeaves, manifestOf_decodedLeaves]
      exact Separate.refl _)
  refine ⟨hsame.2, hcid, fun hseparate => ?_⟩
  have hcount := ((same_cid_exact (manifestOf tripleTree 6) (manifestOf repeatedTree 6)
    (manifestOf_verify _ _ (by decide) (by decide)) (manifestOf_verify _ _ (by decide) (by decide))
    hcid hrepeated).mpr hseparate).1
  exact absurd hcount (by decide)

end Samples

end Aevia.Manifests
