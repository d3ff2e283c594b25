import Aevia.Foundation.HashPath
import Aevia.Provider.ManifestBinding

/-!
# Inclusion proofs

A proof holds the siblings on the way from a leaf to the root. The verifier
hashes along the steps it is given and compares with the root; index and count
of the proof are checked against each other and not against the steps.
-/

set_option autoImplicit false

namespace Aevia.Manifests
open Aevia.Bytes Aevia.Fallible Aevia.HashTree Aevia.Sha256

abbrev ProofStep := Step Bytes

/-- `index` and `count` are ints, which hold the length of every slice. -/
structure Proof where
  steps : List ProofStep
  index : ℤ
  count : ℤ

/-- The sibling of a position; the last node of an odd level is its own. -/
def siblingStep (level : List Bytes) (pos : ℕ) : ProofStep :=
  if pos%2 = 0 then
    if pos+1 < level.length then ⟨level.getD (pos+1) [], true⟩ else ⟨level.getD pos [], true⟩
  else ⟨level.getD (pos-1) [], false⟩

/-- The loop over the levels below the root. -/
def proofSteps : List (List Bytes) → ℕ → List ProofStep
  | [], _ => []
  | level::levels, pos => siblingStep level pos::proofSteps levels (pos/2)

def Tree.proof (t : Tree) (index : ℤ) : Except GoError Proof :=
  if index < 0 ∨ t.leafCount ≤ index then
    .error (.errorf "manifest: proof index %d out of range [0,%d)" [.int index, .int t.leafCount])
  else .ok ⟨proofSteps t.levels.dropLast index.toNat, index, t.leafCount⟩

def badStep (steps : List ProofStep) : Option ℕ :=
  steps.findIdx? (fun s => s.sibling.length != hashSize)

def verifyProof (root leaf : Bytes) (proof : Option Proof) : Except GoError Unit :=
  match proof with
  | none => .error (.new "manifest: nil proof")
  | some proof =>
    if root.length ≠ hashSize then
      .error (.errorf "manifest: root has len %d, want %d" [.int root.length, .int hashSize])
    else if leaf.length ≠ hashSize then
      .error (.errorf "manifest: leaf has len %d, want %d" [.int leaf.length, .int hashSize])
    else if proof.index < 0 ∨ proof.count ≤ proof.index then
      .error (.errorf "manifest: proof index %d out of range [0,%d)"
        [.int proof.index, .int proof.count])
    else match badStep proof.steps with
    | some i => .error (.errorf "manifest: proof step %d has len %d, want %d"
        [.int i, .int ((proof.steps.map Step.sibling).getD i []).length, .int hashSize])
    | none =>
      let current := walk nodeHash leaf proof.steps
      if current ≠ root then
        .error (.errorf "manifest: recomputed root %x does not match expected %x"
          [.text (hexEncode current), .text (hexEncode root)])
      else .ok ()

theorem verifyProof_ok (root leaf : Bytes) (proof : Proof) :
    verifyProof root leaf (some proof) = .ok () ↔ root.length = hashSize ∧ leaf.length = hashSize ∧
      (0 ≤ proof.index ∧ proof.index < proof.count) ∧
      (∀ s ∈ proof.steps, s.sibling.length = hashSize) ∧ walk nodeHash leaf proof.steps = root := by
  have hsteps : badStep proof.steps = none ↔ ∀ s ∈ proof.steps, s.sibling.length = hashSize := by
    simp [badStep, List.findIdx?_eq_none_iff]
  unfold verifyProof
  simp only [guard_ok, not_not, not_or, not_lt, not_le]
  rw [← hsteps]
  cases badStep proof.steps with
  | some i => simp
  | none => simp

section Completeness

theorem siblingStep_pair (level : List Bytes) (pos : ℕ) (x : Bytes) (hx : level[pos]? = some x) :
    (pairs level)[pos/2]? = some ((siblingStep level pos).pair x) := by
  have hlt : pos < level.length := (List.getElem?_eq_some_iff.mp hx).1
  rw [pairs_getElem?, siblingStep]
  split_ifs with heven hnext
  · have hpos : 2*(pos/2) = pos := by omega
    rw [hpos, hx, List.getElem?_eq_getElem hnext, List.getD_eq_getElem _ _ hnext]
    rfl
  · -- the last node of an odd level stands on both sides
    have hpos : 2*(pos/2) = pos := by omega
    rw [hpos, hx, List.getElem?_eq_none (by omega), List.getD_eq_getElem?_getD, hx]
    rfl
  · have hpos : 2*(pos/2) = pos-1 := by omega
    have hprev : pos-1 < level.length := by omega
    rw [hpos, show pos-1+1 = pos by omega, hx, List.getElem?_eq_getElem hprev,
      List.getD_eq_getElem _ _ hprev]
    rfl

theorem walk_proofSteps (n : ℕ) (xs : List Bytes) (pos : ℕ) (x : Bytes) (hx : xs[pos]? = some x) :
    walk nodeHash x (proofSteps (HashTree.levels nodeHash n xs).dropLast pos) ∈
      level nodeHash ((HashTree.levels nodeHash n xs).length-1) xs := by
  induction n generalizing xs pos x with
  | zero => exact List.mem_of_getElem? hx
  | succ n ih =>
    unfold HashTree.levels
    split
    · have hnext : (nextLevel nodeHash xs)[pos/2]? =
          some (nodeHash ((siblingStep xs pos).pair x).1 ((siblingStep xs pos).pair x).2) := by
        rw [nextLevel, List.getElem?_map, siblingStep_pair xs pos x hx]
        rfl
      obtain ⟨y, ys, hys⟩ := List.exists_cons_of_ne_nil (levels_ne_nil nodeHash n (nextLevel nodeHash xs))
      have hrec := ih _ _ _ hnext
      rw [hys] at hrec ⊢
      exact hrec
    · exact List.mem_of_getElem? hx

/-- The siblings are nodes of the levels, so they are digests. -/
theorem proofSteps_sized (n : ℕ) (xs : List Bytes) (pos : ℕ) (hpos : pos < xs.length)
    (hsized : ∀ l ∈ xs, l.length = hashSize) :
    ∀ s ∈ proofSteps (HashTree.levels nodeHash n xs).dropLast pos, s.sibling.length = hashSize := by
  induction n generalizing xs pos with
  | zero => simp [HashTree.levels, proofSteps]
  | succ n ih =>
    unfold HashTree.levels
    split
    · have hx := List.getElem?_eq_getElem hpos
      have hpair := pairs_mem xs _ (List.mem_of_getElem? (siblingStep_pair xs pos _ hx))
      have hfirst : (siblingStep xs pos).sibling.length = hashSize := by
        apply hsized
        unfold Step.pair at hpair
        split at hpair
        · exact hpair.2
        · exact hpair.1
      have hnext : pos/2 < (nextLevel nodeHash xs).length := by
        rw [nextLevel_length]
        omega
      obtain ⟨y, ys, hys⟩ := List.exists_cons_of_ne_nil (levels_ne_nil nodeHash n (nextLevel nodeHash xs))
      have hrec := ih _ _ hnext (Tree.level_sized 1 xs hsized)
      rw [hys] at hrec ⊢
      exact List.forall_mem_cons.mpr ⟨hfirst,hrec⟩
    · simp [proofSteps]

theorem Tree.walk_root (t : Tree) (i : ℕ) (leaf : Bytes) (hleaf : t.leaves[i]? = some leaf) :
    walk nodeHash leaf (proofSteps t.levels.dropLast i) = t.root := by
  have hwalk := walk_proofSteps t.leaves.length t.leaves i leaf hleaf
  have htop := t.top
  rw [Tree.depth, Tree.levels] at htop
  rw [htop] at hwalk
  exact List.mem_singleton.mp hwalk

/-- Every leaf of a tree has a proof, and the proof is accepted. -/
theorem proof_complete (leaves : List Bytes) (hne : leaves ≠ [])
    (hsized : ∀ l ∈ leaves, l.length = hashSize) (i : ℕ) (leaf : Bytes)
    (hleaf : leaves[i]? = some leaf) :
    ∃ t proof, newTree leaves = .ok t ∧ t.proof i = .ok proof ∧
      verifyProof t.root leaf (some proof) = .ok () := by
  have hi : i < leaves.length := (List.getElem?_eq_some_iff.mp hleaf).1
  let t : Tree := ⟨leaves, hne, hsized⟩
  have hrange : ¬((i : ℤ) < 0 ∨ (t.leafCount : ℤ) ≤ i) := by
    show ¬((i : ℤ) < 0 ∨ (leaves.length : ℤ) ≤ i)
    omega
  refine ⟨t, ⟨proofSteps t.levels.dropLast i, i, t.leafCount⟩, (newTree_ok leaves t).mpr rfl, ?_, ?_⟩
  · rw [Tree.proof, if_neg hrange]
    rfl
  · rw [verifyProof_ok]
    have hindex : (0 : ℤ) ≤ i ∧ (i : ℤ) < leaves.length := by omega
    exact ⟨t.root_length,hsized leaf (List.mem_of_getElem? hleaf),hindex,
      proofSteps_sized leaves.length leaves i hi hsized,t.walk_root i leaf hleaf⟩

/-- The last of three leaves, which is its own sibling. -/
theorem proof_complete_last : ∃ t proof,
    newTree [List.replicate 32 0, List.replicate 32 1, List.replicate 32 2] = .ok t ∧
    t.proof 2 = .ok proof ∧ verifyProof t.root (List.replicate 32 2) (some proof) = .ok () :=
  proof_complete [List.replicate 32 0, List.replicate 32 1, List.replicate 32 2] (by decide)
    (by decide) 2 (List.replicate 32 2) rfl

end Completeness

section Soundness

def walkInputs (leaf : Bytes) (steps : List ProofStep) : List Bytes :=
  (walked nodeHash leaf steps).map (fun p => p.1++p.2)

/-- The node that directions from the root lead to; the first belongs to the lowest step. -/
def Tree.reached (t : Tree) (directions : List Bool) : Option Bytes :=
  (virtualLeaves directions.length
    (level nodeHash (t.depth-1-directions.length) t.leaves))[address directions]?

theorem walked_sized (leaf : Bytes) (steps : List ProofStep) (hleaf : leaf.length = hashSize)
    (hsteps : ∀ s ∈ steps, s.sibling.length = hashSize) :
    ∀ p ∈ walked nodeHash leaf steps, p.1.length = hashSize := by
  induction steps generalizing leaf with
  | nil => simp [walked]
  | cons s steps ih =>
    obtain ⟨hs, hsteps⟩ := List.forall_mem_cons.mp hsteps
    refine List.forall_mem_cons.mpr ⟨?_, ih _ (sha256_length _) hsteps⟩
    unfold Step.pair
    split
    · exact hleaf
    · exact hs

variable (t : Tree)

theorem Tree.level_root (n : ℕ) (hn : n ≤ t.depth-1) :
    level nodeHash n (level nodeHash (t.depth-1-n) t.leaves) = [t.root] := by
  rw [← level_add, Nat.sub_add_cancel hn, t.top]

theorem Tree.hashedPairs_above (n : ℕ) (hn : n ≤ t.depth-1) :
    ∀ p ∈ hashedPairs nodeHash n (level nodeHash (t.depth-1-n) t.leaves),
      p ∈ hashedPairs nodeHash (t.depth-1) t.leaves := by
  intro p hp
  rw [← Nat.sub_add_cancel hn, hashedPairs_add]
  exact List.mem_append_right _ hp

theorem Tree.walk_free (leaf : Bytes) (steps : List ProofStep) (hleaf : leaf.length = hashSize)
    (hsteps : ∀ s ∈ steps, s.sibling.length = hashSize)
    (hfree : Sha256CollisionFree (t.hashInputs++walkInputs leaf steps)) :
    CollisionFree nodeHash
      (hashedPairs nodeHash (t.depth-1) t.leaves++walked nodeHash leaf steps) := by
  apply collisionFree_of_inputs
  · intro p hp
    rcases List.mem_append.mp hp with hp | hp
    · exact (hashedPairs_sized _ _ t.sized p hp).1
    · exact walked_sized leaf steps hleaf hsteps p hp
  · rw [List.map_append]
    exact hfree

/-- An accepted walk that is no longer than the tree is high starts at the node
that its directions lead to. -/
theorem Tree.walk_reached (x : Bytes) (steps : List ProofStep) (hlen : steps.length ≤ t.depth-1)
    (hfree : CollisionFree nodeHash
      (hashedPairs nodeHash (t.depth-1) t.leaves++walked nodeHash x steps))
    (hwalk : walk nodeHash x steps = t.root) : t.reached (steps.map Step.right) = some x := by
  rw [Tree.reached, List.length_map]
  refine walk_sound nodeHash _ x t.root steps (hfree.mono ?_) (t.level_root _ hlen) hwalk
  intro p hp
  rcases List.mem_append.mp hp with hp | hp
  · exact List.mem_append_left _ (t.hashedPairs_above _ hlen p hp)
  · exact List.mem_append_right _ hp

theorem Tree.reached_walk (directions : List Bool) (hlen : directions.length ≤ t.depth-1) (x : Bytes)
    (hx : t.reached directions = some x) :
    ∃ steps : List ProofStep, steps.map Step.right = directions ∧ walk nodeHash x steps = t.root ∧
      (∀ s ∈ steps, s.sibling.length = hashSize) ∧
      ∀ p ∈ walked nodeHash x steps, p ∈ hashedPairs nodeHash (t.depth-1) t.leaves := by
  obtain ⟨steps, hdirections, hwalk, hwalked⟩ :=
    walk_complete nodeHash _ x t.root directions (t.level_root _ hlen) hx
  have habove : ∀ p ∈ walked nodeHash x steps, p ∈ hashedPairs nodeHash (t.depth-1) t.leaves :=
    fun p hp => t.hashedPairs_above _ hlen p (hwalked p hp)
  refine ⟨steps, hdirections, hwalk, ?_, habove⟩
  intro s hs
  obtain ⟨current, hpair⟩ := step_walked nodeHash x steps s hs
  have hsized := hashedPairs_sized _ _ t.sized _ (habove _ hpair)
  unfold Step.pair at hsized
  split at hsized
  · exact hsized.2
  · exact hsized.1

theorem Tree.reached_exists (directions : List Bool) (hlen : directions.length ≤ t.depth-1) :
    ∃ x, t.reached directions = some x :=
  address_exists nodeHash _ t.root directions (t.level_root _ hlen)

theorem Tree.reached_sized (directions : List Bool) (x : Bytes) (hx : t.reached directions = some x) :
    x.length = hashSize :=
  Tree.level_sized _ _ t.sized _ (virtualLeaves_mem _ _ x (List.mem_of_getElem? hx))

theorem walkInputs_mem (x : Bytes) (steps : List ProofStep)
    (h : ∀ p ∈ walked nodeHash x steps, p ∈ hashedPairs nodeHash (t.depth-1) t.leaves) :
    ∀ input ∈ walkInputs x steps, input ∈ t.hashInputs := by
  intro input hinput
  obtain ⟨p, hp, rfl⟩ := List.mem_map.mp hinput
  exact List.mem_map.mpr ⟨p,h p hp,rfl⟩

theorem Sha256CollisionFree.mono {inputs more : List Bytes} (h : Sha256CollisionFree more)
    (hsub : ∀ x ∈ inputs, x ∈ more) : Sha256CollisionFree inputs :=
  fun x hx y hy => h x (hsub x hx) y (hsub y hy)

/-- Directions within the tree admit one node, so they are sound for the leaf at an
index if and only if it is the node that they lead to. -/
theorem verifyProof_reached (hfree : Sha256CollisionFree t.hashInputs) (directions : List Bool)
    (hlen : directions.length ≤ t.depth-1) (index : ℤ) (leaf : Bytes) (hindex : 0 ≤ index)
    (hleaf : t.leaves[index.toNat]? = some leaf) :
    (∀ x (steps : List ProofStep), steps.map Step.right = directions →
      Sha256CollisionFree (t.hashInputs++walkInputs x steps) →
      verifyProof t.root x (some ⟨steps, index, t.leafCount⟩) = .ok () → x = leaf) ↔
    t.reached directions = some leaf := by
  constructor
  · intro hall
    obtain ⟨x, hx⟩ := t.reached_exists directions hlen
    obtain ⟨steps, hdirections, hwalk, hsteps, hwalked⟩ := t.reached_walk directions hlen x hx
    have hsafe : Sha256CollisionFree (t.hashInputs++walkInputs x steps) := by
      refine hfree.mono (fun input hinput => ?_)
      rcases List.mem_append.mp hinput with hinput | hinput
      · exact hinput
      · exact walkInputs_mem t x steps hwalked input hinput
    have hcount : index < (t.leaves.length : ℤ) := by
      have hlt := (List.getElem?_eq_some_iff.mp hleaf).1
      omega
    have hverify := (verifyProof_ok t.root x ⟨steps, index, t.leafCount⟩).mpr
      ⟨t.root_length,t.reached_sized directions x hx,⟨hindex,hcount⟩,hsteps,hwalk⟩
    rw [hx, hall x steps hdirections hsafe hverify]
  · intro hreached x steps hdirections hsafe hverify
    obtain ⟨-, hx, -, hsteps, hwalk⟩ := (verifyProof_ok _ _ _).mp hverify
    have hshort : steps.length ≤ t.depth-1 := by
      rwa [← hdirections, List.length_map] at hlen
    have hfound := t.walk_reached x steps hshort (t.walk_free x steps hx hsteps hsafe) hwalk
    rw [hdirections, hreached] at hfound
    exact (Option.some.inj hfound).symm

/-- The steps are those of a tree with as many leaves, and their directions are the
binary digits of the index. -/
def Proof.Shaped (proof : Proof) : Prop :=
  proof.steps.map Step.right = directionsTo (Nat.clog 2 proof.count.toNat) proof.index.toNat

theorem Tree.depth_clog : t.depth-1 = Nat.clog 2 t.leaves.length := by
  rw [t.depth_eq, Nat.add_sub_cancel]

theorem Tree.reached_index (i : ℕ) (leaf : Bytes) (hleaf : t.leaves[i]? = some leaf) :
    t.reached (directionsTo (t.depth-1) i) = some leaf := by
  have hlt := (List.getElem?_eq_some_iff.mp hleaf).1
  have hplace : i < 2^(t.depth-1) := by
    rw [t.depth_clog]
    exact hlt.trans_le (Nat.le_pow_clog (by decide) _)
  rw [Tree.reached, directionsTo_length, address_directionsTo _ _ hplace, Nat.sub_self]
  obtain ⟨repeated, hrow⟩ := prefix_virtualLeaves (t.depth-1) t.leaves
  rw [level, ← hrow, List.getElem?_append_left hlt, hleaf]

/-- An accepted proof that has the shape of its index is one for the leaf there. -/
theorem verifyProof_position (proof : Proof) (x : Bytes) (hcount : proof.count = t.leafCount)
    (hshape : proof.Shaped)
    (hfree : Sha256CollisionFree (t.hashInputs++walkInputs x proof.steps))
    (hverify : verifyProof t.root x (some proof) = .ok ()) :
    0 ≤ proof.index ∧ t.leaves[proof.index.toNat]? = some x := by
  obtain ⟨-, hx, ⟨hindex, hlt⟩, hsteps, hwalk⟩ := (verifyProof_ok _ _ _).mp hverify
  have hplace : proof.index.toNat < t.leaves.length := by
    rw [hcount, Tree.leafCount] at hlt
    omega
  have hleaf := List.getElem?_eq_getElem hplace
  have hdirections : proof.steps.map Step.right =
      directionsTo (t.depth-1) proof.index.toNat := by
    rw [t.depth_clog, hshape, hcount]
    rfl
  have hlen : proof.steps.length = t.depth-1 := by
    have hlength := congrArg List.length hdirections
    rwa [List.length_map, directionsTo_length] at hlength
  have hreached := t.walk_reached x proof.steps hlen.le (t.walk_free x _ hx hsteps hfree) hwalk
  rw [hdirections, t.reached_index _ _ hleaf] at hreached
  exact ⟨hindex,by rw [hleaf, hreached]⟩

theorem proofSteps_directions (levels : List (List Bytes)) (pos : ℕ) :
    (proofSteps levels pos).map Step.right = directionsTo levels.length pos := by
  induction levels generalizing pos with
  | nil => rfl
  | cons level levels ih =>
    rw [proofSteps, List.map_cons, ih, List.length_cons, directionsTo, siblingStep]
    congr 1
    split_ifs with heven hnext
    · exact (decide_eq_true heven).symm
    · exact (decide_eq_true heven).symm
    · exact (decide_eq_false heven).symm

theorem Tree.proof_shaped (index : ℤ) (proof : Proof) (h : t.proof index = .ok proof) :
    proof.Shaped := by
  simp only [Tree.proof, guard_ok, Except.ok.injEq] at h
  obtain ⟨-, rfl⟩ := h
  rw [Proof.Shaped, proofSteps_directions, List.length_dropLast]
  exact congrArg (fun n => directionsTo n index.toNat) t.depth_clog

section Samples

def twoLeaves : Tree := ⟨[List.replicate 32 0, List.replicate 32 1], by decide, by decide⟩

theorem twoLeaves_free : Sha256CollisionFree twoLeaves.hashInputs := by
  have hone : twoLeaves.hashInputs = [List.replicate 32 0++List.replicate 32 1] := rfl
  intro x hx y hy _
  rw [hone, List.mem_singleton] at hx hy
  rw [hx, hy]

theorem twoLeaves_walkInputs (x : Bytes) (steps : List ProofStep)
    (h : walkInputs x steps = twoLeaves.hashInputs) :
    Sha256CollisionFree (twoLeaves.hashInputs++walkInputs x steps) := by
  rw [h]
  exact twoLeaves_free.mono (fun input hinput => (List.mem_append.mp hinput).elim id id)

/-- A sibling on the left is the way to the second of two leaves. -/
theorem verifyProof_position_second :
    verifyProof twoLeaves.root (List.replicate 32 1) (some ⟨[⟨List.replicate 32 0, false⟩], 1, 2⟩) =
      .ok () ∧ twoLeaves.leaves[1]? = some (List.replicate 32 1) := by
  have hsteps : proofSteps twoLeaves.levels.dropLast 1 = [⟨List.replicate 32 0, false⟩] := rfl
  have hwalk := twoLeaves.walk_root 1 (List.replicate 32 1) rfl
  rw [hsteps] at hwalk
  have hverify := (verifyProof_ok twoLeaves.root (List.replicate 32 1)
    ⟨[⟨List.replicate 32 0, false⟩], 1, 2⟩).mpr
      ⟨twoLeaves.root_length,by decide,by decide,by simp [hashSize, digestSize],hwalk⟩
  have hshape : Proof.Shaped ⟨[⟨List.replicate 32 0, false⟩], 1, 2⟩ := by
    have hone : Nat.clog 2 2 = 1 := by decide +kernel
    rw [Proof.Shaped]
    exact (congrArg (fun n => directionsTo n 1) hone).symm
  exact ⟨hverify,(verifyProof_position twoLeaves _ _ rfl hshape
    (twoLeaves_walkInputs _ _ rfl) hverify).2⟩

/-- The proof of the first leaf under the index of the second, and the root as a
leaf of its own, are both accepted. -/
theorem misplaced_leaf_accepted :
    ∃ proof, twoLeaves.proof 0 = .ok proof ∧
      verifyProof twoLeaves.root (List.replicate 32 0) (some { proof with index := 1 }) = .ok () ∧
      Sha256CollisionFree (twoLeaves.hashInputs++walkInputs (List.replicate 32 0) proof.steps) ∧
      twoLeaves.leaves[1]? ≠ some (List.replicate 32 0) ∧
      verifyProof twoLeaves.root twoLeaves.root (some ⟨[], 0, 2⟩) = .ok () ∧
      twoLeaves.leaves[0]? ≠ some twoLeaves.root := by
  have hsteps : proofSteps twoLeaves.levels.dropLast 0 = [⟨List.replicate 32 1, true⟩] := rfl
  have hwalk := twoLeaves.walk_root 0 (List.replicate 32 0) rfl
  rw [hsteps] at hwalk
  refine ⟨⟨[⟨List.replicate 32 1, true⟩], 0, 2⟩, ?_, ?_, ?_, ?_, ?_, ?_⟩
  · rw [Tree.proof, if_neg (by decide)]
    exact congrArg (fun steps => Except.ok (⟨steps, 0, 2⟩ : Proof)) hsteps
  · refine (verifyProof_ok _ _ _).mpr ⟨twoLeaves.root_length, by decide, by decide, ?_, hwalk⟩
    intro s hs
    rw [List.mem_singleton.mp hs]
    rfl
  · exact twoLeaves_walkInputs _ _ rfl
  · decide
  · exact (verifyProof_ok _ _ _).mpr
      ⟨twoLeaves.root_length,twoLeaves.root_length,by decide,by decide,rfl⟩
  · decide +kernel

end Samples

end Soundness

end Aevia.Manifests
