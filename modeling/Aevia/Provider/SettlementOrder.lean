import Aevia.Provider.Settlement

/-!
# Settlements do not depend on the order of collection

The checks see a list of receipts as a bag, the sums commute, providers and
leaves are sorted. The comparison of byte strings written out in the source is
the lexicographic order, so a sorted list of leaves is determined by its bag.
-/

set_option autoImplicit false

namespace Aevia.Por
open Aevia.Bytes Aevia.Fallible Aevia.KeyValue Aevia.Manifests

section Comparison

theorem compareBytes_lt (a b : Bytes) : compareBytes a b < 0 ↔ a < b := by
  induction a generalizing b with
  | nil =>
    cases b with
    | nil => simp [compareBytes]
    | cons y ys => simp [compareBytes]
  | cons x xs ih =>
    cases b with
    | nil => simp [compareBytes]
    | cons y ys =>
      rw [List.cons_lt_cons_iff, compareBytes]
      by_cases h : x = y
      · rw [if_neg (not_not.mpr h), ih ys, h]
        simp
      · rw [if_pos h, UInt8.lt_iff_toNat_lt]
        simp only [h, false_and, or_false]
        omega

theorem compareBytes_zero (a b : Bytes) : compareBytes a b = 0 ↔ a = b := by
  induction a generalizing b with
  | nil => cases b <;> simp [compareBytes]
  | cons x xs ih =>
    cases b with
    | nil => simp [compareBytes]
    | cons y ys =>
      rw [compareBytes, List.cons.injEq]
      by_cases h : x = y
      · rw [if_neg (not_not.mpr h), ih ys]
        simp [h]
      · have hne : x.toNat ≠ y.toNat := fun hxy => h (UInt8.toNat_inj.mp hxy)
        rw [if_pos h]
        simp only [h, false_and, iff_false]
        omega

theorem compareBytes_le (a b : Bytes) : compareBytes a b ≤ 0 ↔ a ≤ b := by
  rw [Int.le_iff_lt_or_eq, compareBytes_lt, compareBytes_zero, le_iff_lt_or_eq]

def LeafOrder (a b : Bytes) : Prop := compareBytes a b ≤ 0

instance decidableLeafOrder : DecidableRel LeafOrder := fun a b =>
  inferInstanceAs (Decidable (compareBytes a b ≤ 0))

instance leafOrder_total : Std.Total LeafOrder where
  total := fun a b => by
    unfold LeafOrder
    rw [compareBytes_le, compareBytes_le]
    exact le_total a b

instance leafOrder_trans : IsTrans Bytes LeafOrder where
  trans := fun a b c => by
    unfold LeafOrder
    rw [compareBytes_le, compareBytes_le, compareBytes_le]
    exact le_trans

instance leafOrder_antisymm : Std.Antisymm LeafOrder where
  antisymm := fun a b => by
    unfold LeafOrder
    rw [compareBytes_le, compareBytes_le]
    exact le_antisymm

theorem sortedLeaves_perm (xs ys : List Bytes) (h : xs.Perm ys) :
    xs.insertionSort (fun a b => compareBytes a b ≤ 0) =
      ys.insertionSort (fun a b => compareBytes a b ≤ 0) := by
  change xs.insertionSort LeafOrder = ys.insertionSort LeafOrder
  have hperm : (xs.insertionSort LeafOrder).Perm (ys.insertionSort LeafOrder) :=
    (List.perm_insertionSort LeafOrder xs).trans
      (h.trans (List.perm_insertionSort LeafOrder ys).symm)
  exact hperm.eq_of_pairwise' (List.pairwise_insertionSort LeafOrder xs)
    (List.pairwise_insertionSort LeafOrder ys)

end Comparison

section Order
variable {PublicKey PrivateKey : Type} (lib : Libp2p PublicKey PrivateKey)

theorem validateReceipts_perm (rs rs' : List Receipt) (h : rs.Perm rs') :
    validateReceipts lib 0 [] rs = .ok () ↔ validateReceipts lib 0 [] rs' = .ok () := by
  rw [validateReceipts_ok, validateReceipts_ok]
  apply and_congr
  · exact ⟨fun hall r hr => hall r (h.mem_iff.mpr hr),fun hall r hr => hall r (h.mem_iff.mp hr)⟩
  · apply and_congr
    · exact (h.map settlementKey).nodup_iff
    · simp

theorem servedBytes_perm (rs rs' : List Receipt) (h : rs.Perm rs') :
    servedBytes rs = servedBytes rs' := (h.map _).sum_eq

theorem servedBy_perm (rs rs' : List Receipt) (h : rs.Perm rs') (p : Bytes) :
    servedBy rs p = servedBy rs' p := servedBytes_perm _ _ (h.filter _)

theorem totals_get_perm (rs rs' : List Receipt) (h : rs.Perm rs') (p : Bytes) :
    (totals rs).perProvider.get p = (totals rs').perProvider.get p := by
  rw [totals_get, totals_get, servedBy_perm rs rs' h p]
  apply if_congr
  · exact (h.map Receipt.providerPeerID).mem_iff
  · rfl
  · rfl

theorem providers_sorted (rs : List Receipt) :
    (totals rs).perProvider.keys.Pairwise (fun p q => p < q) :=
  List.pairwise_map.mpr (totals rs).perProvider.sorted

theorem providers_perm (rs rs' : List Receipt) (h : rs.Perm rs') :
    (totals rs).perProvider.keys = (totals rs').perProvider.keys := by
  have hperm : (totals rs).perProvider.keys.Perm (totals rs').perProvider.keys := by
    apply (List.perm_ext_iff_of_nodup (Map.keys_nodup _) (Map.keys_nodup _)).mpr
    intro p
    rw [mem_totals_keys, mem_totals_keys]
    exact (h.map Receipt.providerPeerID).mem_iff
  exact hperm.eq_of_pairwise (fun p q _ _ hpq hqp => (lt_asymm hpq hqp).elim) (providers_sorted rs)
    (providers_sorted rs')

theorem buildSettlement_of_perm (rs rs' : List Receipt) (h : rs.Perm rs') (t : Settlement)
    (ht : buildSettlement lib rs = .ok t) : buildSettlement lib rs' = .ok t := by
  rw [buildSettlement_ok] at ht ⊢
  obtain ⟨hne, hvalid, tree, htree, rfl⟩ := ht
  refine ⟨?_, (validateReceipts_perm lib rs rs' h).mp hvalid, tree, ?_, ?_⟩
  · intro hnil
    rw [hnil] at h
    exact hne h.eq_nil
  · rw [← sortedLeaves_perm _ _ (h.map Receipt.hash)]
    exact htree
  · have htotal : (totals rs).total = (totals rs').total := by
      rw [totals_total, totals_total, servedBytes_perm rs rs' h]
    rw [providers_perm rs rs' h, h.length_eq, htotal]
    congr 1
    apply List.map_congr_left
    intro p _
    rw [totals_get_perm rs rs' h]

/-- Whatever the order of collection, building fails or gives one settlement. -/
theorem buildSettlement_perm (rs rs' : List Receipt) (h : rs.Perm rs') :
    (∃ e e', buildSettlement lib rs = .error e ∧ buildSettlement lib rs' = .error e') ∨
    ∃ t, buildSettlement lib rs = .ok t ∧ buildSettlement lib rs' = .ok t ∧
      t.providers.Pairwise (fun p q => p < q) := by
  cases hbuild : buildSettlement lib rs with
  | ok t =>
    right
    refine ⟨t, rfl, buildSettlement_of_perm lib rs rs' h t hbuild, ?_⟩
    obtain ⟨-, -, tree, -, rfl⟩ := (buildSettlement_ok lib rs t).mp hbuild
    exact providers_sorted rs
  | error e =>
    left
    cases hbuild' : buildSettlement lib rs' with
    | error e' => exact ⟨e,e',rfl,rfl⟩
    | ok t =>
      have hback := buildSettlement_of_perm lib rs' rs h.symm t hbuild'
      rw [hbuild] at hback
      cases hback

end Order

section Samples

def sampleCosigned (nonce : UInt64) : Receipt :=
  { sampleReceipt "v" with nonce := nonce, providerSig := [1] }

theorem buildSettlement_perm_swapped :
    ∃ t, buildSettlement sampleLib [sampleCosigned 1, sampleCosigned 2] = .ok t ∧
      buildSettlement sampleLib [sampleCosigned 2, sampleCosigned 1] = .ok t ∧
      t.providers.Pairwise (fun p q => p < q) := by
  apply (buildSettlement_perm sampleLib [sampleCosigned 1, sampleCosigned 2]
    [sampleCosigned 2, sampleCosigned 1] (List.Perm.swap _ _ _)).resolve_left
  rintro ⟨e, e', h, -⟩
  have hok : (buildSettlement sampleLib [sampleCosigned 1, sampleCosigned 2]).isOk = true := by
    decide +kernel
  rw [h] at hok
  cases hok

end Samples

end Aevia.Por
