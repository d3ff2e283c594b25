import Aevia.Coordinator.PayoutArrays
import Aevia.Provider.AckServer

/-!
# Byte totals as exact integers

A receipt states its size as a signed number, and the totals of a settlement
are kept modulo `2^64`. Read as natural numbers they are the exact sums as long
as no provider's sizes add up to less than nothing and all fit the counter.
-/

set_option autoImplicit false

namespace Aevia.Coordinator
open Aevia.Bytes Aevia.Fallible Aevia.Por Aevia.Run

/-- The totals of a settlement, read as natural numbers, are the exact ones. -/
structure ExactTotals (receipts : List Receipt) (t : Settlement) : Prop where
  total : (t.totalBytes.toNat : ℤ) = servedBytes receipts
  perProvider : t.perProviderBytes.map (fun n => (n.toNat : ℤ)) =
    t.providers.map (servedBy receipts)
  balanced : (t.perProviderBytes.map UInt64.toNat).sum = t.totalBytes.toNat

/-- The totals are exact if and only if no provider has served less than
nothing and fewer than `2^64` bytes were served in all. -/
theorem buildSettlement_exact {PublicKey PrivateKey : Type} (lib : Libp2p PublicKey PrivateKey)
    (receipts : List Receipt) (t : Settlement) (h : buildSettlement lib receipts = .ok t) :
    ExactTotals receipts t ↔ SumsFit receipts := by
  obtain ⟨hnodup, hmem, hbytes, htotal⟩ := buildSettlement_sums lib receipts t h
  constructor
  · rintro ⟨hexact, hper, -⟩
    rw [hbytes, List.map_map, List.map_inj_left] at hper
    exact fits_of_values receipts t.providers hmem hper t.totalBytes hexact
  · intro hfit
    have hvalues := value_of_fits receipts t.providers hnodup hmem hfit
    have hsum := sum_toNat receipts t.providers hnodup hmem hvalues
    have hexact : (t.totalBytes.toNat : ℤ) = servedBytes receipts := by
      have hlt := hfit.total
      rw [htotal, toNat_ofInt, Int.emod_eq_of_lt (by omega) hlt]
    refine ⟨hexact, ?_, ?_⟩
    · rw [hbytes, List.map_map]
      exact List.map_congr_left hvalues
    · rw [hbytes, List.map_map]
      exact Int.ofNat_inj.mp (hsum.trans hexact.symm)

section Samples

/-- Two providers whose receipts fit. -/
theorem buildSettlement_exact_two : ∃ t, buildSettlement sampleLib sampleReceipts = .ok t ∧
    ExactTotals sampleReceipts t := by
  obtain ⟨t, h⟩ := exists_ok (buildSettlement sampleLib sampleReceipts) (by decide +kernel)
  refine ⟨t, h, (buildSettlement_exact sampleLib sampleReceipts t h).mpr ⟨?_, ?_⟩⟩
  · decide
  · decide

def negativeReceipt : Receipt := sampleServed "p" (-1) 5

def negativeNode : Node :=
  run (serve sampleLib sampleServer) start
    [⟨(receiptJson { negativeReceipt with providerSig := [] }).print, [], none⟩]

/-- The receipt is acknowledged, and the settlement counts `2^64-1` bytes for it. -/
theorem negative_size_inexact : negativeNode.acked = [negativeReceipt] ∧
    ∃ t, buildSettlement sampleLib negativeNode.acked = .ok t ∧
      t.totalBytes = 18446744073709551615 ∧ t.perProviderBytes = [18446744073709551615] ∧
      servedBytes negativeNode.acked = -1 ∧ ¬ ExactTotals negativeNode.acked t := by
  have hacked : negativeNode.acked = [negativeReceipt] := by decide +kernel
  rw [hacked]
  obtain ⟨t, h⟩ := exists_ok (buildSettlement sampleLib [negativeReceipt]) (by decide +kernel)
  obtain ⟨-, -, tree, -, ht⟩ := (buildSettlement_ok sampleLib _ t).mp h
  have htotal : t.totalBytes = 18446744073709551615 := by
    rw [ht]
    rfl
  refine ⟨rfl, t, h, htotal, ?_, rfl, ?_⟩
  · rw [ht]
    rfl
  · intro hexact
    have hwrong := hexact.total
    rw [htotal] at hwrong
    revert hwrong
    decide

end Samples

end Aevia.Coordinator
