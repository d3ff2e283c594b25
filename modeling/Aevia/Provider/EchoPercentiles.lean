import Aevia.Foundation.Quantiles
import Aevia.Foundation.RingBuffer
import Aevia.Foundation.Run
import Aevia.Provider.MirrorSelection
import Mathlib.Data.Rat.Floor

/-!
# Percentiles of the hop metrics

Each kind of round trip has a ring of the latest 256. A percentile truncates its
share of their number to a rank and takes the value one place before it, which
covers less than the share unless nothing is truncated or the next value is the same.
-/

set_option autoImplicit false

namespace Aevia.Mirror.Hops
open Aevia.Quantiles Aevia.RingBuffer Aevia.Run

def defaultWindow : ℕ := 256

structure HopMetrics where
  videoRTT : Buffer Duration
  audioRTT : Buffer Duration
  probeRTT : Buffer Duration
  probeEMA : Duration
  probeLoss : UInt32

def newHopMetrics : HopMetrics :=
  ⟨Buffer.empty defaultWindow 0, Buffer.empty defaultWindow 0, Buffer.empty defaultWindow 0, 0, 0⟩

/-- `int` of a number drops its fraction. -/
def toInt (x : ℚ) : ℤ := x.num.tdiv x.den

/-- The share of the length is taken exactly before it is truncated. -/
def percentileOf (samples : List Duration) (q : ℚ) : Duration :=
  if samples.length = 0 then 0
  else
    let sorted := samples.insertionSort (fun a b => a ≤ b)
    let idx := toInt (samples.length*q)-1
    let idx := if idx < 0 then 0 else idx
    let idx := if (samples.length : ℤ) ≤ idx then (samples.length : ℤ)-1 else idx
    sorted.getD idx.toNat 0

section Metrics
variable {F : Type} (fl : Float64 F) (m : HopMetrics)

namespace HopMetrics

def recordVideo (d : Duration) : HopMetrics := { m with videoRTT := m.videoRTT.record d }

def recordAudio (d : Duration) : HopMetrics := { m with audioRTT := m.audioRTT.record d }

def recordEcho (d : Duration) : HopMetrics where
  videoRTT := m.videoRTT
  audioRTT := m.audioRTT
  probeRTT := m.probeRTT.record d
  probeEMA :=
    if m.probeEMA = 0 then d
    else fl.toInt (fl.add (fl.mul (fl.div (fl.ofInt 1) (fl.ofInt 10)) (fl.ofInt d))
      (fl.mul (fl.div (fl.ofInt 9) (fl.ofInt 10)) (fl.ofInt m.probeEMA)))
  probeLoss := m.probeLoss

def incProbeLoss : HopMetrics := { m with probeLoss := m.probeLoss+1 }

def echoPercentile (q : ℚ) : Duration := percentileOf m.probeRTT.samples q

def echoP95Nanos : ℤ := m.echoPercentile (95/100)

end HopMetrics

inductive Call where
  | video (d : Duration)
  | audio (d : Duration)
  | echo (d : Duration)
  | loss

def next (m : HopMetrics) : Call → HopMetrics
  | .video d => m.recordVideo d
  | .audio d => m.recordAudio d
  | .echo d => m.recordEcho fl d
  | .loss => m.incProbeLoss

def Call.echoed : Call → Option Duration
  | .echo d => some d
  | _ => none

def echoes (calls : List Call) : List Duration := calls.filterMap Call.echoed

theorem probeRTT_run (calls : List Call) :
    (run (next fl) m calls).probeRTT = (echoes calls).foldl Buffer.record m.probeRTT := by
  induction calls generalizing m with
  | nil => rfl
  | cons call calls ih =>
    rw [run, ih]
    cases call <;> rfl

theorem probeRTT_holds (calls : List Call) :
    Remembers defaultWindow (echoes calls) (run (next fl) newHopMetrics calls).probeRTT := by
  rw [probeRTT_run]
  exact remembers_foldl defaultWindow (by decide) (echoes calls) [] _ (remembers_empty defaultWindow 0)

end Metrics

section Percentile

theorem toInt_share (p q total : ℕ) : toInt ((total : ℚ)*((p : ℚ)/q)) = (p*total/q : ℕ) := by
  have hshare : (total : ℚ)*((p : ℚ)/q) = ((p*total : ℕ) : ℚ)/(q : ℚ) := by
    rw [← mul_div_assoc, mul_comm, Nat.cast_mul]
  have hnonneg : 0 ≤ (((p*total : ℕ) : ℚ)/(q : ℚ)).num :=
    Rat.num_nonneg.mpr (div_nonneg (Nat.cast_nonneg _) (Nat.cast_nonneg _))
  rw [toInt, hshare, Int.tdiv_eq_ediv_of_nonneg hnonneg, ← Rat.floor_def',
    Rat.floor_natCast_div_natCast, Int.natCast_div]

theorem percentileOf_eq (samples : List Duration) (p q : ℕ) (hp : p ≤ q)
    (hsamples : samples ≠ []) :
    percentileOf samples (p/q) =
      (samples.insertionSort (fun a b => a ≤ b)).getD (p*samples.length/q-1) 0 := by
  have hpos := List.length_pos_iff.mpr hsamples
  have hle : p*samples.length/q ≤ samples.length :=
    Nat.div_le_of_le_mul (Nat.mul_le_mul_right _ hp)
  rw [percentileOf, if_neg hpos.ne', toInt_share]
  dsimp only
  congr 1
  split_ifs <;> omega

/-- A percentile is one of its samples and covers its share if and only if the share
is below one sample, is whole, or ends among equal samples. -/
theorem percentileOf_share (samples : List Duration) (p q : ℕ) (hq : 0 < q) (hp : p ≤ q)
    (hsamples : samples ≠ []) :
    percentileOf samples (p/q) ∈ samples ∧
    (p*samples.length ≤ q*atMost samples (percentileOf samples (p/q)) ↔
      p*samples.length < q ∨ q ∣ p*samples.length ∨ Ties samples (p*samples.length/q)) := by
  have hpos := List.length_pos_iff.mpr hsamples
  have hle : p*samples.length/q ≤ samples.length :=
    Nat.div_le_of_le_mul (Nat.mul_le_mul_right _ hp)
  have hperm := List.perm_insertionSort (fun a b : Duration => a ≤ b) samples
  have hsorted := List.pairwise_insertionSort (fun a b : Duration => a ≤ b) samples
  have hidx : p*samples.length/q-1 < (samples.insertionSort (fun a b => a ≤ b)).length := by
    rw [hperm.length_eq]
    omega
  obtain ⟨front, back, hsplit, hfront⟩ := exists_split _ _ hidx 0
  rw [percentileOf_eq samples p q hp hsamples]
  generalize (samples.insertionSort (fun a b => a ≤ b)).getD (p*samples.length/q-1) 0 = v at *
  rw [hsplit] at hperm hsorted
  refine ⟨hperm.mem_iff.mp (List.mem_append_right _ List.mem_cons_self), ?_⟩
  rw [← atMost_perm _ _ hperm, ← ties_perm _ _ hperm]
  rcases Nat.eq_zero_or_pos (p*samples.length/q) with hzero | hrank
  · -- The share is below one sample, so any sample covers it.
    have hshare : p*samples.length < q := by
      rcases (Nat.div_eq_zero_iff).mp hzero with h | h
      · omega
      · exact h
    refine iff_of_true ?_ (Or.inl hshare)
    have hone := atMost_split front v back hsorted v le_rfl
    calc p*samples.length ≤ q*1 := by omega
      _ ≤ q*atMost (front++v::back) v := Nat.mul_le_mul_left q (by omega)
  · rw [share_split front v back hsorted p q samples.length (by omega)]
    have hshare : ¬ p*samples.length < q := fun h => hrank.ne' (Nat.div_eq_of_lt h)
    exact (or_iff_right hshare).symm

/-- For the 95th percentile the share is whole at every twentieth length. -/
theorem percentileOf_95 (samples : List Duration) (hsamples : samples ≠ []) :
    percentileOf samples (95/100) ∈ samples ∧
    (95*samples.length ≤ 100*atMost samples (percentileOf samples (95/100)) ↔
      samples.length = 1 ∨ 20 ∣ samples.length ∨ Ties samples (95*samples.length/100)) := by
  have hpos := List.length_pos_iff.mpr hsamples
  have hone : 95*samples.length < 100 ↔ samples.length = 1 := by omega
  have htwenty : 100 ∣ 95*samples.length ↔ 20 ∣ samples.length := by omega
  have hshare := percentileOf_share samples 95 100 (by decide) (by decide) hsamples
  rwa [hone, htwenty] at hshare

end Percentile

section Runs
variable {F : Type} (fl : Float64 F)

theorem samples_latest (calls : List Call) :
    (run (next fl) newHopMetrics calls).probeRTT.samples.Perm
      (latest defaultWindow (echoes calls)) :=
  samples_perm defaultWindow _ _ (probeRTT_holds fl calls)

/-- In every run with an echo the samples are the latest 256 echoes and the percentile
is one of them. It covers 95 percent of them if and only if there is one, their number
is a multiple of twenty, or one value has the ranks on both sides of the share. -/
theorem echo_p95_exact (calls : List Call) (hcalls : echoes calls ≠ []) :
    let m := run (next fl) newHopMetrics calls
    let window := latest defaultWindow (echoes calls)
    m.probeRTT.samples.Perm window ∧
    window.length = min (echoes calls).length 256 ∧
    m.echoP95Nanos ∈ window ∧
    (95*window.length ≤ 100*atMost window m.echoP95Nanos ↔
      window.length = 1 ∨ 20 ∣ window.length ∨ Ties window (95*window.length/100)) := by
  intro m window
  have hperm : m.probeRTT.samples.Perm window := samples_latest fl calls
  have hlength : window.length = min (echoes calls).length 256 := length_latest _ _
  have hpos := List.length_pos_iff.mpr hcalls
  have hsamples : m.probeRTT.samples ≠ [] := by
    rw [← List.length_pos_iff, hperm.length_eq, hlength]
    omega
  obtain ⟨hmem, hshare⟩ := percentileOf_95 _ hsamples
  rw [atMost_perm _ _ hperm, ties_perm _ _ hperm, hperm.length_eq] at hshare
  exact ⟨hperm, hlength, hperm.mem_iff.mp hmem, hshare⟩

end Runs

section Samples

def tiedCalls : List Call := (List.range 19).map (fun n => .echo n)++[.loss, .echo 18, .echo 30]

/-- Their number is no multiple of twenty, but the ranks 19 and 20 have one value. -/
theorem echo_p95_exact_tied : 95*(latest defaultWindow (echoes tiedCalls)).length ≤
    100*atMost (latest defaultWindow (echoes tiedCalls))
      (run (next wholeFloat64) newHopMetrics tiedCalls).echoP95Nanos := by
  have hshare := (echo_p95_exact wholeFloat64 tiedCalls (by decide +kernel)).2.2.2
  exact hshare.mpr (Or.inr (Or.inr ⟨18,by decide +kernel⟩))

/-- Of two echoes the percentile is the smaller one. -/
theorem p95_below_half :
    ¬ ∀ calls : List Call, echoes calls ≠ [] →
      95*(latest defaultWindow (echoes calls)).length ≤
        100*atMost (latest defaultWindow (echoes calls))
          (run (next wholeFloat64) newHopMetrics calls).echoP95Nanos := by
  intro h
  have htwo := h [.echo 1, .echo 2] (by decide)
  revert htwo
  decide +kernel

end Samples

end Aevia.Mirror.Hops
