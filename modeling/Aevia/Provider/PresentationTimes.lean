import Aevia.Foundation.Paired
import Aevia.Provider.AccessUnits

/-!
# Presentation times of access units

The timestamps of a stream are the residues of integers that never fall and never
jump by half the range. A unit is written with the wrapped difference to the first
timestamp, which is the difference as long as it fits 31 bits.
-/

set_option autoImplicit false

namespace Aevia.Whip
open Aevia.Paired Aevia.Run Aevia.Runs

structure Timed (stream : List (VideoFrame × ℤ)) : Prop where
  residue : ∀ x ∈ stream, (x.1.timestamp.toNat : ℤ) = x.2%2^32
  steps : stream.IsChain (fun x y => x.2 ≤ y.2 ∧ y.2-x.2 < 2^31)

def origin (stream : List (VideoFrame × ℤ)) : ℤ := (stream.head?.map Prod.snd).getD 0

def timedUnits (stream : List (VideoFrame × ℤ)) : List (List (VideoFrame × ℤ)) :=
  filled Prod.fst (runs (stamp Prod.fst) stream)

theorem relPTS_bmod (pts firstPTS : UInt32) :
    relPTS pts firstPTS = ((pts.toNat : ℤ)-firstPTS.toNat).bmod (2^32) := by
  show (pts.toBitVec-firstPTS.toBitVec).toInt = _
  rw [BitVec.toInt_sub, BitVec.toInt_eq_toNat_bmod, BitVec.toInt_eq_toNat_bmod, Int.bmod_sub_bmod,
    Int.sub_bmod_bmod]
  rfl

/-- The wrapped difference of two residues is the difference if it fits 31 bits. -/
theorem relPTS_eq_iff (pts firstPTS : UInt32) (t t₀ : ℤ) (hpts : (pts.toNat : ℤ) = t%2^32)
    (hfirst : (firstPTS.toNat : ℤ) = t₀%2^32) (hle : t₀ ≤ t) :
    relPTS pts firstPTS = t-t₀ ↔ t-t₀ < 2^31 := by
  have hwrapped : relPTS pts firstPTS = (t-t₀).bmod (2^32) := by
    have hsub : (t%2^32-t₀%2^32)%((2^32 : ℕ) : ℤ) = (t-t₀)%((2^32 : ℕ) : ℤ) := by
      push_cast
      exact (Int.sub_emod _ _ _).symm
    rw [relPTS_bmod, hpts, hfirst, ← Int.emod_bmod, hsub, Int.emod_bmod]
  rw [hwrapped]
  constructor
  · intro h
    have hlt := Int.bmod_lt (x := t-t₀) (m := 2^32) (by norm_num)
    omega
  · intro h
    exact Int.bmod_eq_of_le_mul_two (by omega) (by push_cast; omega)

section Stream
variable (stream : List (VideoFrame × ℤ)) (h : Timed stream)

include h

theorem Timed.sorted : stream.Pairwise (fun x y => x.2 ≤ y.2) := by
  have htrans : IsTrans (VideoFrame × ℤ) (fun x y => x.2 ≤ y.2) := ⟨fun _ _ _ => le_trans⟩
  exact (h.steps.imp (fun _ _ hxy => hxy.1)).pairwise

theorem Timed.origin_le (x : VideoFrame × ℤ) (hx : x ∈ stream) :
    origin stream ≤ x.2 ∧ ∃ f : VideoFrame, stream.head?.map (stamp Prod.fst) = some f.timestamp ∧
      (f.timestamp.toNat : ℤ) = origin stream%2^32 := by
  cases stream with
  | nil => exact (List.not_mem_nil hx).elim
  | cons y rest =>
    refine ⟨?_, y.1, rfl, h.residue y List.mem_cons_self⟩
    rcases List.mem_cons.mp hx with rfl | hx
    · exact le_rfl
    · exact (List.pairwise_cons.mp (h.sorted)).1 x hx

omit h in
theorem mem_timedUnits (r : List (VideoFrame × ℤ)) (hr : r ∈ timedUnits stream)
    (x : VideoFrame × ℤ) (hx : x ∈ r) : x ∈ stream := by
  have hruns := (List.mem_filter.mp hr).1
  rw [← flatten_runs (stamp Prod.fst) stream]
  exact List.mem_flatten.mpr ⟨r,hruns,hx⟩

theorem units_timed (startTime : ℤ) (sps pps : Bytes) :
    List.Forall₂ (fun w r => w.nals = nalsOf Prod.fst r ∧
        ∀ x ∈ r, w.pts = x.2-origin stream ↔ x.2-origin stream < 2^31)
      (writtenOf startTime sps pps (stream.map Prod.fst)) (timedUnits stream) := by
  have hwritten := written_runs Prod.fst startTime sps pps stream
  refine (forall₂_and_right _ _ hwritten (· ∈ timedUnits stream) (fun _ hr => hr)).imp ?_
  rintro w r ⟨hr, hw⟩
  refine ⟨hw.nals, fun x hx => ?_⟩
  have hmem := mem_timedUnits stream r hr x hx
  obtain ⟨hle, f, hfirst, hresidue⟩ := h.origin_le stream x hmem
  rw [hw.pts x hx, hfirst, Option.getD_some]
  exact relPTS_eq_iff _ _ _ _ (h.residue x hmem) hresidue hle

theorem timedUnits_sorted :
    (timedUnits stream).Pairwise (fun r s => ∀ x ∈ r, ∀ y ∈ s, x.2 ≤ y.2) := by
  have hruns : (runs (stamp Prod.fst) stream).Pairwise (fun r s => ∀ x ∈ r, ∀ y ∈ s, x.2 ≤ y.2) := by
    have hsorted := h.sorted
    rw [← flatten_runs (stamp Prod.fst) stream, List.pairwise_flatten] at hsorted
    exact hsorted.2
  exact hruns.filter _

end Stream

theorem timedUnits_ne_nil (stream : List (VideoFrame × ℤ)) : ∀ r ∈ timedUnits stream, r ≠ [] := by
  rintro r hr rfl
  exact of_decide_eq_true (List.mem_filter.mp hr).2 rfl

/-- The presentation times are those of the stream, and never fall. -/
structure FollowsStream (written : List Write) (stream : List (VideoFrame × ℤ)) : Prop where
  exact : List.Forall₂ (fun w r => w.nals = nalsOf Prod.fst r ∧ ∀ x ∈ r, w.pts = x.2-origin stream)
    written (timedUnits stream)
  monotone : (written.map Write.pts).Pairwise (· ≤ ·)

/-- A unit is written with the time since the first frame if and only if that fits 31
bits, so all units are, and the times never fall, if and only if no unit is later. -/
theorem pts_follow_stream (startTime : ℤ) (sps pps : Bytes) (stream : List (VideoFrame × ℤ))
    (h : Timed stream) :
    let written := writtenOf startTime sps pps (stream.map Prod.fst)
    List.Forall₂ (fun w r => w.nals = nalsOf Prod.fst r ∧
        ∀ x ∈ r, w.pts = x.2-origin stream ↔ x.2-origin stream < 2^31)
      written (timedUnits stream) ∧
    (FollowsStream written stream ↔
      ∀ r ∈ timedUnits stream, ∀ x ∈ r, x.2-origin stream < 2^31) := by
  intro written
  have hunits : List.Forall₂ _ written _ := units_timed stream h startTime sps pps
  refine ⟨hunits, ?_, ?_⟩
  · intro hfollows r hr x hx
    obtain ⟨w, -, hw⟩ := forall₂_mem_right _ _ (forall₂_both _ _ hunits hfollows.exact) r hr
    exact (hw.1.2 x hx).mp (hw.2.2 x hx)
  · intro hrange
    have hexact : List.Forall₂ (fun w r => w.nals = nalsOf Prod.fst r ∧
        ∀ x ∈ r, w.pts = x.2-origin stream) written (timedUnits stream) := by
      refine (forall₂_and_right _ _ hunits _ hrange).imp ?_
      rintro w r ⟨hr, hnals, hw⟩
      exact ⟨hnals,fun x hx => (hw x hx).mpr (hr x hx)⟩
    refine ⟨hexact, List.pairwise_map.mpr ?_⟩
    refine forall₂_pairwise _ _ hexact.flip (timedUnits_sorted stream h) ?_
    intro r hr s hs w v hw hv hrs
    obtain ⟨x, hx⟩ := List.exists_mem_of_ne_nil r (timedUnits_ne_nil stream r hr)
    obtain ⟨y, hy⟩ := List.exists_mem_of_ne_nil s (timedUnits_ne_nil stream s hs)
    have hle := hrs x hx y hy
    rw [hw.2 x hx, hv.2 y hy]
    omega

section Samples

def pictureAt (t : ℤ) : VideoFrame × ℤ := (⟨[0x41, 4], UInt32.ofNat t.toNat, false⟩, t)

def sevenHours : List (VideoFrame × ℤ) := [pictureAt 0, pictureAt 1134000000, pictureAt 2268000000]

theorem sevenHours_timed : Timed sevenHours := by
  refine ⟨?_, ?_⟩
  · decide +kernel
  · unfold sevenHours
    refine .cons_cons ?_ (.cons_cons ?_ (.singleton _)) <;> decide

theorem pts_follow_stream_hour : FollowsStream
    (writtenOf 0 [] [] ([pictureAt 0, pictureAt 324000000].map Prod.fst))
    [pictureAt 0, pictureAt 324000000] := by
  have htimed : Timed [pictureAt 0, pictureAt 324000000] := by
    refine ⟨by decide +kernel, .cons_cons (by decide) (.singleton _)⟩
  exact (pts_follow_stream 0 [] [] _ htimed).2.mpr (by decide +kernel)

/-- After six hours and a half the times are negative. -/
theorem pts_negative_after_hours :
    (writtenOf 0 [] [] (sevenHours.map Prod.fst)).map Write.pts =
      [0, 1134000000, -2026967296] ∧
    Timed sevenHours ∧
    ¬FollowsStream (writtenOf 0 [] [] (sevenHours.map Prod.fst)) sevenHours := by
  have hpts : (writtenOf 0 [] [] (sevenHours.map Prod.fst)).map Write.pts =
      [0, 1134000000, -2026967296] := by decide +kernel
  refine ⟨hpts, sevenHours_timed, fun h => ?_⟩
  have hmonotone := h.monotone
  rw [hpts] at hmonotone
  revert hmonotone
  decide

end Samples

end Aevia.Whip
