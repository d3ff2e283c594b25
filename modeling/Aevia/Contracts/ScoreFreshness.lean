import Aevia.Contracts.OracleSteps

/-!
# How far a score can fall back

A score is accepted in a window around the time of its block and nothing else
compares it with the score it replaces. So a score can be replaced by an older
one, but not by one that is older by more than the width of the window.
-/

set_option autoImplicit false

namespace Aevia.RiskOracle
open Aevia.Evm Aevia.Fallible Aevia.Run

def Action.nowTs : Action → Option (BitVec 64)
  | .publishScore _ timestamp _ _ => some (timestamp.setWidth 64)
  | .resolveContest _ timestamp _ _ _ => some (timestamp.setWidth 64)
  | _ => none

def blockTimes (actions : List Action) : List (BitVec 64) := actions.filterMap Action.nowTs

structure InWindow (nowTs : BitVec 64) (s : Score) : Prop where
  notAncient : nowTs.toNat ≤ s.updatedAt.toNat+maxPublishSkew.toNat
  notFuture : s.updatedAt.toNat ≤ nowTs.toNat+maxPublishSkew.toNat

theorem validateScore_window (timestamp : BitVec 256) (s : Score)
    (h : validateScore timestamp s = .ok ()) : InWindow (timestamp.setWidth 64) s := by
  simp only [validateScore, guard_ok, not_or, BitVec.not_lt] at h
  obtain ⟨-, -, -, -, -, hfits, ⟨hlo, hhi⟩, -⟩ := h
  generalize timestamp.setWidth 64 = nowTs at *
  have hsum : (nowTs+maxPublishSkew).toNat = nowTs.toNat+maxPublishSkew.toNat := by
    rw [BitVec.toNat_add]
    exact Nat.mod_eq_of_lt (by omega)
  constructor
  · by_cases hearly : maxPublishSkew < nowTs
    · rw [if_pos hearly, BitVec.le_def, BitVec.toNat_sub_of_le (BitVec.le_of_lt hearly)] at hlo
      omega
    · rw [BitVec.not_lt, BitVec.le_def] at hearly
      omega
  · rw [BitVec.le_def, hsum] at hhi
    exact hhi

theorem next_written (o : Oracle) (a : Action) (m : Bytes32) :
    (next o a).scoreOf m = o.scoreOf m ∨
      ∃ nowTs, a.nowTs = some nowTs ∧ InWindow nowTs ((next o a).scoreOf m) := by
  apply committed (fun t => t.scoreOf m = o.scoreOf m ∨
    ∃ nowTs, a.nowTs = some nowTs ∧ InWindow nowTs (t.scoreOf m)) o (execute o a) (.inl rfl)
  intro o' hexec
  cases execute_effect o o' a m hexec with
  | untouched a hscore hcontest => exact .inl hscore
  | contested id hid hfree hscore hcontest => exact .inl hscore
  | published timestamp s hfree hvalid hscore hcontest =>
    right
    simp only [execute, publishScore, guard_ok, bind_ok] at hexec
    obtain ⟨-, -, ⟨⟩, hwindow, -⟩ := hexec
    rw [hscore]
    exact ⟨_,rfl,validateScore_window timestamp s hwindow⟩
  | resolved timestamp id s hid hactive hvalid hscore hcontest =>
    right
    simp only [execute, resolveContest, guard_ok, bind_ok] at hexec
    obtain ⟨-, -, -, ⟨⟩, hwindow, -⟩ := hexec
    rw [hscore]
    exact ⟨_,rfl,validateScore_window timestamp s hwindow⟩

theorem along_times (guard : BitVec 64 → Prop) (o : Oracle) (actions : List Action)
    (h : ∀ t ∈ blockTimes actions, guard t) :
    Along next (fun _ a => ∀ t, a.nowTs = some t → guard t) o actions := by
  induction actions generalizing o with
  | nil => trivial
  | cons a actions ih =>
    constructor
    · intro t ht
      exact h t (List.mem_filterMap.mpr ⟨a,List.mem_cons_self,ht⟩)
    · apply ih
      intro t ht
      obtain ⟨b, hb, hbt⟩ := List.mem_filterMap.mp ht
      exact h t (List.mem_filterMap.mpr ⟨b,List.mem_cons_of_mem a hb,hbt⟩)

theorem updatedAt_le (o : Oracle) (actions : List Action) (m : Bytes32) (t : ℕ)
    (hstart : (o.scoreOf m).updatedAt.toNat ≤ t+maxPublishSkew.toNat)
    (h : ∀ nowTs ∈ blockTimes actions, nowTs.toNat ≤ t) :
    ((run next o actions).scoreOf m).updatedAt.toNat ≤ t+maxPublishSkew.toNat := by
  apply along_invariant next (fun _ a => ∀ nowTs, a.nowTs = some nowTs → nowTs.toNat ≤ t)
    (fun o => (o.scoreOf m).updatedAt.toNat ≤ t+maxPublishSkew.toNat) _ o actions hstart
  · exact along_times _ o actions h
  · intro o a ho hguard
    rcases next_written o a m with hsame | ⟨nowTs, hnow, hwindow⟩
    · rw [hsame]
      exact ho
    · exact hwindow.notFuture.trans (Nat.add_le_add_right (hguard nowTs hnow) _)

theorem updatedAt_ge (o : Oracle) (actions : List Action) (m : Bytes32) (t : ℕ)
    (h : ∀ nowTs ∈ blockTimes actions, t ≤ nowTs.toNat) :
    (run next o actions).scoreOf m = o.scoreOf m ∨
      t ≤ ((run next o actions).scoreOf m).updatedAt.toNat+maxPublishSkew.toNat := by
  apply along_invariant next (fun _ a => ∀ nowTs, a.nowTs = some nowTs → t ≤ nowTs.toNat)
    (fun o' => o'.scoreOf m = o.scoreOf m ∨
      t ≤ (o'.scoreOf m).updatedAt.toNat+maxPublishSkew.toNat) _ o actions (.inl rfl)
  · exact along_times _ o actions h
  · intro o' a ho hguard
    rcases next_written o' a m with hsame | ⟨nowTs, hnow, hwindow⟩
    · rw [hsame]
      exact ho
    · exact .inr ((hguard nowTs hnow).trans hwindow.notAncient)

theorem split_time (before after : List (BitVec 64)) (h : (before++after).Pairwise (· ≤ ·)) :
    before = [] ∨ ∃ t, (∀ a ∈ before, a.toNat ≤ t) ∧ ∀ b ∈ after, t ≤ b.toNat := by
  rcases List.eq_nil_or_concat before with hnil | ⟨front, last, rfl⟩
  · exact .inl hnil
  · right
    rw [List.concat_eq_append] at h ⊢
    obtain ⟨hbefore, -, hafter⟩ := List.pairwise_append.mp h
    refine ⟨last.toNat, ?_, fun b hb => hafter last (by simp) b hb⟩
    intro a ha
    rcases List.mem_append.mp ha with ha | ha
    · exact (List.pairwise_append.mp hbefore).2.2 a ha last (by simp)
    · rw [List.mem_singleton.mp ha]

/-- In a run whose block times do not decrease, no score is ever followed by one
that is older by more than twice the skew. -/
theorem score_falls_back_bounded (scoringService council : Address) (o : Oracle)
    (hdeploy : deploy scoringService council = .ok o) (before after : List Action)
    (htimes : (blockTimes (before++after)).Pairwise (· ≤ ·)) (m : Bytes32) :
    ((run next o before).scoreOf m).updatedAt.toNat ≤
      ((run next o (before++after)).scoreOf m).updatedAt.toNat+2*maxPublishSkew.toNat := by
  have hunset : o.scoreOf m = Score.unset := by
    simp only [deploy, guard_ok, Except.ok.injEq] at hdeploy
    obtain ⟨-, -, rfl⟩ := hdeploy
    rfl
  have hzero : (o.scoreOf m).updatedAt.toNat = 0 := by
    rw [hunset]
    rfl
  have hsplit : blockTimes (before++after) = blockTimes before++blockTimes after :=
    List.filterMap_append
  rw [hsplit] at htimes
  rw [run_append]
  rcases split_time _ _ htimes with hnone | ⟨t, hbefore, hafter⟩
  · -- without a publication the entry is still unset
    rcases updatedAt_ge o before m (2^64+maxPublishSkew.toNat) (by simp [hnone]) with hsame | hge
    · rw [hsame, hzero]
      exact Nat.zero_le _
    · have hlt := ((run next o before).scoreOf m).updatedAt.isLt
      omega
  · have hle := updatedAt_le o before m t (by omega) hbefore
    rcases updatedAt_ge (run next o before) after m t hafter with hsame | hge
    · rw [hsame]
      exact Nat.le_add_right _ _
    · omega

section Samples

/-- Two publications of one block, the newer first, at either end of the window. -/
def olderScore : Score := { Score.unset with r := 100, updatedAt := 6400 }
def newerScore : Score := { Score.unset with r := 9000, updatedAt := 13600 }

def publishedOracle : Oracle := ⟨fun _ => Score.unset, fun _ => 0, 3, 4, []⟩

def publish (s : Score) : Action := .publishScore 3 10000 9 s

theorem score_falls_back_bounded_published :
    ((run next publishedOracle [publish newerScore]).scoreOf 9).updatedAt = 13600 ∧
    ((run next publishedOracle [publish newerScore]).scoreOf 9).updatedAt.toNat ≤
      ((run next publishedOracle ([publish newerScore]++[publish olderScore])).scoreOf
        9).updatedAt.toNat+2*maxPublishSkew.toNat :=
  ⟨by decide +kernel,score_falls_back_bounded 3 4 publishedOracle rfl [publish newerScore]
    [publish olderScore] (by decide +kernel) 9⟩

/-- A publication that is submitted again after a newer one replaces it. -/
theorem resubmitted_score_replaces_newer :
    deploy 3 4 = .ok publishedOracle ∧
    (blockTimes [publish olderScore, publish newerScore, publish olderScore]).Pairwise (· ≤ ·) ∧
    ((run next publishedOracle [publish olderScore, publish newerScore]).scoreOf 9).updatedAt =
      13600 ∧
    ((run next publishedOracle
      [publish olderScore, publish newerScore, publish olderScore]).scoreOf 9).updatedAt = 6400 :=
  ⟨rfl,by decide +kernel,by decide +kernel,by decide +kernel⟩

end Samples

end Aevia.RiskOracle
