import Aevia.Contracts.OracleSteps

/-!
# A contest freezes its manifest

While a contest is open, the score and the contest of the manifest stay as they
are in every run, up to the first call of the council of that moment that
resolves this contest.
-/

set_option autoImplicit false

namespace Aevia.RiskOracle
open Aevia.Evm Aevia.Fallible Aevia.Run

structure Locked (o : Oracle) (m id : Bytes32) (s : Score) : Prop where
  contest : o.activeContestOf m = id
  score : o.scoreOf m = s

/-- The call resolves the contest with a score: the council sends it, it
succeeds, and it leaves the score and no contest. -/
structure Resolves (o : Oracle) (a : Action) (m id : Bytes32) (s : Score) : Prop where
  call : ∃ timestamp, a = .resolveContest o.council timestamp m id s
  accepted : (execute o a).isOk = true
  score : (next o a).scoreOf m = s
  contest : (next o a).activeContestOf m = 0

theorem locked_step (o : Oracle) (a : Action) (m id : Bytes32) (hid : id ≠ 0) (s : Score)
    (h : Locked o m id s) : (∃ s', Resolves o a m id s') ∨ Locked (next o a) m id s := by
  cases hexec : execute o a with
  | error e =>
    right
    have hnext : next o a = o := by
      rw [next, hexec, commit_error]
    rwa [hnext]
  | ok o' =>
    have hnext : next o a = o' := by
      rw [next, hexec, commit_ok]
    cases execute_effect o o' a m hexec with
    | untouched a hscore hcontest =>
      right
      rw [hnext]
      exact ⟨hcontest.trans h.contest,hscore.trans h.score⟩
    | published timestamp s' hfree => exact (hid (h.contest.symm.trans hfree)).elim
    | contested id' hid' hfree => exact (hid (h.contest.symm.trans hfree)).elim
    | resolved timestamp id' s' hid' hactive hvalid hscore hcontest =>
      left
      obtain rfl : id' = id := hactive.symm.trans h.contest
      refine ⟨s', ⟨timestamp,rfl⟩, ?_, ?_, ?_⟩
      · rw [hexec]
        rfl
      · rw [hnext, hscore]
      · rw [hnext, hcontest]

/-- Once `contestScore` has opened a contest, the score from before and the
contest stay through every run, or up to the first call that resolves it; and
calls that name other manifests or only change a role never touch a manifest. -/
theorem contest_locks (o o' : Oracle) (sender : Address) (m id : Bytes32)
    (h : contestScore o sender m id = .ok o') (actions : List Action) :
    ((∀ before, before <+: actions → Locked (run next o' before) m id (o.scoreOf m)) ∨
      ∃ before a, before++[a] <+: actions ∧ (∃ s, Resolves (run next o' before) a m id s) ∧
        ∀ earlier, earlier <+: before → Locked (run next o' earlier) m id (o.scoreOf m)) ∧
    ∀ t a, a.manifest ≠ some m →
      (next t a).scoreOf m = t.scoreOf m ∧ (next t a).activeContestOf m = t.activeContestOf m := by
  constructor
  · have hid : id ≠ 0 ∧ Locked o' m id (o.scoreOf m) := by
      simp only [contestScore, guard_ok, Except.ok.injEq] at h
      obtain ⟨-, hid, -, rfl⟩ := h
      exact ⟨hid,by simp [Oracle.activeContestOf],rfl⟩
    exact run_until next (fun t => Locked t m id (o.scoreOf m))
      (fun t a => ∃ s, Resolves t a m id s)
      (fun t a ht => locked_step t a m id hid.1 (o.scoreOf m) ht) o' actions hid.2
  · intro t a hother
    exact committed (fun t' => t'.scoreOf m = t.scoreOf m ∧
      t'.activeContestOf m = t.activeContestOf m) t (execute t a) ⟨rfl,rfl⟩
      (fun t' hexec => execute_frame t t' a m hexec hother)

section Samples

/-- A manifest with a published score, and a contest that is resolved after a
rotation and a publication that comes too late. -/
def sampleScore : Score := ⟨2500, 100, 2000, 400, 1000, 3, false⟩

def sampleOracle : Oracle where
  scores := Function.update (fun _ => Score.unset) 9 sampleScore
  activeContest := fun _ => 0
  scoringService := 3
  council := 4
  events := []

def sampleActions : List Action := [.rotateScoringServiceKey 4 5,
  .publishScore 5 1200 9 { sampleScore with r := 0 },
  .resolveContest 4 1300 9 1 { sampleScore with r := 10000, isAbsolute := true }]

def contestedOracle : Oracle := next sampleOracle (.contestScore 4 9 1)

theorem contest_locks_sample :
    contestScore sampleOracle 4 9 1 = .ok contestedOracle ∧
    (run next contestedOracle sampleActions).scoreBps 9 = 10000 ∧
    ((∀ before, before <+: sampleActions →
      Locked (run next contestedOracle before) 9 1 (sampleOracle.scoreOf 9)) ∨
    ∃ before a, before++[a] <+: sampleActions ∧
      (∃ s, Resolves (run next contestedOracle before) a 9 1 s) ∧
      ∀ earlier, earlier <+: before →
        Locked (run next contestedOracle earlier) 9 1 (sampleOracle.scoreOf 9)) :=
  ⟨rfl,by decide +kernel,(contest_locks sampleOracle contestedOracle 4 9 1 rfl sampleActions).1⟩

end Samples

end Aevia.RiskOracle
