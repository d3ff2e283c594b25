import Aevia.Contracts.RiskOracle

/-!
# What an accepted call does to one manifest

Every entry point reads and writes the entries of a single manifest or only a
role. Seen from one manifest, a call either leaves its score and contest alone
or is one of the three calls that name it, with the checks that call has passed.
-/

set_option autoImplicit false

namespace Aevia.RiskOracle
open Aevia.Evm Aevia.Fallible

structure Score.Bounded (s : Score) : Prop where
  r : s.r ≤ bpsMax
  rLegal : s.rLegal ≤ bpsMax
  rAbuse : s.rAbuse ≤ bpsMax
  rValues : s.rValues ≤ bpsMax
  absolute : s.isAbsolute = true → s.r = bpsMax

theorem validateScore_ok (timestamp : BitVec 256) (s : Score)
    (h : validateScore timestamp s = .ok ()) : s.Bounded := by
  simp only [validateScore, guard_ok, BitVec.not_lt, not_and, not_not] at h
  obtain ⟨hr, hlegal, habuse, hvalues, habsolute, -⟩ := h
  exact ⟨hr,hlegal,habuse,hvalues,habsolute⟩

theorem unset_bounded : Score.unset.Bounded := by
  constructor <;> decide

/-- A successful call as one manifest sees it. -/
inductive Effect (o o' : Oracle) (m : Bytes32) : Action → Prop where
  | untouched (a : Action) (hscore : o'.scoreOf m = o.scoreOf m)
      (hcontest : o'.activeContestOf m = o.activeContestOf m) : Effect o o' m a
  | published (timestamp : BitVec 256) (s : Score) (hfree : o.activeContestOf m = 0)
      (hvalid : s.Bounded) (hscore : o'.scoreOf m = s)
      (hcontest : o'.activeContestOf m = 0) :
      Effect o o' m (.publishScore o.scoringService timestamp m s)
  | contested (id : Bytes32) (hid : id ≠ 0) (hfree : o.activeContestOf m = 0)
      (hscore : o'.scoreOf m = o.scoreOf m) (hcontest : o'.activeContestOf m = id) :
      Effect o o' m (.contestScore o.council m id)
  | resolved (timestamp : BitVec 256) (id : Bytes32) (s : Score) (hid : id ≠ 0)
      (hactive : o.activeContestOf m = id) (hvalid : s.Bounded) (hscore : o'.scoreOf m = s)
      (hcontest : o'.activeContestOf m = 0) :
      Effect o o' m (.resolveContest o.council timestamp m id s)

def Action.manifest : Action → Option Bytes32
  | .publishScore _ _ m _ => some m
  | .contestScore _ m _ => some m
  | .resolveContest _ _ m _ _ => some m
  | .rotateScoringServiceKey _ _ => none
  | .setCouncil _ _ => none

theorem publishScore_effect (o o' : Oracle) (sender : Address) (timestamp : BitVec 256)
    (m : Bytes32) (s : Score) (h : publishScore o sender timestamp m s = .ok o') :
    Effect o o' m (.publishScore sender timestamp m s) := by
  simp only [publishScore, guard_ok, bind_ok, not_not, Except.ok.injEq] at h
  obtain ⟨rfl, hfree, ⟨⟩, hvalid, rfl⟩ := h
  apply Effect.published timestamp s hfree (validateScore_ok _ _ hvalid)
  · simp [Oracle.scoreOf]
  · exact hfree

theorem contestScore_effect (o o' : Oracle) (sender : Address) (m id : Bytes32)
    (h : contestScore o sender m id = .ok o') : Effect o o' m (.contestScore sender m id) := by
  simp only [contestScore, guard_ok, not_not, Except.ok.injEq] at h
  obtain ⟨rfl, hid, hfree, rfl⟩ := h
  apply Effect.contested id hid hfree
  · rfl
  · simp [Oracle.activeContestOf]

theorem resolveContest_effect (o o' : Oracle) (sender : Address) (timestamp : BitVec 256)
    (m id : Bytes32) (s : Score) (h : resolveContest o sender timestamp m id s = .ok o') :
    Effect o o' m (.resolveContest sender timestamp m id s) := by
  simp only [resolveContest, guard_ok, bind_ok, not_not, Except.ok.injEq] at h
  obtain ⟨rfl, hid, hactive, ⟨⟩, hvalid, rfl⟩ := h
  apply Effect.resolved timestamp id s (hactive ▸ hid) hactive (validateScore_ok _ _ hvalid)
  · simp [Oracle.scoreOf]
  · simp [Oracle.activeContestOf]

theorem execute_frame (o o' : Oracle) (a : Action) (m : Bytes32) (h : execute o a = .ok o')
    (hother : a.manifest ≠ some m) :
    o'.scoreOf m = o.scoreOf m ∧ o'.activeContestOf m = o.activeContestOf m := by
  cases a with
  | publishScore sender timestamp m' s =>
    have hm : m ≠ m' := fun heq => hother (congrArg some heq.symm)
    simp only [execute, publishScore, guard_ok, bind_ok, Except.ok.injEq] at h
    obtain ⟨-, -, -, -, rfl⟩ := h
    simp [Oracle.scoreOf, Oracle.activeContestOf, hm]
  | contestScore sender m' id =>
    have hm : m ≠ m' := fun heq => hother (congrArg some heq.symm)
    simp only [execute, contestScore, guard_ok, Except.ok.injEq] at h
    obtain ⟨-, -, -, rfl⟩ := h
    simp [Oracle.scoreOf, Oracle.activeContestOf, hm]
  | resolveContest sender timestamp m' id s =>
    have hm : m ≠ m' := fun heq => hother (congrArg some heq.symm)
    simp only [execute, resolveContest, guard_ok, bind_ok, Except.ok.injEq] at h
    obtain ⟨-, -, -, -, -, rfl⟩ := h
    simp [Oracle.scoreOf, Oracle.activeContestOf, hm]
  | rotateScoringServiceKey sender key =>
    simp only [execute, rotateScoringServiceKey, guard_ok, Except.ok.injEq] at h
    obtain ⟨-, -, rfl⟩ := h
    exact ⟨rfl,rfl⟩
  | setCouncil sender council =>
    simp only [execute, setCouncil, guard_ok, Except.ok.injEq] at h
    obtain ⟨-, -, rfl⟩ := h
    exact ⟨rfl,rfl⟩

theorem execute_effect (o o' : Oracle) (a : Action) (m : Bytes32) (h : execute o a = .ok o') :
    Effect o o' m a := by
  by_cases hm : a.manifest = some m
  · cases a with
    | publishScore sender timestamp m' s =>
      cases hm
      exact publishScore_effect o o' sender timestamp m s h
    | contestScore sender m' id =>
      cases hm
      exact contestScore_effect o o' sender m id h
    | resolveContest sender timestamp m' id s =>
      cases hm
      exact resolveContest_effect o o' sender timestamp m id s h
    | rotateScoringServiceKey sender key => cases hm
    | setCouncil sender council => cases hm
  · obtain ⟨hscore, hcontest⟩ := execute_frame o o' a m h hm
    exact .untouched a hscore hcontest

theorem next_effect (o : Oracle) (a : Action) (m : Bytes32) : Effect o (next o a) m a :=
  committed (fun t => Effect o t m a) o (execute o a) (.untouched a rfl rfl)
    (fun o' h => execute_effect o o' a m h)

end Aevia.RiskOracle
