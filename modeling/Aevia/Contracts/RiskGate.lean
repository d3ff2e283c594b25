import Aevia.Contracts.BoostSplit
import Aevia.Contracts.OracleSteps

/-!
# The risk gate from oracle to router

Whatever is called on the oracle, every stored score is in range and an
absolute one is the maximum. The router sees the composite only, and that is
enough to keep absolute manifests out.
-/

set_option autoImplicit false

namespace Aevia.RiskOracle
open Aevia.Evm Aevia.Fallible Aevia.Run

def Oracle.feed (o : Oracle) : BoostRouter.IRiskOracle := ⟨fun m => some (o.scoreBps m)⟩

theorem deploy_bounded (scoringService council : Address) (o : Oracle)
    (h : deploy scoringService council = .ok o) (m : Bytes32) : (o.scoreOf m).Bounded := by
  simp only [deploy, guard_ok, Except.ok.injEq] at h
  obtain ⟨-, -, rfl⟩ := h
  exact unset_bounded

theorem next_bounded (o : Oracle) (a : Action) (ho : ∀ m, (o.scoreOf m).Bounded) :
    ∀ m, ((next o a).scoreOf m).Bounded := by
  intro m
  cases next_effect o a m with
  | untouched a hscore hcontest =>
    rw [hscore]
    exact ho m
  | published timestamp s hfree hvalid hscore hcontest =>
    rw [hscore]
    exact hvalid
  | contested id hid hfree hscore hcontest =>
    rw [hscore]
    exact ho m
  | resolved timestamp id s hid hactive hvalid hscore hcontest =>
    rw [hscore]
    exact hvalid

theorem run_bounded (o : Oracle) (actions : List Action) (ho : ∀ m, (o.scoreOf m).Bounded) :
    ∀ m, ((run next o actions).scoreOf m).Bounded :=
  run_invariant next (fun t => ∀ m, (t.scoreOf m).Bounded) next_bounded o actions ho

/-- After any calls of the oracle, by anyone: scores are in range and absolute
ones are the maximum, and a boost that reads this oracle, of any router and
registry in any state, is of a registered manifest below the threshold, so not
of an absolute one. -/
theorem boost_only_below_threshold (scoringService council : Address) (o : Oracle)
    (hdeploy : deploy scoringService council = .ok o) (actions : List Action) :
    let o' := run next o actions
    (∀ m, (o'.scoreOf m).r.toNat ≤ 10000 ∧ (o'.scoreOf m).rLegal.toNat ≤ 10000 ∧
      (o'.scoreOf m).rAbuse.toNat ≤ 10000 ∧ (o'.scoreOf m).rValues.toNat ≤ 10000 ∧
      ((o'.scoreOf m).isAbsolute = true → (o'.scoreOf m).r = 10000)) ∧
    ∀ (T : StandardToken) (router : Address) (s s' : BoostRouter.Router T router)
      (registry : BoostRouter.IContentRegistry) (sender : BoostRouter.Caller router) (m : Bytes32)
      (amount : ℕ), BoostRouter.boost s registry o'.feed sender m amount = .ok s' →
      registry.isRegistered m = some true ∧ (o'.scoreOf m).r.toNat < 3000 ∧
        (o'.scoreOf m).isAbsolute = false := by
  intro o'
  have hbounded : ∀ m, (o'.scoreOf m).Bounded :=
    run_bounded o actions (deploy_bounded scoringService council o hdeploy)
  constructor
  · intro m
    have hm := hbounded m
    exact ⟨hm.r,hm.rLegal,hm.rAbuse,hm.rValues,hm.absolute⟩
  · intro T router s s' registry sender m amount h
    obtain ⟨-, hregistered, ⟨rBps, hscore, hgate⟩, -⟩ :=
      BoostRouter.boost_ok s s' registry o'.feed sender m amount h
    have hr : (o'.scoreOf m).r = rBps := Option.some.inj hscore
    have hbelow : (o'.scoreOf m).r.toNat < 3000 := by
      rw [hr]
      exact hgate
    refine ⟨hregistered, hbelow, ?_⟩
    by_contra habsolute
    have hmax := (hbounded m).absolute (by simpa using habsolute)
    rw [hmax] at hbelow
    exact absurd hbelow (by decide)

section Samples

def freshOracle : Oracle := ⟨fun _ => Score.unset, fun _ => 0, 3, 4, []⟩

def publications : List Action :=
  [.publishScore 3 1000 9 ⟨2999, 100, 2000, 400, 1000, 3, false⟩,
    .publishScore 3 1000 8 ⟨10000, 10000, 0, 0, 1000, 3, true⟩]

theorem boost_only_below_threshold_sample :
    ∃ s', BoostRouter.boost BoostRouter.sampleRouter BoostRouter.sampleRegistry
        (run next freshOracle publications).feed ⟨2, by decide⟩ 9 1000003 = .ok s' ∧
      ((run next freshOracle publications).scoreOf 9).isAbsolute = false := by
  obtain ⟨s', h⟩ := exists_ok (BoostRouter.boost BoostRouter.sampleRouter
    BoostRouter.sampleRegistry (run next freshOracle publications).feed ⟨2, by decide⟩ 9 1000003)
    (by decide +kernel)
  exact ⟨s',h,((boost_only_below_threshold 3 4 freshOracle rfl publications).2 ledgerToken 0x100
    BoostRouter.sampleRouter s' BoostRouter.sampleRegistry ⟨2, by decide⟩ 9 1000003 h).2.2⟩

end Samples

end Aevia.RiskOracle
