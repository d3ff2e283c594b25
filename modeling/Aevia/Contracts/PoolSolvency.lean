import Aevia.Contracts.PoolSteps
import Mathlib.Data.Fintype.BigOperators

/-!
# Solvency of the pool

The pool owes every recorded allocation that has not been claimed. A claim
lowers the debt and the balance alike, and nothing else takes tokens out, so
the only step that can outrun the balance is a settlement: the contract checks
it against the whole balance, not against what earlier settlements left free.
-/

set_option autoImplicit false

namespace Aevia.PersistencePool
open Aevia.Apportion Aevia.Evm Aevia.Fallible Aevia.Run

variable {T : StandardToken}

/-- The unclaimed part of one settlement's row. -/
def rowOutstanding (claimed : Address → Bool) (row : Address → ℕ) : ℕ :=
  ∑ p, if claimed p then 0 else row p

def outstanding (s : Pool T) : ℕ :=
  ∑ id, rowOutstanding (s.claimed id) (s.allocations id)

def Solvent (s : Pool T) : Prop := outstanding s ≤ s.poolBalance

/-- No provider with an unclaimed allocation is turned away for lack of funds. -/
def Payable (s : Pool T) : Prop :=
  ∀ id p, s.allocations id p ≠ 0 → s.claimed id p = false →
    s.allocations id p ≤ s.poolBalance ∧ claim s p id ≠ .error .tokenCallFailed

/-- What a settlement hands out: each address once, by its last entry. -/
def newlyAllocated (providers : List Address) (bytesServed : List ℕ) (R : ℕ) : ℕ :=
  lastTotal (shares R bytesServed.sum (providers.zip bytesServed))

/-- A settlement that the contract accepts fits beside the unclaimed allocations. -/
def Covered (s : Pool T) : Action T → Prop
  | .submitSettlement sender timestamp root providers bytesServed R =>
      ∀ id s', submitSettlement s sender timestamp root providers bytesServed R = .ok (id, s') →
        outstanding s+newlyAllocated providers bytesServed R ≤ s.poolBalance
  | _ => True

theorem rowOutstanding_assign (claimed : Address → Bool) (row : Address → ℕ)
    (es : List (Address × ℕ)) :
    rowOutstanding claimed (assign es row) ≤ rowOutstanding claimed row+lastTotal es := by
  rw [← sum_assign es, rowOutstanding, rowOutstanding, ← Finset.sum_add_distrib]
  apply Finset.sum_le_sum
  intro p _
  by_cases hc : claimed p
  · simp [hc]
  · simpa [hc] using assign_le es row p

theorem rowOutstanding_claimed (claimed : Address → Bool) (row : Address → ℕ) (p : Address)
    (hc : claimed p = false) :
    rowOutstanding (Function.update claimed p true) row+row p = rowOutstanding claimed row := by
  have hrow : (fun q => if Function.update claimed p true q then 0 else row q) =
      Function.update (fun q => if claimed q then 0 else row q) p 0 := by
    funext q
    by_cases hq : q = p
    · simp [hq]
    · simp [hq]
  have hsum := sum_update (fun q => if claimed q then 0 else row q) p 0
  simp only [rowOutstanding, hrow]
  simpa [hc] using hsum

theorem outstanding_row (s s' : Pool T) (id : SettlementId)
    (hclaimed : ∀ k ≠ id, s'.claimed k = s.claimed k)
    (hrows : ∀ k ≠ id, s'.allocations k = s.allocations k) :
    outstanding s'+rowOutstanding (s.claimed id) (s.allocations id) =
      outstanding s+rowOutstanding (s'.claimed id) (s'.allocations id) := by
  have hs' : (fun k => rowOutstanding (s'.claimed k) (s'.allocations k)) =
      Function.update (fun k => rowOutstanding (s.claimed k) (s.allocations k)) id
        (rowOutstanding (s'.claimed id) (s'.allocations id)) := by
    funext k
    by_cases hk : k = id
    · subst hk
      simp
    · simp [hk, hclaimed k hk, hrows k hk]
  simp only [outstanding, hs']
  exact sum_update (fun k => rowOutstanding (s.claimed k) (s.allocations k)) id _

theorem outstanding_unallocated (s : Pool T) (h : s.allocations = fun _ _ => 0) :
    outstanding s = 0 := by
  simp only [outstanding, rowOutstanding, h, ite_self, Finset.sum_const_zero]

theorem allocation_le_outstanding (s : Pool T) (id : SettlementId) (p : Address)
    (hc : s.claimed id p = false) : s.allocations id p ≤ outstanding s := by
  have hrow : s.allocations id p ≤ rowOutstanding (s.claimed id) (s.allocations id) := by
    simpa [rowOutstanding, hc] using Finset.single_le_sum (fun q _ => Nat.zero_le _)
      (f := fun q => if s.claimed id q then 0 else s.allocations id q) (Finset.mem_univ p)
  exact hrow.trans (Finset.single_le_sum (fun k _ => Nat.zero_le _)
    (f := fun k => rowOutstanding (s.claimed k) (s.allocations k)) (Finset.mem_univ id))

theorem submitSettlement_outstanding (s s' : Pool T) (sender : Address) (timestamp : ℕ)
    (root : Bytes32) (providers : List Address) (bytesServed : List ℕ) (R : ℕ)
    (id : SettlementId)
    (h : submitSettlement s sender timestamp root providers bytesServed R = .ok (id, s')) :
    outstanding s' ≤ outstanding s+newlyAllocated providers bytesServed R := by
  obtain ⟨-, -, -, -, -, served, events, hs', -⟩ := submitSettlement_ok _ _ _ _ _ _ _ _ _ h
  have hclaimed : s'.claimed = s.claimed := by rw [hs']
  have hrows : s'.allocations = Function.update s.allocations id
      (assign (shares R bytesServed.sum (providers.zip bytesServed)) (s.allocations id)) := by
    rw [hs']
  have hrow := outstanding_row s s' id (fun k _ => by rw [hclaimed])
    (fun k hk => by rw [hrows, Function.update_of_ne hk])
  have hassign := rowOutstanding_assign (s.claimed id) (s.allocations id)
    (shares R bytesServed.sum (providers.zip bytesServed))
  rw [hclaimed, hrows, Function.update_self] at hrow
  unfold newlyAllocated
  omega

theorem claim_outstanding (s s' : Pool T) (sender : Address) (id : SettlementId) (amount : ℕ)
    (h : claim s sender id = .ok (amount, s')) : outstanding s'+amount = outstanding s := by
  obtain ⟨rfl, -, hunclaimed, token, -, hs'⟩ := claim_ok _ _ _ _ _ h
  have hrows : s'.allocations = s.allocations := by rw [hs']
  have hclaimed : s'.claimed =
      Function.update s.claimed id (Function.update (s.claimed id) sender true) := by rw [hs']
  have hrow := outstanding_row s s' id
    (fun k hk => by rw [hclaimed, Function.update_of_ne hk]) (fun k _ => by rw [hrows])
  have hpaid := rowOutstanding_claimed (s.claimed id) (s.allocations id) sender hunclaimed
  rw [hclaimed, hrows, Function.update_self] at hrow
  omega

theorem claim_balance (s s' : Pool T) (sender : Address) (id : SettlementId) (amount : ℕ)
    (h : claim s sender id = .ok (amount, s')) : s.poolBalance ≤ s'.poolBalance+amount := by
  obtain ⟨-, -, -, token, ht, rfl⟩ := claim_ok _ _ _ _ _ h
  obtain ⟨hfunded, hmoved⟩ := T.transfer_moves _ _ _ _ _ ht
  simp only [Pool.poolBalance, hmoved]
  exact moved_source _ _ _ _ hfunded

def AllocatesToAccounts (s : Pool T) : Prop := ∀ id p, s.allocations id p ≠ 0 → p ≠ 0

theorem execute_accounts (s s' : Pool T) (a : Action T) (hs : AllocatesToAccounts s)
    (h : execute s a = .ok s') : AllocatesToAccounts s' := by
  cases execute_effect s s' a h with
  | untouched a htables =>
    intro id p hp
    rw [htables.allocations] at hp
    exact hs id p hp
  | settled sender timestamp root providers bytesServed R id hsettle =>
    obtain ⟨-, -, hproviders, hlen, -, served, events, rfl, -⟩ :=
      submitSettlement_ok _ _ _ _ _ _ _ _ _ hsettle
    intro k p hp
    by_cases hk : k = id
    · subst hk
      by_cases hmem : p ∈ (providers.zip bytesServed).map Prod.fst
      · rw [List.map_fst_zip (by omega)] at hmem
        exact hproviders p hmem
      · have hmem' : p ∉ (shares R bytesServed.sum (providers.zip bytesServed)).map Prod.fst := by
          rwa [shares_keys]
        simp only [Function.update_self, assign_unwritten _ _ _ hmem'] at hp
        exact hs k p hp
    · exact hs k p (by simpa [Function.update_of_ne hk] using hp)
  | claimed sender id amount hclaim =>
    obtain ⟨-, -, -, token, -, rfl⟩ := claim_ok _ _ _ _ _ hclaim
    exact hs

theorem outstanding_of_tables (s s' : Pool T) (h : SameTables s s') :
    outstanding s' = outstanding s := by
  rw [outstanding, outstanding, h.claimed, h.allocations]

/-- The debt and the balance after any accepted transaction. Only an uncovered
settlement can leave more debt than balance. -/
theorem execute_solvent (s s' : Pool T) (a : Action T) (hs : Solvent s) (hcovered : Covered s a)
    (h : execute s a = .ok s') : Solvent s' := by
  cases execute_effect s s' a h with
  | untouched a htables hbalance hevents =>
    rw [Solvent, outstanding_of_tables s s' htables]
    exact le_trans hs hbalance
  | settled sender timestamp root providers bytesServed R id hsettle =>
    have hdebt := submitSettlement_outstanding _ _ _ _ _ _ _ _ _ hsettle
    have hfits := hcovered id s' hsettle
    obtain ⟨-, -, -, -, -, served, events, rfl, -⟩ :=
      submitSettlement_ok _ _ _ _ _ _ _ _ _ hsettle
    exact le_trans hdebt hfits
  | claimed sender id amount hclaim =>
    have hdebt := claim_outstanding _ _ _ _ _ hclaim
    have hbalance := claim_balance _ _ _ _ _ hclaim
    unfold Solvent at hs ⊢
    omega

theorem solvent_payable (s : Pool T) (hs : Solvent s) (haccounts : AllocatesToAccounts s) :
    Payable s := by
  intro id p hamount hunclaimed
  have hfunds := (allocation_le_outstanding s id p hunclaimed).trans hs
  refine ⟨hfunds, ?_⟩
  have htransfer := T.transfer_funded s.token s.self p _ s.self.2 (haccounts id p hamount) hfunds
  obtain ⟨token, ht⟩ := Option.isSome_iff_exists.mp htransfer
  simp only [claim, hamount, hunclaimed, ht, if_false, Bool.false_eq_true]
  unfold checkedAdd
  split <;> simp [bind, Except.bind]

theorem deploy_solvent (self : {a : Address // a ≠ 0}) (token : T.State)
    (rewardToken coordinator : Address) (s : Pool T)
    (h : deploy self token rewardToken coordinator = .ok s) :
    Solvent s ∧ AllocatesToAccounts s := by
  simp only [deploy, guard_ok, Except.ok.injEq] at h
  obtain ⟨-, -, rfl⟩ := h
  refine ⟨?_, fun _ _ hp => absurd rfl hp⟩
  unfold Solvent
  rw [outstanding_unallocated _ rfl]
  exact Nat.zero_le _

theorem next_solvent (s : Pool T) (a : Action T) (hs : Solvent s ∧ AllocatesToAccounts s)
    (hcovered : Covered s a) : Solvent (next s a) ∧ AllocatesToAccounts (next s a) :=
  next_of_execute (fun t => Solvent t ∧ AllocatesToAccounts t) s a hs
    (fun t h => ⟨execute_solvent s t a hs.1 hcovered h,execute_accounts s t a hs.2 h⟩)

/-- Solvency of every state of a run whose settlements are covered, from the
deployment on: the debt stays within the balance and claims are paid. -/
theorem covered_run_solvent (self : {a : Address // a ≠ 0}) (token : T.State)
    (rewardToken coordinator : Address) (s : Pool T)
    (hdeploy : deploy self token rewardToken coordinator = .ok s)
    (actions : List (Action T)) (hcovered : Along next Covered s actions) :
    Solvent (run next s actions) ∧ Payable (run next s actions) := by
  have hinv := along_invariant next Covered (fun t : Pool T => Solvent t ∧ AllocatesToAccounts t)
    next_solvent s actions (deploy_solvent _ _ _ _ _ hdeploy) hcovered
  exact ⟨hinv.1,solvent_payable _ hinv.1 hinv.2⟩

section Runs

def backedActions : List (Action ledgerToken) :=
  [.deposit 2 0 100, .submitSettlement 1 0 7 [3] [1] 100]

theorem covered_run_solvent_backed :
    deploy ⟨0x100, by decide⟩ fundedLedger 0x200 1 = .ok samplePool ∧
    Along next Covered samplePool backedActions ∧
    Solvent (run next samplePool backedActions) ∧ Payable (run next samplePool backedActions) := by
  have hdeploy : deploy ⟨0x100, by decide⟩ fundedLedger 0x200 1 = .ok samplePool := rfl
  have hdebt : outstanding (next samplePool (.deposit 2 0 100)) = 0 := outstanding_unallocated _ rfl
  have hcovered : Along next Covered samplePool backedActions := by
    refine ⟨trivial, fun _ _ _ => ?_, trivial⟩
    rw [hdebt]
    decide
  exact ⟨hdeploy,hcovered,covered_run_solvent _ _ _ _ _ hdeploy _ hcovered⟩

def overcommittedActions : List (Action ledgerToken) :=
  backedActions++[.submitSettlement 1 0 8 [4] [1] 100, .claim 3 1]

/-- Both settlements were accepted, the second one is owed in full, and the
pool has nothing left to pay it with. -/
theorem overcommitted_pool_insolvent :
    deploy ⟨0x100, by decide⟩ fundedLedger 0x200 1 = .ok samplePool ∧
    (run next samplePool overcommittedActions).allocations 2 4 = 100 ∧
    (run next samplePool overcommittedActions).claimed 2 4 = false ∧
    ¬Solvent (run next samplePool overcommittedActions) ∧
    claim (run next samplePool overcommittedActions) 4 2 = .error .tokenCallFailed := by
  have hamount : (run next samplePool overcommittedActions).allocations 2 4 = 100 := by decide
  have hunclaimed : (run next samplePool overcommittedActions).claimed 2 4 = false := by decide
  have hbalance : (run next samplePool overcommittedActions).poolBalance = 0 := by decide
  refine ⟨rfl,hamount,hunclaimed,?_,by rfl⟩
  have hdebt := allocation_le_outstanding _ _ _ hunclaimed
  unfold Solvent
  omega

end Runs

end Aevia.PersistencePool
