import Aevia.Contracts.PoolSteps
import Mathlib.Data.Fintype.BigOperators

/-!
# Payout accounting of the pool

Settlement ids count up from one, so a row is written once and then only read,
until the unchecked counter has gone through all of its `2^256` values. Under
that bound records are immutable, a row never exceeds its reward, and what a
provider was paid is the sum of the rows it has claimed.
-/

set_option autoImplicit false

namespace Aevia.PersistencePool
open Aevia.Apportion Aevia.Evm Aevia.Fallible Aevia.Run

variable {T : StandardToken}

def accepted (s : Pool T) : ℕ := s.events.countP Event.isSettlement

def Recorded (s : Pool T) (id : SettlementId) : Prop := 0 < id.toNat ∧ id.toNat ≤ accepted s

/-- What holds of the storage as long as the counter has not wrapped. -/
structure Accounted (s : Pool T) : Prop where
  counter : s.settlementCount.toNat = accepted s
  unwritten : ∀ id, ¬Recorded s id → s.settlements id = Settlement.unset ∧
    s.allocations id = (fun _ => 0) ∧ s.claimed id = fun _ => false
  bounded : ∀ id, ∑ p, s.allocations id p ≤ (s.settlements id).totalRewards
  paid : ∀ p, s.cumulativeRewardsPaid p = ∑ id, if s.claimed id p then s.allocations id p else 0

/-- A later state extends an earlier one: accepted settlements keep their
record and row. -/
structure Extends (s s' : Pool T) : Prop where
  accepted_le : accepted s ≤ accepted s'
  record : ∀ id, Recorded s id →
    s'.settlements id = s.settlements id ∧ s'.allocations id = s.allocations id

theorem Extends.refl (s : Pool T) : Extends s s :=
  ⟨le_refl _, fun _ _ => ⟨rfl,rfl⟩⟩

theorem Extends.trans {s t u : Pool T} (h : Extends s t) (g : Extends t u) : Extends s u where
  accepted_le := h.accepted_le.trans g.accepted_le
  record := by
    intro id hid
    have hid' : Recorded t id := ⟨hid.1,hid.2.trans h.accepted_le⟩
    exact ⟨(g.record id hid').1.trans (h.record id hid).1,
      (g.record id hid').2.trans (h.record id hid).2⟩

theorem fresh_accounted (self : {a : Address // a ≠ 0}) (token : T.State) (coordinator : Address) :
    Accounted (fresh self token coordinator) where
  counter := rfl
  unwritten := fun _ _ => ⟨rfl,rfl,rfl⟩
  bounded := by simp [fresh]
  paid := by simp [fresh]

theorem accepted_append (s s' : Pool T) (events : List Event)
    (h : s'.events = s.events++events) :
    accepted s' = accepted s+events.countP Event.isSettlement := by
  simp [accepted, h]

theorem accounted_of_tables (s s' : Pool T) (hs : Accounted s) (h : SameTables s s')
    (haccepted : accepted s' = accepted s) : Accounted s' ∧ Extends s s' := by
  refine ⟨⟨?_, ?_, ?_, ?_⟩, ⟨haccepted.ge, ?_⟩⟩
  · rw [h.counter, haccepted, hs.counter]
  · intro id hid
    rw [h.settlements, h.allocations, h.claimed]
    exact hs.unwritten id (by rwa [Recorded, haccepted] at hid)
  · rw [h.settlements, h.allocations]
    exact hs.bounded
  · rw [h.paid, h.claimed, h.allocations]
    exact hs.paid
  · intro id _
    rw [h.settlements, h.allocations]
    exact ⟨rfl,rfl⟩

theorem submitSettlement_accepted (s s' : Pool T) (sender : Address) (timestamp : ℕ)
    (root : Bytes32) (providers : List Address) (bytesServed : List ℕ) (R : ℕ)
    (id : SettlementId)
    (h : submitSettlement s sender timestamp root providers bytesServed R = .ok (id, s')) :
    accepted s' = accepted s+1 := by
  obtain ⟨-, -, -, -, -, served, events, hs', hevents⟩ := submitSettlement_ok _ _ _ _ _ _ _ _ _ h
  rw [accepted_append s s' _ (by rw [hs'])]
  have hnone : events.countP Event.isSettlement = 0 := by
    refine List.countP_eq_zero.mpr (fun ev hev => ?_)
    obtain ⟨p, b, a, rfl⟩ := hevents ev hev
    simp [Event.isSettlement]
  rw [List.countP_cons, hnone]
  simp [Event.isSettlement]

theorem submitSettlement_accounted (s s' : Pool T) (sender : Address) (timestamp : ℕ)
    (root : Bytes32) (providers : List Address) (bytesServed : List ℕ) (R : ℕ)
    (id : SettlementId) (hs : Accounted s)
    (h : submitSettlement s sender timestamp root providers bytesServed R = .ok (id, s'))
    (hbound : accepted s' < wordBound) : Accounted s' ∧ Extends s s' := by
  obtain ⟨-, -, -, hlen, hid, served, events, hs', -⟩ := submitSettlement_ok _ _ _ _ _ _ _ _ _ h
  have haccepted := submitSettlement_accepted _ _ _ _ _ _ _ _ _ h
  have hidNat : id.toNat = accepted s+1 := by
    rw [hid, BitVec.toNat_add, hs.counter]
    rw [haccepted] at hbound
    exact Nat.mod_eq_of_lt hbound
  have hnew : ¬Recorded s id := fun hr => by have := hr.2; omega
  obtain ⟨-, hrow, hunclaimed⟩ := hs.unwritten id hnew
  have hsettlements : s'.settlements = Function.update s.settlements id
      ⟨root, timestamp%2^64, R, bytesServed.sum, providers.length⟩ := by rw [hs']
  have hrows : s'.allocations = Function.update s.allocations id
      (assign (shares R bytesServed.sum (providers.zip bytesServed)) (s.allocations id)) := by
    rw [hs']
  have hclaimed : s'.claimed = s.claimed := by rw [hs']
  have hpaid : s'.cumulativeRewardsPaid = s.cumulativeRewardsPaid := by rw [hs']
  have hother : ∀ k, k ≠ id → (Recorded s' k ↔ Recorded s k) := by
    intro k hk
    have hkNat : k.toNat ≠ id.toNat := fun h => hk (BitVec.eq_of_toNat_eq h)
    simp only [Recorded, haccepted]
    omega
  refine ⟨⟨?_, ?_, ?_, ?_⟩, ⟨by omega, ?_⟩⟩
  · rw [haccepted, ← hidNat, hs']
  · intro k hk
    have hkid : k ≠ id := by
      rintro rfl
      exact hk ⟨by omega,by omega⟩
    rw [hsettlements, hrows, hclaimed, Function.update_of_ne hkid, Function.update_of_ne hkid]
    exact hs.unwritten k (fun hr => hk ((hother k hkid).mpr hr))
  · intro k
    by_cases hk : k = id
    · subst hk
      rw [hsettlements, hrows, Function.update_self, Function.update_self, hrow]
      have hsum : ((providers.zip bytesServed).map Prod.snd).sum = bytesServed.sum := by
        rw [List.map_snd_zip (by omega)]
      have htotal := lastTotal_shares_le R (providers.zip bytesServed)
      rw [hsum, ← sum_assign] at htotal
      exact htotal
    · rw [hsettlements, hrows, Function.update_of_ne hk, Function.update_of_ne hk]
      exact hs.bounded k
  · intro p
    rw [hpaid, hs.paid p, hclaimed, hrows]
    refine Finset.sum_congr rfl (fun k _ => ?_)
    by_cases hk : k = id
    · subst hk
      simp [hunclaimed]
    · rw [Function.update_of_ne hk]
  · intro k hk
    have hkid : k ≠ id := fun h => hnew (h ▸ hk)
    rw [hsettlements, hrows, Function.update_of_ne hkid, Function.update_of_ne hkid]
    exact ⟨rfl,rfl⟩

theorem claim_accounted (s s' : Pool T) (sender : Address) (id : SettlementId) (amount : ℕ)
    (hs : Accounted s) (h : claim s sender id = .ok (amount, s')) :
    Accounted s' ∧ Extends s s' := by
  obtain ⟨hamount, hnonzero, hunclaimed, token, -, hs'⟩ := claim_ok _ _ _ _ _ h
  have haccepted : accepted s' = accepted s := by
    rw [accepted_append s s' _ (by rw [hs'])]
    simp [Event.isSettlement]
  have hclaimed : s'.claimed =
      Function.update s.claimed id (Function.update (s.claimed id) sender true) := by rw [hs']
  have hsettlements : s'.settlements = s.settlements := by rw [hs']
  have hrows : s'.allocations = s.allocations := by rw [hs']
  have hpaid : s'.cumulativeRewardsPaid = Function.update s.cumulativeRewardsPaid sender
      (s.cumulativeRewardsPaid sender+amount) := by rw [hs']
  refine ⟨⟨?_, ?_, ?_, ?_⟩, ⟨haccepted.ge, ?_⟩⟩
  · rw [haccepted, ← hs.counter, hs']
  · intro k hk
    obtain ⟨hset, hrow, hun⟩ := hs.unwritten k (by rwa [Recorded, haccepted] at hk)
    have hkid : k ≠ id := by
      rintro rfl
      exact hnonzero (by rw [hamount, hrow])
    rw [hsettlements, hrows, hclaimed, Function.update_of_ne hkid]
    exact ⟨hset,hrow,hun⟩
  · rw [hsettlements, hrows]
    exact hs.bounded
  · intro p
    by_cases hp : p = sender
    · subst hp
      have hterms : (fun k => if s'.claimed k p then s'.allocations k p else 0) =
          Function.update (fun k => if s.claimed k p then s.allocations k p else 0) id amount := by
        funext k
        by_cases hk : k = id
        · subst hk
          simp [hclaimed, hrows, hamount]
        · simp [hclaimed, hrows, hk]
      have hsum := sum_update (fun k => if s.claimed k p then s.allocations k p else 0) id amount
      rw [hpaid, Function.update_self, hs.paid p, hterms]
      simpa [hunclaimed] using hsum.symm
    · rw [hpaid, Function.update_of_ne hp, hs.paid p, hclaimed, hrows]
      refine Finset.sum_congr rfl (fun k _ => ?_)
      by_cases hk : k = id
      · subst hk
        simp [hp]
      · rw [Function.update_of_ne hk]
  · intro k _
    rw [hsettlements, hrows]
    exact ⟨rfl,rfl⟩

theorem execute_claimed (s s' : Pool T) (a : Action T) (id : SettlementId) (p : Address)
    (hc : s.claimed id p = true) (h : execute s a = .ok s') : s'.claimed id p = true := by
  cases execute_effect s s' a h with
  | untouched a htables =>
    rw [htables.claimed]
    exact hc
  | settled sender timestamp root providers bytesServed R k hsettle =>
    obtain ⟨-, -, -, -, -, served, events, rfl, -⟩ := submitSettlement_ok _ _ _ _ _ _ _ _ _ hsettle
    exact hc
  | claimed sender k amount hclaim =>
    obtain ⟨-, -, -, token, -, rfl⟩ := claim_ok _ _ _ _ _ hclaim
    by_cases hk : id = k
    · subst hk
      by_cases hp : p = sender <;> simp [hp, hc]
    · simp [hk, hc]

theorem run_claimed (s : Pool T) (actions : List (Action T)) (id : SettlementId) (p : Address)
    (hc : s.claimed id p = true) : (run next s actions).claimed id p = true :=
  run_invariant next (fun t => t.claimed id p = true)
    (fun t a ht => next_of_execute (fun u => u.claimed id p = true) t a ht
      (fun u h => execute_claimed t u a id p ht h)) s actions hc

theorem execute_accepted_le (s s' : Pool T) (a : Action T) (h : execute s a = .ok s') :
    accepted s ≤ accepted s' := by
  have hevents : ∃ events, s'.events = s.events++events := by
    cases execute_effect s s' a h with
    | untouched a htables hbalance hevents =>
      obtain ⟨events, hevents, -⟩ := hevents
      exact ⟨events,hevents⟩
    | settled sender timestamp root providers bytesServed R id hsettle =>
      obtain ⟨-, -, -, -, -, served, events, rfl, -⟩ := submitSettlement_ok _ _ _ _ _ _ _ _ _ hsettle
      exact ⟨_,rfl⟩
    | claimed sender id amount hclaim =>
      obtain ⟨-, -, -, token, -, rfl⟩ := claim_ok _ _ _ _ _ hclaim
      exact ⟨_,rfl⟩
  obtain ⟨events, hevents⟩ := hevents
  rw [accepted_append s s' events hevents]
  exact Nat.le_add_right _ _

theorem run_accepted_le (s : Pool T) (actions : List (Action T)) :
    accepted s ≤ accepted (run next s actions) :=
  run_invariant next (fun t => accepted s ≤ accepted t)
    (fun t a ht => next_of_execute (fun u => accepted s ≤ accepted u) t a ht
      (fun u h => ht.trans (execute_accepted_le t u a h))) s actions (le_refl _)

theorem execute_accounted (s s' : Pool T) (a : Action T) (hs : Accounted s)
    (h : execute s a = .ok s') (hbound : accepted s' < wordBound) :
    Accounted s' ∧ Extends s s' := by
  cases execute_effect s s' a h with
  | untouched a htables hbalance hevents =>
    obtain ⟨events, hevents, hnone⟩ := hevents
    apply accounted_of_tables s s' hs htables
    rw [accepted_append s s' events hevents, hnone, Nat.add_zero]
  | settled sender timestamp root providers bytesServed R id hsettle =>
    exact submitSettlement_accounted _ _ _ _ _ _ _ _ _ hs hsettle hbound
  | claimed sender id amount hclaim => exact claim_accounted _ _ _ _ _ hs hclaim

theorem run_accounted (s : Pool T) (actions : List (Action T)) (hs : Accounted s)
    (hbound : accepted (run next s actions) < wordBound) :
    Accounted (run next s actions) ∧ Extends s (run next s actions) := by
  induction actions generalizing s with
  | nil => exact ⟨hs,Extends.refl s⟩
  | cons a actions ih =>
    have hnext : Accounted (next s a) ∧ Extends s (next s a) := by
      have hle := (run_accepted_le (next s a) actions).trans_lt hbound
      unfold next at hle ⊢
      cases h : execute s a with
      | ok s' => exact execute_accounted s s' a hs h (by rwa [h] at hle)
      | error e => exact ⟨hs,Extends.refl s⟩
    obtain ⟨hrun, hextends⟩ := ih (next s a) hnext.1 hbound
    exact ⟨hrun,hnext.2.trans hextends⟩

theorem claimed_refused (s : Pool T) (actions : List (Action T)) (p : Address)
    (id : SettlementId) (hc : s.claimed id p = true) (amount : ℕ) (t : Pool T) :
    claim (run next s actions) p id ≠ .ok (amount, t) := by
  intro h
  obtain ⟨-, -, hunclaimed, -⟩ := claim_ok _ _ _ _ _ h
  rw [run_claimed s actions id p hc] at hunclaimed
  cases hunclaimed

/-- The accounting of every run with fewer than `2^256` accepted settlements.
`before` leads to the state that is looked at, `after` is how the run goes on. -/
theorem payout_accounting (self : {a : Address // a ≠ 0}) (token : T.State)
    (rewardToken coordinator : Address) (s₀ : Pool T)
    (hdeploy : deploy self token rewardToken coordinator = .ok s₀)
    (before after : List (Action T))
    (hbound : accepted (run next s₀ (before++after)) < wordBound) :
    let s := run next s₀ before
    let final := run next s₀ (before++after)
    (∀ id, ∑ p, s.allocations id p ≤ (s.settlements id).totalRewards) ∧
    (∀ p, s.cumulativeRewardsPaid p = ∑ id, if s.claimed id p then s.allocations id p else 0) ∧
    (∀ id, Recorded s id →
      final.settlements id = s.settlements id ∧ final.allocations id = s.allocations id) ∧
    (∀ id p amount t, claim s p id = .ok (amount, t) →
      amount = s.allocations id p ∧ T.transfer s.token s.self p amount = some t.token ∧
      ∀ later amount' u, claim (run next t later) p id ≠ .ok (amount', u)) := by
  simp only [deploy, guard_ok, Except.ok.injEq] at hdeploy
  obtain ⟨-, -, rfl⟩ := hdeploy
  intro s final
  have hfinal : final = run next s after := run_append _ _ _ _
  have hle : accepted s < wordBound := by
    refine (run_accepted_le s after).trans_lt ?_
    rwa [← hfinal]
  obtain ⟨hs, -⟩ := run_accounted _ before (fresh_accounted self token coordinator) hle
  have hext := (run_accounted s after hs (by rwa [← hfinal])).2
  rw [← hfinal] at hext
  refine ⟨hs.bounded, hs.paid, hext.record, ?_⟩
  intro id p amount t h
  obtain ⟨hamount, -, -, ledger, htransfer, ht⟩ := claim_ok _ _ _ _ _ h
  have hclaimed : t.claimed id p = true := by simp [ht]
  exact ⟨hamount,by rw [htransfer, ht],fun later => claimed_refused t later p id hclaimed⟩

/-- A deposit, a settlement for one provider and its claim. -/
theorem payout_accounting_claimed :
    let s := run next samplePool [.deposit 2 0 100, .submitSettlement 1 0 7 [3] [1] 100]
    let final := run next samplePool
      ([.deposit 2 0 100, .submitSettlement 1 0 7 [3] [1] 100]++[.claim 3 1])
    (∀ id, ∑ p, s.allocations id p ≤ (s.settlements id).totalRewards) ∧
    (∀ id, Recorded s id →
      final.settlements id = s.settlements id ∧ final.allocations id = s.allocations id) := by
  have h := payout_accounting ⟨0x100, by decide⟩ fundedLedger 0x200 1 samplePool rfl
    [.deposit 2 0 100, .submitSettlement 1 0 7 [3] [1] 100] [.claim 3 1] (by decide)
  exact ⟨h.1,h.2.2.1⟩

section Wrap

def settleFor (root : Bytes32) (p : Address) : Action ledgerToken :=
  .submitSettlement 1 0 root [p] [1] 100

structure Ready (s : Pool ledgerToken) (count : SettlementId) (served : Address → ℕ) : Prop where
  coordinator : s.coordinator = 1
  balance : s.poolBalance = 100
  counter : s.settlementCount = count
  bytes : s.cumulativeBytesServed = served

theorem settleFor_ready (s : Pool ledgerToken) (count : SettlementId) (served : Address → ℕ)
    (root : Bytes32) (p : Address) (hs : Ready s count served) (hp : p ≠ 0)
    (hfit : served p+1 < wordBound) :
    Ready (next s (settleFor root p)) (count+1) (Function.update served p (served p+1)) ∧
    (next s (settleFor root p)).settlements =
      Function.update s.settlements (count+1) ⟨root, 0, 100, 1, 1⟩ := by
  obtain ⟨hcoordinator, hbalance, rfl, rfl⟩ := hs
  have hone : checkedAdd 0 1 = .ok 1 := by simp [checkedAdd, wordBound]
  have hmul : checkedMul 100 1 = .ok 100 := by simp [checkedMul, wordBound]
  have hadd : checkedAdd (s.cumulativeBytesServed p) 1 = .ok (s.cumulativeBytesServed p+1) := by
    simp [checkedAdd, hfit]
  have hexec : ∃ s', execute s (settleFor root p) = .ok s' ∧
      Ready s' (s.settlementCount+1) (Function.update s.cumulativeBytesServed p
        (s.cumulativeBytesServed p+1)) ∧
      s'.settlements = Function.update s.settlements (s.settlementCount+1) ⟨root, 0, 100, 1, 1⟩ := by
    simp only [execute, settleFor, submitSettlement, hcoordinator, hbalance, sumBytes, if_neg hp,
      hone, allocate, hmul, hadd, List.zip_cons_cons, List.zip_nil_right, bind, Except.bind]
    refine ⟨_,rfl,⟨?_,?_,?_,?_⟩,?_⟩
    · rfl
    · exact hbalance
    · rfl
    · rfl
    · rfl
  obtain ⟨s', hs', hready, hsettlements⟩ := hexec
  simp only [next, hs']
  exact ⟨hready,hsettlements⟩

/-- `n` settlements in a row for one provider. -/
theorem settleFor_repeated (n : ℕ) (s : Pool ledgerToken) (count : SettlementId)
    (served : Address → ℕ) (root : Bytes32) (p : Address) (hs : Ready s count served)
    (hp : p ≠ 0) (hfit : served p+n < wordBound) :
    Ready (run next s (List.replicate n (settleFor root p))) (count+BitVec.ofNat 256 n)
      (Function.update served p (served p+n)) := by
  induction n generalizing s count served with
  | zero => simpa [run] using hs
  | succ n ih =>
    have hnext := (settleFor_ready s count served root p hs hp (by omega)).1
    have hrest := ih _ _ _ hnext (by rw [Function.update_self]; omega)
    have hcount : count+1+BitVec.ofNat 256 n = count+BitVec.ofNat 256 (n+1) := by
      rw [Nat.add_comm n 1, ← BitVec.ofNat_add_ofNat, ← BitVec.add_assoc]
      rfl
    have hserved : served p+1+n = served p+(n+1) := by omega
    rw [hcount, Function.update_self, Function.update_idem, hserved] at hrest
    exact hrest

def firstSettlement : List (Action ledgerToken) := [.deposit 2 0 100, settleFor 7 3]

def turn (n : ℕ) : List (Action ledgerToken) := List.replicate n (settleFor 8 4)++[settleFor 9 3]

theorem turn_overwrites (n : ℕ) (hn : n < wordBound)
    (hwrap : (1 : SettlementId)+BitVec.ofNat 256 n+1 = 1) :
    (run next samplePool (firstSettlement++turn n)).settlements 1 = ⟨9, 0, 100, 1, 1⟩ := by
  have hstart : Ready (run next samplePool firstSettlement) 1
      (Function.update (fun _ => 0) 3 1) := ⟨rfl,by decide,by decide,rfl⟩
  have hturn := settleFor_repeated n _ 1 _ 8 4 hstart (by decide) (by
    rw [Function.update_of_ne (by decide)]
    omega)
  have hlast := (settleFor_ready _ _ _ 9 3 hturn (by decide) (by
    rw [Function.update_of_ne (by decide), Function.update_self]
    decide)).2
  rw [hwrap] at hlast
  rw [turn, run_append, run_append, run, run, hlast, Function.update_self]

/-- After `2^256` settlements the next one is number one again. -/
def fullTurn : ℕ := 2^256-1

theorem full_turn_overwrites :
    Recorded (run next samplePool firstSettlement) 1 ∧
    (run next samplePool firstSettlement).settlements 1 = ⟨7, 0, 100, 1, 1⟩ ∧
    (run next samplePool (firstSettlement++turn fullTurn)).settlements 1 = ⟨9, 0, 100, 1, 1⟩ := by
  refine ⟨⟨by decide,by decide⟩, by decide, turn_overwrites fullTurn ?_ (by decide)⟩
  unfold fullTurn wordBound
  omega

end Wrap

end Aevia.PersistencePool
