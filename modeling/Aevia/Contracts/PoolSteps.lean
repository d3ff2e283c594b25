import Aevia.Contracts.PersistencePool
import Aevia.Foundation.Fallible

/-!
# What an accepted transaction does to the pool

One inversion lemma for each entry point, with the checks it passed and the
storage it leaves. Every invariant of the pool is derived from these.
-/

set_option autoImplicit false

namespace Aevia.PersistencePool
open Aevia.Apportion Aevia.Evm Aevia.Fallible Aevia.Run

variable {T : StandardToken}

theorem checkedAdd_ok (a b c : ℕ) : checkedAdd a b = .ok c ↔ a+b < wordBound ∧ c = a+b := by
  rw [checkedAdd, require_ok, Except.ok.injEq, eq_comm]

theorem checkedMul_ok (a b c : ℕ) : checkedMul a b = .ok c ↔ a*b < wordBound ∧ c = a*b := by
  rw [checkedMul, require_ok, Except.ok.injEq, eq_comm]

theorem moved_recipient (balances : Address → ℕ) (source recipient : Address) (n : ℕ)
    (h : n ≤ balances source) :
    balances recipient ≤ moved balances source recipient n recipient := by
  by_cases hs : recipient = source
  · subst hs
    simp [moved, Nat.sub_add_cancel h]
  · simp [moved, hs]

theorem moved_source (balances : Address → ℕ) (source recipient : Address) (n : ℕ)
    (h : n ≤ balances source) :
    balances source ≤ moved balances source recipient n source+n := by
  simp only [moved, if_true]
  omega

theorem sumBytes_ok (es : List (Address × ℕ)) (start total : ℕ)
    (h : sumBytes es start = .ok total) :
    (∀ e ∈ es, e.1 ≠ 0) ∧ total = start+(es.map Prod.snd).sum := by
  induction es generalizing start with
  | nil =>
    simp only [sumBytes, Except.ok.injEq] at h
    simp [h]
  | cons e es ih =>
    obtain ⟨provider, served⟩ := e
    simp only [sumBytes, guard_ok, bind_ok, checkedAdd_ok] at h
    obtain ⟨hprovider, t, ⟨-, rfl⟩, hrest⟩ := h
    obtain ⟨hnonzero, rfl⟩ := ih _ hrest
    refine ⟨List.forall_mem_cons.mpr ⟨hprovider,hnonzero⟩, ?_⟩
    simp [Nat.add_assoc]

/-- The second loop writes one row of the allocation table, the byte counters
and `AllocationRecorded` events, and nothing else. -/
theorem allocate_ok (id : SettlementId) (R B : ℕ) (es : List (Address × ℕ)) (s s' : Pool T)
    (h : allocate id R B es s = .ok s') :
    ∃ served events, s' = { s with
      allocations := Function.update s.allocations id (assign (shares R B es) (s.allocations id))
      cumulativeBytesServed := served
      events := s.events++events } ∧
    ∀ ev ∈ events, ∃ p b a, ev = .allocationRecorded id p b a := by
  induction es generalizing s with
  | nil =>
    refine ⟨s.cumulativeBytesServed, [], ?_, by simp⟩
    simp only [allocate, Except.ok.injEq] at h
    simp [shares, assign, ← h]
  | cons e es ih =>
    obtain ⟨provider, bytes⟩ := e
    simp only [allocate, bind_ok, checkedAdd_ok, checkedMul_ok] at h
    obtain ⟨product, ⟨-, rfl⟩, cumulative, ⟨-, rfl⟩, hrest⟩ := h
    obtain ⟨served, events, hs', hevents⟩ := ih _ hrest
    refine ⟨served, .allocationRecorded id provider bytes (R*bytes/B)::events, ?_, ?_⟩
    · simp [hs', shares, assign]
    · intro ev hev
      rcases List.mem_cons.mp hev with rfl | hev
      · exact ⟨provider, bytes, R*bytes/B, rfl⟩
      · exact hevents ev hev

theorem sumBytes_fits (es : List (Address × ℕ)) (start : ℕ) (hnonzero : ∀ e ∈ es, e.1 ≠ 0)
    (hfits : start+(es.map Prod.snd).sum < wordBound) : ∃ total, sumBytes es start = .ok total := by
  induction es generalizing start with
  | nil => exact ⟨start,rfl⟩
  | cons e es ih =>
    obtain ⟨provider, served⟩ := e
    rw [List.map_cons, List.sum_cons, ← Nat.add_assoc] at hfits
    obtain ⟨total, htotal⟩ := ih (start+served) (fun e he => hnonzero e (List.mem_cons_of_mem _ he))
      hfits
    refine ⟨total, ?_⟩
    simp only [sumBytes, guard_ok, bind_ok, checkedAdd_ok]
    exact ⟨hnonzero _ List.mem_cons_self,_,⟨by omega,rfl⟩,htotal⟩

theorem allocate_accepts (id : SettlementId) (R B : ℕ) (es : List (Address × ℕ)) (s : Pool T)
    (hkeys : (es.map Prod.fst).Nodup) : (∃ s', allocate id R B es s = .ok s') ↔
      ∀ e ∈ es, R*e.2 < wordBound ∧ s.cumulativeBytesServed e.1+e.2 < wordBound := by
  induction es generalizing s with
  | nil => simp [allocate]
  | cons e es ih =>
    obtain ⟨provider, served⟩ := e
    rw [List.map_cons, List.nodup_cons] at hkeys
    have hothers : ∀ e ∈ es, e.1 ≠ provider :=
      fun e he h => hkeys.1 (List.mem_map.mpr ⟨e,he,h⟩)
    simp only [allocate, bind_ok, checkedAdd_ok, checkedMul_ok, List.forall_mem_cons]
    constructor
    · rintro ⟨s', product, ⟨hproduct, rfl⟩, cumulative, ⟨hcumulative, rfl⟩, hrest⟩
      refine ⟨⟨hproduct,hcumulative⟩, fun e he => ?_⟩
      have hentry := (ih _ hkeys.2).mp ⟨s',hrest⟩ e he
      dsimp only at hentry
      rwa [Function.update_of_ne (hothers e he)] at hentry
    · rintro ⟨⟨hproduct, hcumulative⟩, hall⟩
      obtain ⟨s', hrest⟩ := (ih { s with
          allocations := Function.update s.allocations id
            (Function.update (s.allocations id) provider (R*served/B))
          cumulativeBytesServed := Function.update s.cumulativeBytesServed provider
            (s.cumulativeBytesServed provider+served)
          events := s.events++[.allocationRecorded id provider served (R*served/B)] } hkeys.2).mpr
        (fun e he => by
          dsimp only
          rw [Function.update_of_ne (hothers e he)]
          exact hall e he)
      exact ⟨s',_,⟨hproduct,rfl⟩,_,⟨hcumulative,rfl⟩,hrest⟩

theorem deposit_ok (s s' : Pool T) (sender : Address) (cid : Bytes32) (amount : ℕ)
    (h : deposit s sender cid amount = .ok s') :
    amount ≠ 0 ∧ ∃ token total, T.transferFrom s.token s.self sender s.self amount = some token ∧
      s' = { s with
        token := token
        depositsByCid := Function.update s.depositsByCid cid total
        events := s.events++[.deposited sender cid amount] } := by
  simp only [deposit, guard_ok] at h
  obtain ⟨hamount, h⟩ := h
  cases ht : T.transferFrom s.token s.self sender s.self amount with
  | none => simp [ht] at h
  | some token =>
    simp only [ht, bind_ok, Except.ok.injEq] at h
    obtain ⟨total, -, rfl⟩ := h
    exact ⟨hamount, token, total, rfl, rfl⟩

theorem submitSettlement_ok (s s' : Pool T) (sender : Address) (timestamp : ℕ) (root : Bytes32)
    (providers : List Address) (bytesServed : List ℕ) (R : ℕ) (id : SettlementId)
    (h : submitSettlement s sender timestamp root providers bytesServed R = .ok (id, s')) :
    sender = s.coordinator ∧ R ≤ s.poolBalance ∧ (∀ p ∈ providers, p ≠ 0) ∧
    providers.length = bytesServed.length ∧ id = s.settlementCount+1 ∧
    ∃ served events, s' = { s with
      settlementCount := id
      settlements := Function.update s.settlements id
        ⟨root, timestamp%2^64, R, bytesServed.sum, providers.length⟩
      allocations := Function.update s.allocations id
        (assign (shares R bytesServed.sum (providers.zip bytesServed)) (s.allocations id))
      cumulativeBytesServed := served
      events := s.events++.settlementSubmitted id root R bytesServed.sum providers.length::events } ∧
    ∀ ev ∈ events, ∃ p b a, ev = .allocationRecorded id p b a := by
  simp only [submitSettlement, guard_ok, bind_ok, Except.ok.injEq, Prod.mk.injEq, not_not,
    not_lt] at h
  obtain ⟨hsender, -, hlen, -, hfunds, total, htotal, -, s₁, hallocate, rfl, rfl⟩ := h
  obtain ⟨hnonzero, rfl⟩ := sumBytes_ok _ _ _ htotal
  have hsum : 0+((providers.zip bytesServed).map Prod.snd).sum = bytesServed.sum := by
    rw [Nat.zero_add, List.map_snd_zip (by omega)]
  rw [hsum] at hallocate
  obtain ⟨served, events, hs₁, hevents⟩ := allocate_ok _ _ _ _ _ _ hallocate
  refine ⟨hsender, hfunds, ?_, hlen, rfl, served, events, ?_, hevents⟩
  · intro p hp
    have hfst : (providers.zip bytesServed).map Prod.fst = providers :=
      List.map_fst_zip (by omega)
    rw [← hfst] at hp
    obtain ⟨e, he, rfl⟩ := List.mem_map.mp hp
    exact hnonzero e he
  · simp [hs₁]

/-- A funded call of the coordinator for distinct providers goes through if and only
if something was served and the products and counters fit. -/
theorem submitSettlement_accepts (s : Pool T) (timestamp : ℕ) (root : Bytes32)
    (providers : List Address) (bytesServed : List ℕ) (R : ℕ) (hproviders : providers ≠ [])
    (hlen : providers.length = bytesServed.length) (hR : R ≠ 0) (hfunds : R ≤ s.poolBalance)
    (hnonzero : ∀ p ∈ providers, p ≠ 0) (hnodup : providers.Nodup)
    (hsum : bytesServed.sum < wordBound) :
    (∃ id s', submitSettlement s s.coordinator timestamp root providers bytesServed R =
      .ok (id, s')) ↔ bytesServed.sum ≠ 0 ∧ ∀ e ∈ providers.zip bytesServed,
        R*e.2 < wordBound ∧ s.cumulativeBytesServed e.1+e.2 < wordBound := by
  have hfst : (providers.zip bytesServed).map Prod.fst = providers := List.map_fst_zip (by omega)
  have hsnd : (providers.zip bytesServed).map Prod.snd = bytesServed := List.map_snd_zip (by omega)
  have hkeys : ((providers.zip bytesServed).map Prod.fst).Nodup := by rwa [hfst]
  obtain ⟨total, htotal⟩ := sumBytes_fits (providers.zip bytesServed) 0
    (fun e he => hnonzero _ (hfst ▸ List.mem_map_of_mem he)) (by rwa [hsnd, Nat.zero_add])
  have hvalue := (sumBytes_ok _ _ _ htotal).2
  rw [hsnd, Nat.zero_add] at hvalue
  subst hvalue
  have hempty : providers.length ≠ 0 := fun h => hproviders (List.length_eq_zero_iff.mp h)
  simp only [submitSettlement, guard_ok, bind_ok, Except.ok.injEq, Prod.mk.injEq, htotal, not_not,
    not_lt]
  constructor
  · rintro ⟨id, s', -, -, -, -, -, total, rfl, hserved, s₁, hallocate, -⟩
    have hfit := (allocate_accepts _ _ _ _ _ hkeys).mp ⟨s₁,hallocate⟩
    exact ⟨hserved,hfit⟩
  · rintro ⟨hserved, hfit⟩
    obtain ⟨s₁, hallocate⟩ := (allocate_accepts (s.settlementCount+1) R bytesServed.sum _
      { s with
        settlementCount := s.settlementCount+1
        settlements := Function.update s.settlements (s.settlementCount+1)
          ⟨root, timestamp%2^64, R, bytesServed.sum, providers.length⟩
        events := s.events++[.settlementSubmitted (s.settlementCount+1) root R bytesServed.sum
          providers.length] } hkeys).mpr hfit
    exact ⟨_,s₁,trivial,hempty,hlen,hR,hfunds,_,rfl,hserved,s₁,hallocate,rfl,rfl⟩

theorem submitSettlement_allocations (s s' : Pool T) (sender : Address) (timestamp : ℕ)
    (root : Bytes32) (providers : List Address) (bytesServed : List ℕ) (R : ℕ) (id : SettlementId)
    (hnodup : providers.Nodup)
    (h : submitSettlement s sender timestamp root providers bytesServed R = .ok (id, s')) :
    ∀ e ∈ providers.zip bytesServed, s'.allocations id e.1 = R*e.2/bytesServed.sum := by
  obtain ⟨-, -, -, hlen, -, served, events, rfl, -⟩ := submitSettlement_ok _ _ _ _ _ _ _ _ _ h
  intro e he
  have hkeys : ((shares R bytesServed.sum (providers.zip bytesServed)).map Prod.fst).Nodup := by
    rwa [shares_keys, List.map_fst_zip (by omega)]
  have hentry : (e.1, R*e.2/bytesServed.sum) ∈
      shares R bytesServed.sum (providers.zip bytesServed) := List.mem_map_of_mem he
  show Function.update s.allocations id _ id e.1 = _
  rw [Function.update_self]
  exact assign_nodup _ _ hkeys _ hentry

theorem claim_ok (s s' : Pool T) (sender : Address) (id : SettlementId) (amount : ℕ)
    (h : claim s sender id = .ok (amount, s')) :
    amount = s.allocations id sender ∧ amount ≠ 0 ∧ s.claimed id sender = false ∧
    ∃ token, T.transfer s.token s.self sender amount = some token ∧
      s' = { s with
        token := token
        claimed := Function.update s.claimed id (Function.update (s.claimed id) sender true)
        cumulativeRewardsPaid :=
          Function.update s.cumulativeRewardsPaid sender (s.cumulativeRewardsPaid sender+amount)
        events := s.events++[.claimed id sender amount] } := by
  simp only [claim, guard_ok, bind_ok, checkedAdd_ok] at h
  obtain ⟨hamount, hclaimed, paid, ⟨-, rfl⟩, h⟩ := h
  cases ht : T.transfer s.token s.self sender (s.allocations id sender) with
  | none => simp [ht] at h
  | some token =>
    simp only [ht, Except.ok.injEq, Prod.mk.injEq] at h
    obtain ⟨rfl, rfl⟩ := h
    exact ⟨rfl, hamount, by simpa using hclaimed, token, ht, rfl⟩

theorem setCoordinator_ok (s s' : Pool T) (sender newCoordinator : Address)
    (h : setCoordinator s sender newCoordinator = .ok s') :
    sender = s.coordinator ∧ newCoordinator ≠ 0 ∧ s' = { s with
      coordinator := newCoordinator
      events := s.events++[.coordinatorUpdated s.coordinator newCoordinator] } := by
  simp only [setCoordinator, guard_ok, not_not, Except.ok.injEq] at h
  exact ⟨h.1, h.2.1, h.2.2.symm⟩

structure SameTables (s s' : Pool T) : Prop where
  counter : s'.settlementCount = s.settlementCount
  settlements : s'.settlements = s.settlements
  allocations : s'.allocations = s.allocations
  claimed : s'.claimed = s.claimed
  paid : s'.cumulativeRewardsPaid = s.cumulativeRewardsPaid

def Event.isSettlement : Event → Bool
  | .settlementSubmitted .. => true
  | _ => false

/-- An accepted transaction as the payout tables see it: it leaves them alone and
does not lower the balance, or it is a settlement or a claim. -/
inductive Effect (s s' : Pool T) : Action T → Prop where
  | untouched (a : Action T) (htables : SameTables s s') (hbalance : s.poolBalance ≤ s'.poolBalance)
      (hevents : ∃ events, s'.events = s.events++events ∧
        events.countP Event.isSettlement = 0) : Effect s s' a
  | settled (sender : Address) (timestamp : ℕ) (root : Bytes32) (providers : List Address)
      (bytesServed : List ℕ) (R : ℕ) (id : SettlementId)
      (h : submitSettlement s sender timestamp root providers bytesServed R = .ok (id, s')) :
      Effect s s' (.submitSettlement sender timestamp root providers bytesServed R)
  | claimed (sender : Address) (id : SettlementId) (amount : ℕ)
      (h : claim s sender id = .ok (amount, s')) : Effect s s' (.claim sender id)

theorem execute_effect (s s' : Pool T) (a : Action T) (h : execute s a = .ok s') :
    Effect s s' a := by
  cases a with
  | deposit sender cid amount =>
    obtain ⟨-, token, total, ht, rfl⟩ := deposit_ok _ _ _ _ _ h
    obtain ⟨hfunded, hmoved⟩ := T.transferFrom_moves _ _ _ _ _ _ ht
    apply Effect.untouched
    · exact ⟨rfl,rfl,rfl,rfl,rfl⟩
    · simp only [Pool.poolBalance, hmoved]
      exact moved_recipient _ _ _ _ hfunded
    · exact ⟨_,rfl,rfl⟩
  | submitSettlement sender timestamp root providers bytesServed R =>
    simp only [execute, map_ok] at h
    obtain ⟨⟨id, t⟩, h, rfl⟩ := h
    exact .settled sender timestamp root providers bytesServed R id h
  | claim sender id =>
    simp only [execute, map_ok] at h
    obtain ⟨⟨amount, t⟩, h, rfl⟩ := h
    exact .claimed sender id amount h
  | setCoordinator sender newCoordinator =>
    obtain ⟨-, -, rfl⟩ := setCoordinator_ok _ _ _ _ h
    exact .untouched _ ⟨rfl,rfl,rfl,rfl,rfl⟩ le_rfl ⟨_,rfl,rfl⟩
  | tokenActivity ledger =>
    simp only [execute, require_ok, Except.ok.injEq] at h
    obtain ⟨hledger, rfl⟩ := h
    exact .untouched _ ⟨rfl,rfl,rfl,rfl,rfl⟩ hledger ⟨[],(List.append_nil _).symm,rfl⟩

/-- A property of the pool holds after a transaction if it held before and an
accepted transaction establishes it. -/
theorem next_of_execute (P : Pool T → Prop) (s : Pool T) (a : Action T) (hs : P s)
    (hexec : ∀ s', execute s a = .ok s' → P s') : P (next s a) := by
  unfold next
  cases h : execute s a with
  | ok s' => exact hexec s' h
  | error e => exact hs

end Aevia.PersistencePool
