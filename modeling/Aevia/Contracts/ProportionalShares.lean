import Aevia.Contracts.PoolAccounting

/-!
# Shares of a settlement in proportion to the bytes

The second loop writes one table of allocations and adds to one of byte
counters. An address that is listed twice is credited with the bytes of both
entries and rewarded for the last one only.
-/

set_option autoImplicit false

namespace Aevia.PersistencePool
open Aevia.Apportion Aevia.Evm Aevia.Fallible Aevia.Run

variable {T : StandardToken}

theorem allocate_served (id : SettlementId) (R B : ℕ) (es : List (Address × ℕ)) (s s' : Pool T)
    (h : allocate id R B es s = .ok s') (p : Address) :
    s'.cumulativeBytesServed p = s.cumulativeBytesServed p+keyTotal es p := by
  induction es generalizing s with
  | nil =>
    rw [allocate, Except.ok.injEq] at h
    rw [h]
    rfl
  | cons e es ih =>
    obtain ⟨provider, bytes⟩ := e
    simp only [allocate, bind_ok, checkedAdd_ok, checkedMul_ok] at h
    obtain ⟨product, -, cumulative, ⟨-, rfl⟩, hrest⟩ := h
    rw [ih _ hrest, keyTotal_cons]
    dsimp only
    by_cases hp : provider = p
    · rw [if_pos hp, hp, Function.update_self, Nat.add_assoc]
    · rw [if_neg hp, Function.update_of_ne (Ne.symm hp), Nat.zero_add]

theorem submitSettlement_served (s s' : Pool T) (sender : Address) (timestamp : ℕ)
    (root : Bytes32) (providers : List Address) (bytesServed : List ℕ) (R : ℕ) (id : SettlementId)
    (h : submitSettlement s sender timestamp root providers bytesServed R = .ok (id, s')) :
    0 < bytesServed.sum ∧ ∀ p, s'.cumulativeBytesServed p =
      s.cumulativeBytesServed p+keyTotal (providers.zip bytesServed) p := by
  simp only [submitSettlement, guard_ok, bind_ok, Except.ok.injEq, Prod.mk.injEq, not_not,
    not_lt] at h
  obtain ⟨-, -, hlen, -, -, total, htotal, hpos, s₁, hallocate, rfl, rfl⟩ := h
  obtain ⟨-, hsum⟩ := sumBytes_ok _ _ _ htotal
  rw [Nat.zero_add, List.map_snd_zip (by omega)] at hsum
  refine ⟨by omega, ?_⟩
  intro p
  exact allocate_served _ _ _ _ _ _ hallocate p

/-- What a settlement gives: the allocation of an address is the sum of the
shares at its places, its byte counter grows by the bytes at its places, and
less than one unit of the reward is left over for each entry. -/
structure Proportional (s s' : Pool T) (id : SettlementId) (providers : List Address)
    (bytesServed : List ℕ) (R : ℕ) : Prop where
  rewarded : ∀ p, s'.allocations id p =
    keyTotal (shares R bytesServed.sum (providers.zip bytesServed)) p
  credited : ∀ p, s'.cumulativeBytesServed p =
    s.cumulativeBytesServed p+keyTotal (providers.zip bytesServed) p
  spent : ∑ p, s'.allocations id p ≤ R
  dust : R-∑ p, s'.allocations id p < providers.length

theorem accounted_free (s : Pool T) (hs : Accounted s) (hbound : accepted s+1 < wordBound) :
    s.allocations (s.settlementCount+1) = fun _ => 0 := by
  refine (hs.unwritten _ ?_).2.1
  rintro ⟨-, hle⟩
  have hid : (s.settlementCount+1).toNat = accepted s+1 := by
    rw [BitVec.toNat_add, hs.counter]
    exact Nat.mod_eq_of_lt hbound
  omega

theorem submitSettlement_row (s s' : Pool T) (sender : Address) (timestamp : ℕ)
    (root : Bytes32) (providers : List Address) (bytesServed : List ℕ) (R : ℕ) (id : SettlementId)
    (h : submitSettlement s sender timestamp root providers bytesServed R = .ok (id, s')) :
    s'.allocations id = assign (shares R bytesServed.sum (providers.zip bytesServed))
      (s.allocations (s.settlementCount+1)) := by
  obtain ⟨-, -, -, -, hid, served, events, hs', -⟩ := submitSettlement_ok _ _ _ _ _ _ _ _ _ h
  rw [hs', hid]
  exact Function.update_self _ _ _

theorem proportional_iff_rewarded (s s' : Pool T) (sender : Address) (timestamp : ℕ)
    (root : Bytes32) (providers : List Address) (bytesServed : List ℕ) (R : ℕ) (id : SettlementId)
    (h : submitSettlement s sender timestamp root providers bytesServed R = .ok (id, s')) :
    Proportional s s' id providers bytesServed R ↔ ∀ p, s'.allocations id p =
      keyTotal (shares R bytesServed.sum (providers.zip bytesServed)) p := by
  refine ⟨Proportional.rewarded, fun hall => ?_⟩
  obtain ⟨hpos, hserved⟩ := submitSettlement_served _ _ _ _ _ _ _ _ _ h
  obtain ⟨-, -, -, hlen, -⟩ := submitSettlement_ok _ _ _ _ _ _ _ _ _ h
  have hbytes : ((providers.zip bytesServed).map Prod.snd).sum = bytesServed.sum := by
    rw [List.map_snd_zip (by omega)]
  have hsum : ∑ p, s'.allocations id p =
      ((shares R bytesServed.sum (providers.zip bytesServed)).map Prod.snd).sum := by
    rw [← sum_keyTotal]
    exact Finset.sum_congr rfl (fun p _ => hall p)
  have hle := shares_sum_le R bytesServed.sum (providers.zip bytesServed)
  have hdust := shares_dust R (providers.zip bytesServed) (by omega)
  rw [hbytes, Nat.mul_div_cancel _ hpos] at hle
  rw [hbytes, List.length_zip, ← hlen, Nat.min_self] at hdust
  refine ⟨hall, hserved, ?_, ?_⟩
  · omega
  · omega

theorem rewarded_iff (s s' : Pool T) (sender : Address) (timestamp : ℕ)
    (root : Bytes32) (providers : List Address) (bytesServed : List ℕ) (R : ℕ) (id : SettlementId)
    (h : submitSettlement s sender timestamp root providers bytesServed R = .ok (id, s')) :
    (∀ p, s'.allocations id p =
        keyTotal (shares R bytesServed.sum (providers.zip bytesServed)) p) ↔
      Unreplaced (shares R bytesServed.sum (providers.zip bytesServed)) ∧
      ∀ p, p ∉ providers → s.allocations (s.settlementCount+1) p = 0 := by
  obtain ⟨-, -, -, hlen, -⟩ := submitSettlement_ok _ _ _ _ _ _ _ _ _ h
  have hkeys : (shares R bytesServed.sum (providers.zip bytesServed)).map Prod.fst = providers := by
    rw [shares_keys, List.map_fst_zip (by omega)]
  have hexact := assign_eq_keyTotals (shares R bytesServed.sum (providers.zip bytesServed))
    (s.allocations (s.settlementCount+1))
  rw [hkeys] at hexact
  rw [submitSettlement_row _ _ _ _ _ _ _ _ _ h]
  exact hexact

/-- A settlement is proportional if and only if no entry that is replaced by a
later one of its address is worth anything, and nothing stood under the new id
for an address that is not listed. -/
theorem submitSettlement_proportional (s s' : Pool T) (sender : Address) (timestamp : ℕ)
    (root : Bytes32) (providers : List Address) (bytesServed : List ℕ) (R : ℕ) (id : SettlementId)
    (h : submitSettlement s sender timestamp root providers bytesServed R = .ok (id, s')) :
    Proportional s s' id providers bytesServed R ↔
      Unreplaced (shares R bytesServed.sum (providers.zip bytesServed)) ∧
      ∀ p, p ∉ providers → s.allocations (s.settlementCount+1) p = 0 := by
  rw [proportional_iff_rewarded _ _ _ _ _ _ _ _ _ h]
  exact rewarded_iff _ _ _ _ _ _ _ _ _ h

/-- Up to the wrap of the counter the new id is free, so only replaced entries matter. -/
theorem run_proportional (self : {a : Address // a ≠ 0}) (token : T.State) (coordinator : Address)
    (actions : List (Action T)) (s s' : Pool T)
    (hs : s = run next (fresh self token coordinator) actions)
    (hbound : accepted s+1 < wordBound) (sender : Address) (timestamp : ℕ)
    (root : Bytes32) (providers : List Address) (bytesServed : List ℕ) (R : ℕ) (id : SettlementId)
    (h : submitSettlement s sender timestamp root providers bytesServed R = .ok (id, s')) :
    Proportional s s' id providers bytesServed R ↔
      Unreplaced (shares R bytesServed.sum (providers.zip bytesServed)) := by
  have hacc : Accounted s := by
    rw [hs]
    refine (run_accounted _ actions (fresh_accounted self token coordinator) ?_).1
    rw [← hs]
    omega
  rw [proportional_iff_rewarded _ _ _ _ _ _ _ _ _ h, rewarded_iff _ _ _ _ _ _ _ _ _ h, and_iff_left]
  intro p _
  rw [accounted_free s hacc hbound]

/-- One address at two places, the first of which is worth nothing. -/
theorem submitSettlement_proportional_idle : ∃ id s',
    submitSettlement (next samplePool (.deposit 2 0 100)) 1 0 7 [3, 4, 3] [0, 1, 2] 100 =
      .ok (id, s') ∧
    Proportional (next samplePool (.deposit 2 0 100)) s' id [3, 4, 3] [0, 1, 2] 100 := by
  obtain ⟨⟨id, s'⟩, h⟩ := exists_ok
    (submitSettlement (next samplePool (.deposit 2 0 100)) 1 0 7 [3, 4, 3] [0, 1, 2] 100) (by decide)
  refine ⟨id, s', h, (submitSettlement_proportional _ _ _ _ _ _ _ _ _ h).mpr ⟨?_, ?_⟩⟩
  · unfold Unreplaced
    decide
  · exact fun _ _ => rfl

/-- An address that is listed twice is credited with both bytes and rewarded for one. -/
theorem listed_twice_paid_once : ∃ id s',
    submitSettlement (next samplePool (.deposit 2 0 100)) 1 0 7 [3, 3] [1, 1] 100 = .ok (id, s') ∧
    s'.cumulativeBytesServed 3 = 2 ∧ s'.allocations id 3 = 50 ∧
    ¬ Proportional (next samplePool (.deposit 2 0 100)) s' id [3, 3] [1, 1] 100 := by
  obtain ⟨⟨id, s'⟩, h⟩ := exists_ok
    (submitSettlement (next samplePool (.deposit 2 0 100)) 1 0 7 [3, 3] [1, 1] 100) (by decide)
  obtain ⟨-, hserved⟩ := submitSettlement_served _ _ _ _ _ _ _ _ _ h
  have hrow : s'.allocations id 3 = 50 := by
    rw [submitSettlement_row _ _ _ _ _ _ _ _ _ h]
    rfl
  refine ⟨id, s', h, hserved 3, hrow, ?_⟩
  intro hprop
  have hrewarded := hprop.rewarded 3
  rw [hrow] at hrewarded
  revert hrewarded
  decide

end Aevia.PersistencePool
