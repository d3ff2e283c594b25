import Mathlib.Data.BitVec
import Mathlib.Data.FinEnum

/-!
# Words and tokens of the EVM

Fixed-width words, and the reward and payment tokens as the contracts see them:
another contract, so a parameter whose laws are those of a standard ERC-20
without transfer fees.
-/

set_option autoImplicit false

namespace Aevia.Evm

abbrev Address := BitVec 160
abbrev Bytes32 := BitVec 256

def wordBound : ℕ := 2^256

/-- Balances after `amount` moves from `source` to `recipient`. -/
def moved (balances : Address → ℕ) (source recipient : Address) (amount : ℕ) : Address → ℕ :=
  fun a => (if a = source then balances a-amount else balances a)+
    (if a = recipient then amount else 0)

theorem moved_balance (balances : Address → ℕ) (source recipient : Address) (n : ℕ)
    (h : n ≤ balances source) (a : Address) :
    moved balances source recipient n a+(if a = source then n else 0) =
      balances a+(if a = recipient then n else 0) := by
  simp only [moved]
  by_cases hs : a = source
  · subst hs
    split_ifs <;> omega
  · split_ifs <;> omega

/-- Solidity 0.8 multiplication, with the panic of the contract that uses it. -/
def uint256Mul {ε : Type} (panic : ε) (a b : ℕ) : Except ε ℕ :=
  if a*b < wordBound then .ok (a*b) else .error panic

def uint256Sub {ε : Type} (panic : ε) (a b : ℕ) : Except ε ℕ :=
  if b ≤ a then .ok (a-b) else .error panic

/-- A reward token without fees: a transfer that returns moves exactly the
amount, and a funded transfer between non-zero addresses does return. -/
structure StandardToken where
  State : Type
  balanceOf : State → Address → ℕ
  transfer : State → (sender recipient : Address) → ℕ → Option State
  transferFrom : State → (spender source recipient : Address) → ℕ → Option State
  transfer_moves : ∀ t sender recipient n t', transfer t sender recipient n = some t' →
    n ≤ balanceOf t sender ∧ balanceOf t' = moved (balanceOf t) sender recipient n
  transferFrom_moves : ∀ t spender source recipient n t',
    transferFrom t spender source recipient n = some t' →
    n ≤ balanceOf t source ∧ balanceOf t' = moved (balanceOf t) source recipient n
  transfer_funded : ∀ t sender recipient n, sender ≠ 0 → recipient ≠ 0 →
    n ≤ balanceOf t sender → (transfer t sender recipient n).isSome

/-- Balances and allowances of a plain ERC-20. -/
structure Ledger where
  balances : Address → ℕ
  allowances : Address → Address → ℕ

def Ledger.transfer (l : Ledger) (sender recipient : Address) (n : ℕ) : Option Ledger :=
  if sender = 0 ∨ recipient = 0 ∨ l.balances sender < n then none
  else some { l with balances := moved l.balances sender recipient n }

/-- An unlimited allowance is not used up. -/
def Ledger.spendAllowance (l : Ledger) (owner spender : Address) (n : ℕ) : Option Ledger :=
  if l.allowances owner spender = wordBound-1 then some l
  else if l.allowances owner spender < n then none
  else some { l with
    allowances := Function.update l.allowances owner
      (Function.update (l.allowances owner) spender (l.allowances owner spender-n)) }

def Ledger.transferFrom (l : Ledger) (spender source recipient : Address) (n : ℕ) :
    Option Ledger :=
  (l.spendAllowance source spender n).bind (fun l => l.transfer source recipient n)

theorem Ledger.transfer_moves (l l' : Ledger) (sender recipient : Address) (n : ℕ)
    (h : l.transfer sender recipient n = some l') :
    n ≤ l.balances sender ∧ l'.balances = moved l.balances sender recipient n := by
  simp only [Ledger.transfer, Option.ite_none_left_eq_some, Option.some.injEq, not_or,
    not_lt] at h
  obtain ⟨⟨-, -, hfunds⟩, rfl⟩ := h
  exact ⟨hfunds,rfl⟩

theorem Ledger.spendAllowance_balances (l l' : Ledger) (owner spender : Address) (n : ℕ)
    (h : l.spendAllowance owner spender n = some l') : l'.balances = l.balances := by
  unfold Ledger.spendAllowance at h
  split at h
  · simp only [Option.some.injEq] at h
    rw [h]
  · simp only [Option.ite_none_left_eq_some, Option.some.injEq] at h
    rw [← h.2]

def ledgerToken : StandardToken where
  State := Ledger
  balanceOf := Ledger.balances
  transfer := Ledger.transfer
  transferFrom := Ledger.transferFrom
  transfer_moves := fun l sender recipient n l' h => l.transfer_moves l' sender recipient n h
  transferFrom_moves := by
    intro l spender source recipient n l' h
    obtain ⟨m, hm, ht⟩ := Option.bind_eq_some_iff.mp h
    have hmoves := Ledger.transfer_moves m l' source recipient n ht
    rwa [Ledger.spendAllowance_balances l m source spender n hm] at hmoves
  transfer_funded := by
    intro l sender recipient n hs hr hn
    have hpass : ¬(sender = 0 ∨ recipient = 0 ∨ l.balances sender < n) := by
      rintro (h | h | h)
      · exact hs h
      · exact hr h
      · omega
    rw [Ledger.transfer, if_neg hpass]
    rfl

end Aevia.Evm
