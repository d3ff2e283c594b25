import Aevia.Contracts.BoostRouter

/-!
# A boost conserves value

The four shares always sum to all basis points, so the amounts of a boost sum to
its amount, the subtractions that leave the creator's part never underflow, and
the router passes on exactly what it pulled in.
-/

set_option autoImplicit false

namespace Aevia.BoostRouter
open Aevia.Evm Aevia.Fallible Aevia.Run

variable {T : StandardToken} {router : Address}

@[simp] theorem mul_ok (a b c : ℕ) : mul a b = .ok c ↔ a*b < wordBound ∧ c = a*b := by
  rw [mul, uint256Mul, require_ok, Except.ok.injEq, eq_comm]

@[simp] theorem sub_ok (a b c : ℕ) : sub a b = .ok c ↔ b ≤ a ∧ c = a-b := by
  rw [sub, uint256Sub, require_ok, Except.ok.injEq, eq_comm]

@[simp] theorem view_ok {α : Type} (answer : Option α) (a : α) :
    view answer = .ok a ↔ answer = some a := by
  cases answer <;> simp [view]

@[simp] theorem safeTransfer_ok (token token' : T.State) (sender recipient : Address) (n : ℕ) :
    safeTransfer token sender recipient n = .ok token' ↔
      T.transfer token sender recipient n = some token' := by
  rw [safeTransfer]
  cases T.transfer token sender recipient n <;> simp

@[simp] theorem safeTransferFrom_ok (token token' : T.State)
    (spender source recipient : Address) (n : ℕ) :
    safeTransferFrom token spender source recipient n = .ok token' ↔
      T.transferFrom token spender source recipient n = some token' := by
  rw [safeTransferFrom]
  cases T.transferFrom token spender source recipient n <;> simp

/-- The products fit into a word, the subtractions do not underflow, and these
are the four amounts. -/
theorem previewSplit_ok (s : Router T router) (amount c p l f : ℕ) :
    previewSplit s amount = .ok (c, p, l, f) ↔
      amount*s.poolBps.toNat < wordBound ∧ amount*s.llcBps.toNat < wordBound ∧
      amount*s.councilBps.toNat < wordBound ∧
      p = amount*s.poolBps.toNat/bpsTotal ∧ l = amount*s.llcBps.toNat/bpsTotal ∧
      f = amount*s.councilBps.toNat/bpsTotal ∧
      p ≤ amount ∧ l ≤ amount-p ∧ f ≤ amount-p-l ∧ c = amount-p-l-f := by
  simp only [previewSplit, bind_ok, mul_ok, sub_ok, Except.ok.injEq, Prod.mk.injEq]
  constructor
  · rintro ⟨_, ⟨hp, rfl⟩, _, ⟨hl, rfl⟩, _, ⟨hf, rfl⟩, _, ⟨h₁, rfl⟩, _, ⟨h₂, rfl⟩, _, ⟨h₃, rfl⟩,
      rfl, rfl, rfl, rfl⟩
    exact ⟨hp,hl,hf,rfl,rfl,rfl,h₁,h₂,h₃,rfl⟩
  · rintro ⟨hp, hl, hf, rfl, rfl, rfl, h₁, h₂, h₃, rfl⟩
    exact ⟨_,⟨hp,rfl⟩,_,⟨hl,rfl⟩,_,⟨hf,rfl⟩,_,⟨h₁,rfl⟩,_,⟨h₂,rfl⟩,_,⟨h₃,rfl⟩,rfl,rfl,rfl,rfl⟩

structure Distributed (s : Router T router) (sender creator : Address) (amount c p l f : ℕ)
    (token : T.State) : Prop where
  chain : ∃ t₁ t₂ t₃ t₄, T.transferFrom s.token router sender router amount = some t₁ ∧
    T.transfer t₁ router creator c = some t₂ ∧
    T.transfer t₂ router s.persistencePool p = some t₃ ∧
    T.transfer t₃ router s.llcTreasury l = some t₄ ∧
    T.transfer t₄ router s.councilFund f = some token

theorem boost_ok (s s' : Router T router) (registry : IContentRegistry) (oracle : IRiskOracle)
    (sender : Caller router) (m : Bytes32) (amount : ℕ)
    (h : boost s registry oracle sender m amount = .ok s') :
    minBoost ≤ amount ∧ registry.isRegistered m = some true ∧
    (∃ rBps, oracle.scoreBps m = some rBps ∧ rBps < thetaFeedBps) ∧
    ∃ creator c p l f token, registry.ownerOf m = some creator ∧
      previewSplit s amount = .ok (c, p, l, f) ∧
      Distributed s sender creator amount c p l f token ∧
      s' = { s with
        token := token
        events := s.events++[.boost m sender creator amount c p l f] } := by
  simp only [boost, guard_ok, bind_ok, view_ok, mul_ok, sub_ok, safeTransfer_ok,
    safeTransferFrom_ok, Except.ok.injEq, not_lt, Bool.not_eq_false, BitVec.not_le] at h
  obtain ⟨hmin, _, hregistered, rfl, rBps, hscore, hgate, creator, howner, _, ⟨hp, rfl⟩, _,
    ⟨hl, rfl⟩, _, ⟨hf, rfl⟩, _, ⟨h₁, rfl⟩, _, ⟨h₂, rfl⟩, _, ⟨h₃, rfl⟩, t₁, ht₁, t₂, ht₂, t₃, ht₃,
    t₄, ht₄, token, ht, rfl⟩ := h
  refine ⟨hmin, hregistered, ⟨rBps, hscore, hgate⟩, creator, _, _, _, _, token, howner, ?_,
    ⟨⟨t₁,t₂,t₃,t₄,ht₁,ht₂,ht₃,ht₄,ht⟩⟩, rfl⟩
  exact (previewSplit_ok _ _ _ _ _ _).mpr ⟨hp,hl,hf,rfl,rfl,rfl,h₁,h₂,h₃,rfl⟩

def SplitComplete (s : Router T router) : Prop :=
  s.creatorBps.toNat+s.poolBps.toNat+s.llcBps.toNat+s.councilBps.toNat = bpsTotal

theorem deploy_complete (token : T.State)
    (usdc registry oracle persistencePool llcTreasury councilFund council : Address)
    (s : Router T router)
    (h : deploy token usdc registry oracle persistencePool llcTreasury councilFund council =
      .ok s) : SplitComplete s := by
  simp only [deploy, guard_ok, Except.ok.injEq] at h
  obtain ⟨-, -, -, -, -, -, -, rfl⟩ := h
  rfl

theorem execute_complete (s s' : Router T router) (a : Action T router) (hs : SplitComplete s)
    (h : execute s a = .ok s') : SplitComplete s' := by
  cases a with
  | boost registry oracle sender m amount =>
    obtain ⟨-, -, -, _, _, _, _, _, _, -, -, -, rfl⟩ := boost_ok _ _ _ _ _ _ _ h
    exact hs
  | setSplit sender creatorBps poolBps llcBps councilBps =>
    simp only [execute, setSplit, guard_ok, not_not, Except.ok.injEq] at h
    obtain ⟨-, htotal, rfl⟩ := h
    exact htotal
  | setCouncil sender council =>
    simp only [execute, setCouncil, guard_ok, Except.ok.injEq] at h
    obtain ⟨-, -, rfl⟩ := h
    exact hs
  | tokenActivity ledger =>
    simp only [execute, Except.ok.injEq] at h
    rw [← h]
    exact hs

theorem next_complete (s : Router T router) (a : Action T router) (hs : SplitComplete s) :
    SplitComplete (next s a) :=
  committed SplitComplete s (execute s a) hs (fun s' h => execute_complete s s' a hs h)

theorem run_complete (s : Router T router) (actions : List (Action T router))
    (hs : SplitComplete s) : SplitComplete (run next s actions) :=
  run_invariant next SplitComplete next_complete s actions hs

theorem floors_of_shares (amount b₀ b₁ b₂ b₃ : ℕ) (hsum : b₀+b₁+b₂+b₃ = bpsTotal) :
    amount*b₁/bpsTotal+amount*b₂/bpsTotal+amount*b₃/bpsTotal+amount*b₀/bpsTotal ≤ amount ∧
    amount ≤
      amount*b₁/bpsTotal+amount*b₂/bpsTotal+amount*b₃/bpsTotal+amount*b₀/bpsTotal+3 := by
  have hproducts : amount*b₀+amount*b₁+amount*b₂+amount*b₃ = amount*bpsTotal := by
    rw [← hsum, Nat.mul_add, Nat.mul_add, Nat.mul_add]
  rw [bpsTotal] at hproducts ⊢
  omega

/-- The subtractions never underflow: a preview fails on the size of the products only. -/
theorem previewSplit_defined (s : Router T router) (amount : ℕ) (hs : SplitComplete s) :
    (previewSplit s amount).isOk = true ↔
      amount*s.poolBps.toNat < wordBound ∧ amount*s.llcBps.toNat < wordBound ∧
      amount*s.councilBps.toNat < wordBound := by
  constructor
  · intro h
    obtain ⟨⟨c, p, l, f⟩, h⟩ := exists_ok _ h
    obtain ⟨hp, hl, hf, -⟩ := (previewSplit_ok _ _ _ _ _ _).mp h
    exact ⟨hp,hl,hf⟩
  · rintro ⟨hp, hl, hf⟩
    have hchain : ∀ x y z w : ℕ, x+y+z+w ≤ amount →
        x ≤ amount ∧ y ≤ amount-x ∧ z ≤ amount-x-y := by
      intro x y z w hle
      omega
    obtain ⟨hpool, hllc, hcouncil⟩ := hchain _ _ _ _ (floors_of_shares amount _ _ _ _ hs).1
    rw [(previewSplit_ok s amount _ _ _ _).mpr
      ⟨hp,hl,hf,rfl,rfl,rfl,hpool,hllc,hcouncil,rfl⟩]
    rfl

theorem split_amounts (s : Router T router) (amount c p l f : ℕ) (hs : SplitComplete s)
    (h : previewSplit s amount = .ok (c, p, l, f)) :
    c+p+l+f = amount ∧ amount*s.creatorBps.toNat/bpsTotal ≤ c ∧
      c ≤ amount*s.creatorBps.toNat/bpsTotal+3 := by
  have hfloors := floors_of_shares amount _ _ _ _ hs
  obtain ⟨-, -, -, hp, hl, hf, h₁, h₂, h₃, hc⟩ := (previewSplit_ok _ _ _ _ _ _).mp h
  rw [← hp, ← hl, ← hf] at hfloors
  omega

theorem distributed_balances (s : Router T router) (sender : Caller router) (creator : Address)
    (amount c p l f : ℕ) (token : T.State) (hsum : c+p+l+f = amount)
    (h : Distributed s sender creator amount c p l f token)
    (hcreator : creator ≠ router) (hpool : s.persistencePool ≠ router)
    (htreasury : s.llcTreasury ≠ router) (hfund : s.councilFund ≠ router) :
    amount ≤ T.balanceOf s.token sender ∧
    (∀ a, T.balanceOf token a+(if a = sender then amount else 0) =
      T.balanceOf s.token a+(if a = creator then c else 0)+
        (if a = s.persistencePool then p else 0)+(if a = s.llcTreasury then l else 0)+
        (if a = s.councilFund then f else 0)) ∧
    T.balanceOf token router = T.balanceOf s.token router := by
  obtain ⟨t₁, t₂, t₃, t₄, h₁, h₂, h₃, h₄, h₅⟩ := h.chain
  obtain ⟨hn₁, hb₁⟩ := T.transferFrom_moves _ _ _ _ _ _ h₁
  obtain ⟨hn₂, hb₂⟩ := T.transfer_moves _ _ _ _ _ h₂
  obtain ⟨hn₃, hb₃⟩ := T.transfer_moves _ _ _ _ _ h₃
  obtain ⟨hn₄, hb₄⟩ := T.transfer_moves _ _ _ _ _ h₄
  obtain ⟨hn₅, hb₅⟩ := T.transfer_moves _ _ _ _ _ h₅
  have hmoves : ∀ a, T.balanceOf token a+(if a = sender then amount else 0) =
      T.balanceOf s.token a+(if a = creator then c else 0)+
        (if a = s.persistencePool then p else 0)+(if a = s.llcTreasury then l else 0)+
        (if a = s.councilFund then f else 0) := by
    intro a
    have hm₁ := moved_balance _ _ router _ hn₁ a
    have hm₂ := moved_balance _ _ creator _ hn₂ a
    have hm₃ := moved_balance _ _ s.persistencePool _ hn₃ a
    have hm₄ := moved_balance _ _ s.llcTreasury _ hn₄ a
    have hm₅ := moved_balance _ _ s.councilFund _ hn₅ a
    rw [← hb₁] at hm₁
    rw [← hb₂] at hm₂
    rw [← hb₃] at hm₃
    rw [← hb₄] at hm₄
    rw [← hb₅] at hm₅
    by_cases ha : a = router
    · simp only [if_pos ha] at hm₁ hm₂ hm₃ hm₄ hm₅
      omega
    · simp only [if_neg ha] at hm₁ hm₂ hm₃ hm₄ hm₅
      omega
  refine ⟨hn₁, hmoves, ?_⟩
  have hrouter := hmoves router
  rw [if_neg sender.2.symm, if_neg hcreator.symm, if_neg hpool.symm, if_neg htreasury.symm,
    if_neg hfund.symm] at hrouter
  omega

/-- A boost after any history of the router: the amounts in its event are those
of `previewSplit`, they sum to the boosted amount, the creator gets its share
rounded down or up to three units more, and every balance changes by what the
account paid and received, the router's own not at all. -/
theorem boost_conserves (token : T.State)
    (usdc registryAt oracleAt persistencePool llcTreasury councilFund council : Address)
    (s₀ : Router T router)
    (hdeploy : deploy token usdc registryAt oracleAt persistencePool llcTreasury councilFund
      council = .ok s₀)
    (actions : List (Action T router)) (registry : IContentRegistry) (oracle : IRiskOracle)
    (sender : Caller router) (m : Bytes32) (amount : ℕ) (s' : Router T router)
    (h : boost (run next s₀ actions) registry oracle sender m amount = .ok s') :
    let s := run next s₀ actions
    s.creatorBps.toNat+s.poolBps.toNat+s.llcBps.toNat+s.councilBps.toNat = bpsTotal ∧
    ∃ creator c p l f, registry.ownerOf m = some creator ∧
      s'.events = s.events++[.boost m sender creator amount c p l f] ∧
      previewSplit s amount = .ok (c, p, l, f) ∧ c+p+l+f = amount ∧
      amount*s.creatorBps.toNat/bpsTotal ≤ c ∧ c ≤ amount*s.creatorBps.toNat/bpsTotal+3 ∧
      (creator ≠ router → s.persistencePool ≠ router → s.llcTreasury ≠ router →
        s.councilFund ≠ router →
        amount ≤ T.balanceOf s.token sender ∧
        (∀ a, T.balanceOf s'.token a+(if a = sender then amount else 0) =
          T.balanceOf s.token a+(if a = creator then c else 0)+
            (if a = s.persistencePool then p else 0)+(if a = s.llcTreasury then l else 0)+
            (if a = s.councilFund then f else 0)) ∧
        T.balanceOf s'.token router = T.balanceOf s.token router) := by
  intro s
  have hs : SplitComplete s := run_complete s₀ actions
    (deploy_complete token usdc registryAt oracleAt persistencePool llcTreasury councilFund
      council s₀ hdeploy)
  obtain ⟨-, -, -, creator, c, p, l, f, token', howner, hpreview, hmoves, rfl⟩ :=
    boost_ok _ _ _ _ _ _ _ h
  obtain ⟨hsum, hlow, hhigh⟩ := split_amounts s amount c p l f hs hpreview
  refine ⟨hs, creator, c, p, l, f, howner, rfl, hpreview, hsum, hlow, hhigh, ?_⟩
  intro hcreator hpool htreasury hfund
  exact distributed_balances s sender creator amount c p l f token' hsum hmoves hcreator hpool
    htreasury hfund

section Samples

def boosterLedger : Ledger where
  balances := fun a => if a = 2 then 1000003 else 0
  allowances := fun owner spender => if owner = 2 ∧ spender = 0x100 then 1000003 else 0

def sampleRouter : Router ledgerToken 0x100 where
  token := boosterLedger
  persistencePool := 20
  llcTreasury := 21
  councilFund := 22
  council := 23
  creatorBps := 5000
  poolBps := 3000
  llcBps := 1900
  councilBps := 100
  events := []

def sampleActions : List (Action ledgerToken 0x100) :=
  [.setSplit ⟨23, by decide⟩ 3334 3333 3332 1, .setCouncil ⟨23, by decide⟩ 24]

def sampleRegistry : IContentRegistry := ⟨fun _ => some 2, fun _ => some true⟩

def sampleOracle : IRiskOracle := ⟨fun _ => some 2999⟩

theorem boost_conserves_sample :
    ∃ s', boost (run next sampleRouter sampleActions) sampleRegistry sampleOracle
        ⟨2, by decide⟩ 9 1000003 = .ok s' ∧
      (run next sampleRouter sampleActions).creatorBps.toNat+
        (run next sampleRouter sampleActions).poolBps.toNat+
        (run next sampleRouter sampleActions).llcBps.toNat+
        (run next sampleRouter sampleActions).councilBps.toNat = bpsTotal := by
  obtain ⟨s', h⟩ := exists_ok (boost (run next sampleRouter sampleActions) sampleRegistry
    sampleOracle ⟨2, by decide⟩ 9 1000003) (by decide +kernel)
  exact ⟨s',h,(boost_conserves boosterLedger 10 11 12 20 21 22 23 sampleRouter rfl sampleActions
    sampleRegistry sampleOracle ⟨2, by decide⟩ 9 1000003 s' h).1⟩

end Samples

end Aevia.BoostRouter
