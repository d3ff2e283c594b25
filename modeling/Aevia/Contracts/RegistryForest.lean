import Aevia.Contracts.ContentRegistry
import Aevia.Foundation.Forest
import Mathlib.Data.Fintype.Card

/-!
# Records form a forest

A registration writes one fresh record whose parent is already registered, so
records are never overwritten, parents end at a record without one, and the
nonce of an owner counts its records. A record keeps the low 64 bits of the
block time, so parents are no later than their children while these are all of
it.
-/

set_option autoImplicit false

namespace Aevia.ContentRegistry
open Aevia.Evm Aevia.Fallible Aevia.Forest Aevia.Run

def Call.record (c : Call) : ContentRecord :=
  ⟨c.owner, c.timestamp.setWidth 64, c.policyFlags, c.parentCid⟩

structure Admitted (s : Registry) (c : Call) : Prop where
  owner : c.owner ≠ 0
  cid : c.manifestCid ≠ 0
  distinct : c.parentCid ≠ c.manifestCid
  flags : c.policyFlags &&& reservedPolicyBit = 0
  fresh : (s.records c.manifestCid).owner = 0
  parent : c.parentCid = 0 ∨ (s.records c.parentCid).owner ≠ 0
  signed : c.isValidSignatureNow c.owner
    (s.hashRegisterContent c.chainId c.owner c.manifestCid c.parentCid c.policyFlags)
    c.signature = true

theorem registerContent_ok (s s' : Registry) (c : Call) (h : registerContent s c = .ok s') :
    Admitted s c ∧
    s'.self = s.self ∧ s'.cachedChainId = s.cachedChainId ∧
    s'.records = Function.update s.records c.manifestCid c.record ∧
    s'.nonces = Function.update s.nonces c.owner (s.nonces c.owner+1) := by
  simp only [registerContent, guard_ok, not_not, Except.ok.injEq, Bool.not_eq_false] at h
  obtain ⟨howner, hcid, hself, hflags, hfresh, hparent, hsigned, rfl⟩ := h
  have hregistered : c.parentCid = 0 ∨ (s.records c.parentCid).owner ≠ 0 := by
    by_cases hp : c.parentCid = 0
    · exact .inl hp
    · exact .inr (fun ho => hparent ⟨hp,ho⟩)
  exact ⟨⟨howner,hcid,hself,hflags,hfresh,hregistered,hsigned⟩,rfl,rfl,rfl,rfl⟩

/-- A property of the registry holds after a call if it held before and an
accepted call establishes it. -/
theorem next_of_register (P : Registry → Prop) (s : Registry) (c : Call) (hs : P s)
    (hregister : ∀ s', registerContent s c = .ok s' → P s') : P (next s c) :=
  committed P s (registerContent s c) hs hregister

def parentOf (s : Registry) (cid : Bytes32) : Bytes32 := (s.records cid).parentCid

def registered (s : Registry) : Set Bytes32 := {cid | (s.records cid).owner ≠ 0}

theorem isRegistered_iff (s : Registry) (cid : Bytes32) :
    s.isRegistered cid = true ↔ cid ∈ registered s := by
  simp [Registry.isRegistered, registered]

def owned (s : Registry) (o : Address) : Finset Bytes32 :=
  Finset.univ.filter (fun cid => s.isRegistered cid ∧ (s.records cid).owner = o)

structure WellFormed (s : Registry) : Prop where
  written : ∀ cid, s.records cid ≠ ContentRecord.unset → cid ∈ registered s
  nonzero : 0 ∉ registered s
  flags : ∀ cid, (s.records cid).policyFlags &&& reservedPolicyBit = 0
  parent : ∀ cid, parentOf s cid = 0 ∨ parentOf s cid ∈ registered s
  rooted : ∀ cid ∈ registered s, Rooted (parentOf s) 0 cid
  counter : ∀ o, (s.nonces o).toNat = (owned s o).card

theorem deploy_wellFormed (self : Address) (chainId : BitVec 256) :
    WellFormed (deploy self chainId) where
  written := fun _ h => (h rfl).elim
  nonzero := fun h => h rfl
  flags := fun _ => show (0 : BitVec 8) &&& reservedPolicyBit = 0 by decide
  parent := fun _ => .inl rfl
  rooted := fun _ h => (h rfl).elim
  counter := by
    intro o
    simp [owned, deploy, Registry.isRegistered, ContentRecord.unset]

/-- Zero is no content id, so a counter that has seen all others did not wrap. -/
theorem card_owned_lt (s : Registry) (hzero : 0 ∉ registered s) (o : Address) :
    (owned s o).card < 2^256 := by
  have hmem : (0 : Bytes32) ∉ owned s o := by
    intro hmem
    rw [owned, Finset.mem_filter, isRegistered_iff] at hmem
    exact hzero hmem.2.1
  have hlt : (owned s o).card < Fintype.card Bytes32 := Finset.card_lt_univ_of_notMem hmem
  rwa [← FinEnum.card_eq_fintypeCard, FinEnum.card_bitVec] at hlt

section Step
variable (s s' : Registry) (c : Call) (h : registerContent s c = .ok s')
include h

theorem registered_register : registered s' = insert c.manifestCid (registered s) := by
  obtain ⟨hc, -, -, hrecords, -⟩ := registerContent_ok s s' c h
  ext cid
  by_cases hcid : cid = c.manifestCid
  · simpa [registered, hrecords, hcid, Call.record] using hc.owner
  · simp [registered, hrecords, hcid]

theorem fresh_register : c.manifestCid ∉ registered s := by
  obtain ⟨hc, -⟩ := registerContent_ok s s' c h
  exact fun hmem => hmem hc.fresh

theorem records_register (cid : Bytes32) (hcid : cid ∈ registered s) :
    s'.records cid = s.records cid := by
  obtain ⟨-, -, -, hrecords, -⟩ := registerContent_ok s s' c h
  have hne : cid ≠ c.manifestCid := fun heq => fresh_register s s' c h (heq ▸ hcid)
  rw [hrecords, Function.update_of_ne hne]

theorem owned_register (o : Address) :
    owned s' o = if o = c.owner then insert c.manifestCid (owned s o) else owned s o := by
  obtain ⟨hc, -, -, hrecords, -⟩ := registerContent_ok s s' c h
  ext cid
  by_cases hcid : cid = c.manifestCid
  · by_cases ho : o = c.owner
    · simpa [owned, Registry.isRegistered, hrecords, hcid, ho, Call.record] using hc.owner
    · simp [owned, Registry.isRegistered, hrecords, hcid, ho, Call.record, hc.fresh, Ne.symm ho]
  · by_cases ho : o = c.owner
    · simp [owned, Registry.isRegistered, hrecords, hcid, ho]
    · simp [owned, Registry.isRegistered, hrecords, hcid, ho]

theorem parentOf_register :
    parentOf s' c.manifestCid = c.parentCid ∧
    ∀ cid, cid ≠ c.manifestCid → parentOf s' cid = parentOf s cid := by
  obtain ⟨-, -, -, hrecords, -⟩ := registerContent_ok s s' c h
  constructor
  · simp [parentOf, hrecords, Call.record]
  · intro cid hcid
    simp [parentOf, hrecords, hcid]

theorem flags_register (hw : WellFormed s) (cid : Bytes32) :
    (s'.records cid).policyFlags &&& reservedPolicyBit = 0 := by
  obtain ⟨hc, -, -, hrecords, -⟩ := registerContent_ok s s' c h
  by_cases hcid : cid = c.manifestCid
  · rw [hrecords, hcid, Function.update_self]
    exact hc.flags
  · rw [hrecords, Function.update_of_ne hcid]
    exact hw.flags cid

theorem zero_register (hw : WellFormed s) : 0 ∉ registered s' := by
  obtain ⟨hc, -⟩ := registerContent_ok s s' c h
  rw [registered_register s s' c h, Set.mem_insert_iff, not_or]
  exact ⟨hc.cid.symm,hw.nonzero⟩

theorem rooted_register (hw : WellFormed s) (cid : Bytes32) (hcid : cid ∈ registered s') :
    Rooted (parentOf s') 0 cid := by
  obtain ⟨hc, -⟩ := registerContent_ok s s' c h
  obtain ⟨hnew, hold⟩ := parentOf_register s s' c h
  have hclosed : ∀ a ∈ registered s, parentOf s a = 0 ∨ parentOf s a ∈ registered s :=
    fun a _ => hw.parent a
  have hagree : ∀ a ∈ registered s, parentOf s' a = parentOf s a := by
    intro a ha
    exact hold a (fun heq => fresh_register s s' c h (heq ▸ ha))
  rw [registered_register s s' c h, Set.mem_insert_iff] at hcid
  rcases hcid with rfl | hcid
  · apply Rooted.insert (parentOf s) _ 0 (registered s) _ hclosed hagree _ hw.rooted
    rw [hnew]
    exact hc.parent
  · exact Rooted.frame _ _ 0 _ hclosed hagree cid hcid (hw.rooted cid hcid)

theorem card_owned_register (o : Address) :
    (owned s' o).card = (owned s o).card+if o = c.owner then 1 else 0 := by
  rw [owned_register s s' c h]
  by_cases ho : o = c.owner
  · have hnew : c.manifestCid ∉ owned s o := by
      intro hmem
      rw [owned, Finset.mem_filter, isRegistered_iff] at hmem
      exact fresh_register s s' c h hmem.2.1
    rw [if_pos ho, if_pos ho, Finset.card_insert_of_notMem hnew]
  · rw [if_neg ho, if_neg ho, Nat.add_zero]

theorem nonces_register (hw : WellFormed s) (o : Address) :
    (s'.nonces o).toNat = (s.nonces o).toNat+if o = c.owner then 1 else 0 := by
  obtain ⟨-, -, -, -, hnonces⟩ := registerContent_ok s s' c h
  by_cases ho : o = c.owner
  · have hcount := card_owned_register s s' c h o
    have hbound := card_owned_lt s' (zero_register s s' c h hw) o
    have hcounter := hw.counter o
    have hone : (1 : BitVec 256).toNat = 1 := by decide
    rw [if_pos ho] at hcount ⊢
    rw [hnonces, ← ho, Function.update_self, BitVec.toNat_add, hone]
    exact Nat.mod_eq_of_lt (by omega)
  · rw [if_neg ho, hnonces, Function.update_of_ne ho, Nat.add_zero]

theorem register_wellFormed (hw : WellFormed s) : WellFormed s' where
  written := by
    intro cid hcid
    rw [registered_register s s' c h]
    by_cases hnew : cid = c.manifestCid
    · exact .inl hnew
    · obtain ⟨-, -, -, hrecords, -⟩ := registerContent_ok s s' c h
      rw [hrecords, Function.update_of_ne hnew] at hcid
      exact .inr (hw.written cid hcid)
  nonzero := zero_register s s' c h hw
  flags := flags_register s s' c h hw
  parent := by
    intro cid
    obtain ⟨hc, -⟩ := registerContent_ok s s' c h
    obtain ⟨hnew, hold⟩ := parentOf_register s s' c h
    rw [registered_register s s' c h, Set.mem_insert_iff]
    by_cases hcid : cid = c.manifestCid
    · rw [hcid, hnew]
      exact hc.parent.imp_right .inr
    · rw [hold cid hcid]
      exact (hw.parent cid).imp_right .inr
  rooted := rooted_register s s' c h hw
  counter := by
    intro o
    rw [nonces_register s s' c h hw, card_owned_register s s' c h, hw.counter]

end Step

theorem next_wellFormed (s : Registry) (c : Call) (hw : WellFormed s) : WellFormed (next s c) :=
  next_of_register WellFormed s c hw (fun s' h => register_wellFormed s s' c h hw)

theorem reachable_wellFormed (self : Address) (chainId : BitVec 256) (calls : List Call) :
    WellFormed (run next (deploy self chainId) calls) :=
  run_invariant next WellFormed next_wellFormed _ calls (deploy_wellFormed self chainId)

theorem records_run (s : Registry) (calls : List Call) (cid : Bytes32)
    (hcid : cid ∈ registered s) :
    cid ∈ registered (run next s calls) ∧ (run next s calls).records cid = s.records cid := by
  apply run_invariant next (fun t => cid ∈ registered t ∧ t.records cid = s.records cid)
  · intro t c ht
    apply next_of_register (fun u => cid ∈ registered u ∧ u.records cid = s.records cid) t c ht
    intro u h
    rw [registered_register t u c h, records_register t u c h cid ht.1]
    exact ⟨.inr ht.1,ht.2⟩
  · exact ⟨hcid,rfl⟩

/-- Parents are no later than their children, and nothing is later than the clock. -/
structure Timed (s : Registry) (clock : ℕ) : Prop where
  past : ∀ cid, (s.records cid).timestamp.toNat ≤ clock
  ordered : ∀ cid, parentOf s cid ≠ 0 →
    (s.records (parentOf s cid)).timestamp ≤ (s.records cid).timestamp

theorem register_timed (s s' : Registry) (c : Call) (h : registerContent s c = .ok s')
    (hw : WellFormed s) (clock : ℕ) (hs : Timed s clock) (hclock : clock ≤ c.timestamp.toNat)
    (hfits : c.timestamp.toNat < 2^64) : Timed s' c.timestamp.toNat := by
  obtain ⟨hc, -, -, hrecords, -⟩ := registerContent_ok s s' c h
  obtain ⟨hnew, hold⟩ := parentOf_register s s' c h
  have htime : c.record.timestamp.toNat = c.timestamp.toNat := by
    rw [Call.record, BitVec.toNat_setWidth]
    exact Nat.mod_eq_of_lt hfits
  constructor
  · intro cid
    by_cases hcid : cid = c.manifestCid
    · rw [hrecords, hcid, Function.update_self, htime]
    · rw [hrecords, Function.update_of_ne hcid]
      exact (hs.past cid).trans hclock
  · intro cid hparent
    by_cases hcid : cid = c.manifestCid
    · rw [hcid, hnew, hrecords, Function.update_self, Function.update_of_ne hc.distinct,
        BitVec.le_def, htime]
      exact (hs.past c.parentCid).trans hclock
    · rw [hold cid hcid] at hparent ⊢
      have hmem := (hw.parent cid).resolve_left hparent
      rw [records_register s s' c h _ hmem, hrecords, Function.update_of_ne hcid]
      exact hs.ordered cid hparent

theorem run_timed (s : Registry) (calls : List Call) (clock : ℕ) (hw : WellFormed s)
    (hs : Timed s clock) (hstart : ∀ c ∈ calls, clock ≤ c.timestamp.toNat)
    (horder : calls.Pairwise (fun a b => a.timestamp ≤ b.timestamp))
    (hfits : ∀ c ∈ calls, c.timestamp.toNat < 2^64) :
    ∃ clock', Timed (run next s calls) clock' := by
  induction calls generalizing s clock with
  | nil => exact ⟨clock,hs⟩
  | cons c calls ih =>
    rw [List.forall_mem_cons] at hstart hfits
    rw [List.pairwise_cons] at horder
    have hnext : Timed (next s c) c.timestamp.toNat := by
      apply next_of_register (fun t => Timed t c.timestamp.toNat) s c
      · exact ⟨fun cid => (hs.past cid).trans hstart.1,hs.ordered⟩
      · intro s' h
        exact register_timed s s' c h hw clock hs hstart.1 hfits.1
    exact ih _ _ (next_wellFormed s c hw) hnext (fun d hd => BitVec.le_def.mp (horder.1 d hd))
      horder.2 hfits.2

theorem WellFormed.top (s : Registry) (hw : WellFormed s) (cid : Bytes32)
    (hcid : cid ∈ registered s) :
    ∃ n, (parentOf s)^[n] cid ∈ registered s ∧ parentOf s ((parentOf s)^[n] cid) = 0 := by
  have hne : cid ≠ 0 := fun hzero => hw.nonzero (hzero ▸ hcid)
  obtain ⟨n, hn, htop⟩ := Rooted.top _ _ _ (hw.rooted cid hcid) hne
  refine ⟨n, ?_, htop⟩
  cases n with
  | zero => exact hcid
  | succ n =>
    rw [Function.iterate_succ_apply'] at hn ⊢
    exact (hw.parent _).resolve_left hn

theorem WellFormed.acyclic (s : Registry) (hw : WellFormed s) (cid : Bytes32)
    (hcid : cid ∈ registered s) (k : ℕ) (hk : 0 < k) :
    ¬Function.IsPeriodicPt (parentOf s) k cid := by
  have hunset : s.records 0 = ContentRecord.unset := by
    by_contra hwritten
    exact hw.nonzero (hw.written 0 hwritten)
  have hroot : parentOf s 0 = 0 := congrArg ContentRecord.parentCid hunset
  exact Rooted.acyclic _ _ _ hroot (hw.rooted cid hcid) (fun hzero => hw.nonzero (hzero ▸ hcid))
    k hk

/-- The registry after any calls in order of time: records are complete and
immutable, parents are registered and lead to a record without one, nonces
count records, and parents are no later than their children if the block times
fit into a record. -/
theorem records_form_forest (self : Address) (chainId : BitVec 256) (calls : List Call)
    (horder : calls.Pairwise (fun a b => a.timestamp ≤ b.timestamp)) :
    let s := run next (deploy self chainId) calls
    (∀ cid, s.records cid ≠ ContentRecord.unset →
      (s.records cid).owner ≠ 0 ∧ cid ≠ 0 ∧
      (s.records cid).policyFlags &&& reservedPolicyBit = 0) ∧
    (∀ cid, parentOf s cid ≠ 0 → s.isRegistered (parentOf s cid)) ∧
    ((∀ c ∈ calls, c.timestamp.toNat < 2^64) → ∀ cid, parentOf s cid ≠ 0 →
      (s.records (parentOf s cid)).timestamp ≤ (s.records cid).timestamp) ∧
    (∀ cid, s.isRegistered cid →
      (∃ n, s.isRegistered ((parentOf s)^[n] cid) ∧ parentOf s ((parentOf s)^[n] cid) = 0) ∧
      ∀ k, 0 < k → ¬Function.IsPeriodicPt (parentOf s) k cid) ∧
    (∀ cid, s.isRegistered cid → ∀ more, (run next s more).records cid = s.records cid) ∧
    ∀ o, (s.nonces o).toNat = (owned s o).card := by
  intro s
  have hw : WellFormed s := reachable_wellFormed self chainId calls
  refine ⟨?_, ?_, ?_, ?_, ?_, hw.counter⟩
  · intro cid hcid
    have hmem := hw.written cid hcid
    exact ⟨hmem,fun hzero => hw.nonzero (hzero ▸ hmem),hw.flags cid⟩
  · intro cid hparent
    exact (isRegistered_iff s _).mpr ((hw.parent cid).resolve_left hparent)
  · intro hfits
    have hdeploy : Timed (deploy self chainId) 0 := ⟨fun _ => le_refl 0,fun _ h => (h rfl).elim⟩
    obtain ⟨clock, htimed⟩ := run_timed _ calls 0 (deploy_wellFormed self chainId) hdeploy
      (fun _ _ => Nat.zero_le _) horder hfits
    exact htimed.ordered
  · intro cid hcid
    have hmem := (isRegistered_iff s cid).mp hcid
    obtain ⟨n, htop, hend⟩ := hw.top s cid hmem
    exact ⟨⟨n,(isRegistered_iff s _).mpr htop,hend⟩,hw.acyclic s cid hmem⟩
  · intro cid hcid more
    exact (records_run s more cid ((isRegistered_iff s cid).mp hcid)).2

section Samples

def sampleCall (timestamp : BitVec 256) (manifestCid parentCid : Bytes32) : Call where
  chainId := 8453
  timestamp := timestamp
  isValidSignatureNow := fun _ _ _ => true
  owner := 7
  manifestCid := manifestCid
  parentCid := parentCid
  policyFlags := 1
  signature := []

def sampleCalls : List Call := [sampleCall 100 5 0, sampleCall 100 6 5, sampleCall 200 8 6]

theorem records_form_forest_sample :
    (run next (deploy 1 8453) sampleCalls).isRegistered 8 = true ∧
    (parentOf (run next (deploy 1 8453) sampleCalls))^[2] 8 = 5 ∧
    ∀ o, ((run next (deploy 1 8453) sampleCalls).nonces o).toNat =
      (owned (run next (deploy 1 8453) sampleCalls) o).card :=
  ⟨by decide +kernel,by decide +kernel,
    (records_form_forest 1 8453 sampleCalls (by decide +kernel)).2.2.2.2.2⟩

/-- A clip in the first second that no longer fits into a record. -/
def lateCalls : List Call := [sampleCall 0xffffffffffffffff 5 0, sampleCall 0x10000000000000000 6 5]

theorem parent_after_child :
    lateCalls.Pairwise (fun a b => a.timestamp ≤ b.timestamp) ∧
    parentOf (run next (deploy 1 8453) lateCalls) 6 = 5 ∧
    (run next (deploy 1 8453) lateCalls).isRegistered 5 = true ∧
    ¬((run next (deploy 1 8453) lateCalls).records 5).timestamp ≤
      ((run next (deploy 1 8453) lateCalls).records 6).timestamp := by
  decide +kernel

end Samples

end Aevia.ContentRegistry
