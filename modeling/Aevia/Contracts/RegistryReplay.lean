import Aevia.Contracts.RegistryForest
import Aevia.Foundation.TypedData

/-!
# Signed digests are used once

The digest that an accepted call has a signature for commits to the call, the
chain it is on and the nonce of the owner. Nonces of an owner go up with each of
its registrations, so as long as the hash did not collide on what was hashed,
accepted calls of one run have different digests, and so have calls on chains
with different ids.
-/

set_option autoImplicit false

namespace Aevia.ContentRegistry
open Aevia.Evm Aevia.Fallible Aevia.Keccak Aevia.Run

theorem domainSeparator_eq (s : Registry) (chainId : BitVec 256) :
    s.domainSeparator chainId = buildDomainSeparator s.self chainId := by
  by_cases h : chainId = s.cachedChainId
  · rw [Registry.domainSeparator, if_pos h, s.cached, h]
  · rw [Registry.domainSeparator, if_neg h]

theorem domainSeparator_length (s : Registry) (chainId : BitVec 256) :
    (s.domainSeparator chainId).length = digestSize := by
  rw [domainSeparator_eq]
  exact keccak256_length _

/-- The struct that the signature of a call has to be for. -/
def fields (s : Registry) (c : Call) : Bytes :=
  registerFields c.chainId c.owner c.manifestCid c.parentCid c.policyFlags (s.nonces c.owner)

def message (s : Registry) (c : Call) : Bytes :=
  TypedData.message keccak256 (s.domainSeparator c.chainId) (fields s c)

def digest (s : Registry) (c : Call) : Bytes :=
  s.hashRegisterContent c.chainId c.owner c.manifestCid c.parentCid c.policyFlags

theorem toNat_lt_word (w : ℕ) (x : BitVec w) (hw : w ≤ 256) : x.toNat < 2^256 :=
  x.isLt.trans_le (Nat.pow_le_pow_right (by decide) hw)

theorem registerFields_inj (chainId chainId' : BitVec 256) (owner owner' : Address)
    (cid cid' parent parent' : Bytes32) (flags flags' : BitVec 8) (nonce nonce' : BitVec 256)
    (h : registerFields chainId owner cid parent flags nonce =
      registerFields chainId' owner' cid' parent' flags' nonce') :
    chainId = chainId' ∧ owner = owner' ∧ cid = cid' ∧ parent = parent' ∧ flags = flags' ∧
      nonce = nonce' := by
  have hfit : ∀ (o : Address) (a b : Bytes32) (f : BitVec 8) (k n : BitVec 256),
      ∀ w ∈ [o.toNat, a.toNat, b.toNat, f.toNat, k.toNat, n.toNat], w < 2^256 := by
    intro o a b f k n w hw
    simp only [List.mem_cons, List.not_mem_nil, or_false] at hw
    rcases hw with rfl | rfl | rfl | rfl | rfl | rfl <;> exact toNat_lt_word _ _ (by decide)
  have hwords := Abi.encode_inj _ _ (hfit owner cid parent flags chainId nonce)
    (hfit owner' cid' parent' flags' chainId' nonce') rfl (List.append_cancel_left h)
  simp only [List.cons.injEq, and_true, BitVec.toNat_inj] at hwords
  obtain ⟨howner, hcid, hparent, hflags, hchain, hnonce⟩ := hwords
  exact ⟨hchain,howner,hcid,hparent,hflags,hnonce⟩

/-- The call is accepted in the run, after the calls before it. -/
def AcceptedAt (s : Registry) (calls before : List Call) (c : Call) : Prop :=
  before++[c] <+: calls ∧ (registerContent (run next s before) c).isOk = true

def hashed : Registry → List Call → List Bytes
  | _, [] => []
  | s, c::calls =>
    (if (registerContent s c).isOk then [fields s c, message s c] else [])++hashed (next s c) calls

/-- The hash has no collision among these inputs. -/
def CollisionFree (inputs : List Bytes) : Prop :=
  ∀ a ∈ inputs, ∀ b ∈ inputs, keccak256 a = keccak256 b → a = b

instance collisionFreeDecidable (inputs : List Bytes) : Decidable (CollisionFree inputs) :=
  inferInstanceAs (Decidable (∀ a ∈ inputs, ∀ b ∈ inputs, keccak256 a = keccak256 b → a = b))

theorem mem_hashed (s : Registry) (calls before : List Call) (c : Call)
    (h : AcceptedAt s calls before c) :
    fields (run next s before) c ∈ hashed s calls ∧
    message (run next s before) c ∈ hashed s calls := by
  induction before generalizing s calls with
  | nil =>
    obtain ⟨hpre, hok⟩ := h
    obtain ⟨after, rfl⟩ := hpre
    simp [hashed, run, show (registerContent s c).isOk = true from hok]
  | cons b before ih =>
    obtain ⟨hpre, hok⟩ := h
    obtain ⟨after, rfl⟩ := hpre
    obtain ⟨hfields, hmessage⟩ := ih (next s b) (before++[c]++after)
      ⟨List.prefix_append _ _,hok⟩
    exact ⟨List.mem_append_right _ hfields,List.mem_append_right _ hmessage⟩

theorem digest_inj (inputs : List Bytes) (hcollision : CollisionFree inputs) (s t : Registry)
    (c d : Call) (hc : fields s c ∈ inputs ∧ message s c ∈ inputs)
    (hd : fields t d ∈ inputs ∧ message t d ∈ inputs) (h : digest s c = digest t d) :
    c.chainId = d.chainId ∧ c.owner = d.owner ∧ c.manifestCid = d.manifestCid ∧
      c.parentCid = d.parentCid ∧ c.policyFlags = d.policyFlags ∧
      s.nonces c.owner = t.nonces d.owner := by
  have hlen : (s.domainSeparator c.chainId).length = (t.domainSeparator d.chainId).length := by
    rw [domainSeparator_length, domainSeparator_length]
  have hfields := (TypedData.digest_inj keccak256 {a | a ∈ inputs}
    (fun a ha b hb hab => hcollision a ha b hb hab) _ _ _ _ hlen hc.1 hd.1 hc.2 hd.2 h).2
  exact registerFields_inj _ _ _ _ _ _ _ _ _ _ _ _ hfields

theorem self_run (s : Registry) (calls : List Call) : (run next s calls).self = s.self := by
  apply run_invariant next (fun t => t.self = s.self)
  · intro t c ht
    apply next_of_register (fun u => u.self = s.self) t c ht
    intro u h
    rw [(registerContent_ok t u c h).2.1, ht]
  · rfl

theorem nonces_run (s : Registry) (hw : WellFormed s) (calls : List Call) (o : Address) :
    (s.nonces o).toNat ≤ ((run next s calls).nonces o).toNat := by
  have hboth := run_invariant next
    (fun t => WellFormed t ∧ (s.nonces o).toNat ≤ (t.nonces o).toNat) ?_ s calls ⟨hw,le_rfl⟩
  · exact hboth.2
  · intro t c ⟨ht, hle⟩
    refine ⟨next_wellFormed t c ht, ?_⟩
    apply next_of_register (fun u => (s.nonces o).toNat ≤ (u.nonces o).toNat) t c hle
    intro u h
    rw [nonces_register t u c h ht]
    exact hle.trans (Nat.le_add_right _ _)

theorem nonce_used (s : Registry) (hw : WellFormed s) (c : Call) (calls : List Call)
    (hok : (registerContent s c).isOk = true) :
    (s.nonces c.owner).toNat < ((run next (next s c) calls).nonces c.owner).toNat := by
  obtain ⟨s', h⟩ := exists_ok _ hok
  have hnext : next s c = s' := by
    rw [next, h, commit_ok]
  have hused := nonces_register s s' c h hw c.owner
  have hlater := nonces_run s' (register_wellFormed s s' c h hw) calls c.owner
  rw [if_pos rfl] at hused
  rw [hnext]
  omega

theorem earlier_prefix (calls before before' : List Call) (c c' : Call)
    (h : before++[c] <+: calls) (h' : before'++[c'] <+: calls)
    (hlt : before.length < before'.length) : before++[c] <+: before' := by
  have hpre : before' <+: calls := (List.prefix_append before' [c']).trans h'
  apply List.prefix_of_prefix_length_le h hpre
  rw [List.length_append, List.length_singleton]
  exact hlt

theorem digests_differ (s : Registry) (hw : WellFormed s) (inputs : List Bytes)
    (hcollision : CollisionFree inputs) (calls : List Call) (hinputs : hashed s calls ⊆ inputs)
    (before before' : List Call) (c c' : Call) (h : AcceptedAt s calls before c)
    (h' : AcceptedAt s calls before' c') (hlt : before.length < before'.length) :
    digest (run next s before) c ≠ digest (run next s before') c' := by
  intro heq
  have hc := mem_hashed s calls before c h
  have hc' := mem_hashed s calls before' c' h'
  obtain ⟨-, howner, -, -, -, hnonce⟩ := digest_inj inputs hcollision _ _ c c'
    ⟨hinputs hc.1,hinputs hc.2⟩ ⟨hinputs hc'.1,hinputs hc'.2⟩ heq
  obtain ⟨between, rfl⟩ := earlier_prefix calls before before' c c' h.1 h'.1 hlt
  have hbefore : WellFormed (run next s before) :=
    run_invariant next WellFormed next_wellFormed _ before hw
  have hused := nonce_used _ hbefore c between h.2
  have hsplit : run next s (before++[c]++between) = run next (next (run next s before) c) between := by
    rw [List.append_assoc, run_append]
    rfl
  rw [hsplit, ← howner] at hnonce
  rw [hnonce] at hused
  exact lt_irrefl _ hused

/-- Every accepted call carries a signature that is valid for exactly its
fields, on the chain it is on and with the nonce of its owner; and unless the
hash collided, no digest is accepted twice in a run, nor in two runs of the
contract on chains with different ids. -/
theorem registrations_authorized_once (self : Address) (chainId : BitVec 256)
    (calls fork : List Call)
    (hcollision : CollisionFree
      (hashed (deploy self chainId) calls++hashed (deploy self chainId) fork)) :
    let s := fun before => run next (deploy self chainId) before
    (∀ before c, AcceptedAt (deploy self chainId) calls before c →
      c.isValidSignatureNow c.owner
        (TypedData.digest keccak256 (buildDomainSeparator self c.chainId)
          (registerFields c.chainId c.owner c.manifestCid c.parentCid c.policyFlags
            ((s before).nonces c.owner)))
        c.signature = true) ∧
    (∀ before c before' c', AcceptedAt (deploy self chainId) calls before c →
      AcceptedAt (deploy self chainId) calls before' c' → before.length ≠ before'.length →
      digest (s before) c ≠ digest (s before') c') ∧
    (∀ before c before' c', AcceptedAt (deploy self chainId) calls before c →
      AcceptedAt (deploy self chainId) fork before' c' → c.chainId ≠ c'.chainId →
      digest (s before) c ≠ digest (s before') c') := by
  intro s
  have hw := deploy_wellFormed self chainId
  refine ⟨?_, ?_, ?_⟩
  · intro before c h
    obtain ⟨s', hs'⟩ := exists_ok _ h.2
    have hsigned := (registerContent_ok _ s' c hs').1.signed
    have hdomain := domainSeparator_eq (s before) c.chainId
    rw [show (s before).self = self from self_run _ before] at hdomain
    rw [← hdomain]
    exact hsigned
  · intro before c before' c' h h' hne
    rcases lt_or_gt_of_ne hne with hlt | hlt
    · exact digests_differ _ hw _ hcollision calls (List.subset_append_left _ _) before before'
        c c' h h' hlt
    · exact (digests_differ _ hw _ hcollision calls (List.subset_append_left _ _) before' before
        c' c h' h hlt).symm
  · intro before c before' c' h h' hchain heq
    have hc := mem_hashed _ calls before c h
    have hc' := mem_hashed _ fork before' c' h'
    exact hchain (digest_inj _ hcollision _ _ c c'
      ⟨List.mem_append_left _ hc.1,List.mem_append_left _ hc.2⟩
      ⟨List.mem_append_right _ hc'.1,List.mem_append_right _ hc'.2⟩ heq).1

section Samples

/-- A record and a clip of it, the clip once more on a chain that split off in between. -/
def forkedCall : Call := { sampleCall 200 6 5 with chainId := 1 }

theorem registrations_authorized_once_sample :
    AcceptedAt (deploy 1 8453) [sampleCall 100 5 0, sampleCall 200 6 5] [sampleCall 100 5 0]
      (sampleCall 200 6 5) ∧
    AcceptedAt (deploy 1 8453) [sampleCall 100 5 0, forkedCall] [sampleCall 100 5 0] forkedCall ∧
    digest (run next (deploy 1 8453) [sampleCall 100 5 0]) (sampleCall 200 6 5) ≠
      digest (run next (deploy 1 8453) [sampleCall 100 5 0]) forkedCall :=
  have h : AcceptedAt (deploy 1 8453) [sampleCall 100 5 0, sampleCall 200 6 5]
      [sampleCall 100 5 0] (sampleCall 200 6 5) := ⟨List.prefix_rfl,by decide +kernel⟩
  have h' : AcceptedAt (deploy 1 8453) [sampleCall 100 5 0, forkedCall] [sampleCall 100 5 0]
      forkedCall := ⟨List.prefix_rfl,by decide +kernel⟩
  ⟨h,h',(registrations_authorized_once 1 8453 [sampleCall 100 5 0, sampleCall 200 6 5]
    [sampleCall 100 5 0, forkedCall] (by decide +kernel)).2.2 _ _ _ _ h h' (by decide)⟩

end Samples

end Aevia.ContentRegistry
