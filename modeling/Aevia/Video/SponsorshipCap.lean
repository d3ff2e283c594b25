import Aevia.Video.RegistrationInvariant

/-!
# The sponsorship cap

An owner's count is read before a transaction is sent and written only after it
was seen in a block. Transactions that the count misses are not capped: those of
requests that overlap, and those that are mined after their request gave up.
-/

set_option autoImplicit false

namespace Aevia.Lives
open Aevia.Bytes Aevia.Run

def Tx.sponsored (owner : Bytes) (t : Tx) : Bool := t.request.owner = owner ∧ t.status.isMined

def Tx.outstanding (owner : Bytes) (t : Tx) : Bool := t.request.owner = owner ∧ t.status.mayBeMined

def sponsored (s : World) (owner : Bytes) : ℕ := s.txs.countP (Tx.sponsored owner)

def outstanding (s : World) (owner : Bytes) : ℕ := s.txs.countP (Tx.outstanding owner)

/-- A request of the owner that sends a transaction has read a count that takes
in every transaction of the owner that is mined or may still be. -/
def Counted (owner : Bytes) (s : World) (e : Event) : Prop :=
  ∀ x ∈ sending s e, x.r.request.owner = owner → outstanding s owner ≤ x.used

instance (owner : Bytes) (s : World) (e : Event) : Decidable (Counted owner s e) :=
  inferInstanceAs (Decidable (∀ x ∈ sending s e, x.r.request.owner = owner → outstanding s owner ≤ x.used))

theorem sponsored_outstanding (s : World) (owner : Bytes) :
    sponsored s owner ≤ outstanding s owner := by
  apply List.countP_mono_left
  intro t _ ht
  simp only [Tx.sponsored, Tx.outstanding, decide_eq_true_eq] at ht ⊢
  exact ⟨ht.1,isMined_mayBeMined t.status ht.2⟩

theorem outstanding_settled (s : World) (owner : Bytes) (i : ℕ) (t : Tx) (status : TxStatus)
    (ht : s.pendingTx i = some t) :
    (s.txs.set i { t with status := status }).countP (Tx.outstanding owner) ≤ outstanding s owner := by
  obtain ⟨hget, hpending⟩ := (pendingTx_some s i t).mp ht
  obtain ⟨hi, hget⟩ := List.getElem?_eq_some_iff.mp hget
  by_cases howner : t.request.owner = owner
  · have hbefore : Tx.outstanding owner t = true := by
      simp only [Tx.outstanding, decide_eq_true_eq, hpending]
      exact ⟨howner,rfl⟩
    have hpositive : 0 < outstanding s owner :=
      List.countP_pos_iff.mpr ⟨t,hget ▸ List.getElem_mem hi,hbefore⟩
    rw [List.countP_set hi, hget, if_pos hbefore]
    show outstanding s owner-1+_ ≤ outstanding s owner
    split <;> omega
  · have hafter : Tx.outstanding owner { t with status := status } = false := by
      simp only [Tx.outstanding, decide_eq_false_iff_not]
      exact fun h => howner h.1
    rw [List.countP_set hi, hafter]
    exact Nat.sub_le _ _

/-- What holds while every send of the owner is counted. -/
structure Capped (owner : Bytes) (s : World) : Prop where
  sound : Sound s
  capped : outstanding s owner ≤ maxFreeRegistrationsPerOwner

theorem start_capped (owner : Bytes) (lives : Bytes → Option LiveInput)
    (registry : ContentRegistry.Registry) : Capped owner (World.start lives registry) where
  sound := start_sound lives registry
  capped := Nat.zero_le _

theorem next_capped (relay : Relay) (owner : Bytes) (s : World) (e : Event) (hs : Capped owner s)
    (hcounted : Counted owner s e) : Capped owner (next relay s e) := by
  refine ⟨next_sound relay s e hs.sound, ?_⟩
  rcases next_txs relay s e with hsame | ⟨x, hsending, hsend⟩ | ⟨i, t, status, ht, hset⟩
  · rw [outstanding, hsame]
    exact hs.capped
  · obtain ⟨-, -, hused, hrequest, -⟩ := sending_passed s e x hs.sound hsending
    rw [outstanding, hsend, List.countP_append]
    by_cases howner : x.r.request.owner = owner
    · have hcount := hcounted x hsending howner
      have hone : List.countP (Tx.outstanding owner) [x.t] ≤ 1 := List.countP_le_length
      show outstanding s owner+_ ≤ _
      omega
    · have hother : Tx.outstanding owner x.t = false := by
        simp only [Tx.outstanding, decide_eq_false_iff_not, hrequest]
        exact fun h => howner h.1
      rw [List.countP_singleton, hother]
      exact hs.capped
  · rw [outstanding, hset]
    exact (outstanding_settled s owner i t status ht).trans hs.capped

/-- The relayer never pays for more registrations of an owner than the cap
allows, as long as every request of the owner that sends a transaction has read
a count that takes in those before it. -/
theorem sponsorship_capped (relay : Relay) (lives : Bytes → Option LiveInput)
    (registry : ContentRegistry.Registry) (owner : Bytes) (events : List Event)
    (h : Along (next relay) (Counted owner) (World.start lives registry) events) :
    sponsored (run (next relay) (World.start lives registry) events) owner ≤
      maxFreeRegistrationsPerOwner := by
  have hcapped : Capped owner (run (next relay) (World.start lives registry) events) :=
    along_invariant (next relay) (Counted owner) (Capped owner)
      (next_capped relay owner) _ events (start_capped owner lives registry) h
  exact (sponsored_outstanding _ owner).trans hcapped.capped

section Samples

def completes (n : ℕ) : List Event := reads n (decimal n)++sends n++finishes n

/-- Of twelve requests, one after the other, ten are paid for. -/
theorem completed_registrations_capped :
    let events := (List.range 12).flatMap completes
    Along (next sampleRelay) (Counted sampleOwner) sampleWorld events ∧
    sponsored (run (next sampleRelay) sampleWorld events) sampleOwner = 10 ∧
    sponsored (run (next sampleRelay) sampleWorld events) sampleOwner ≤
      maxFreeRegistrationsPerOwner := by
  intro events
  have hcounted : Along (next sampleRelay) (Counted sampleOwner) sampleWorld events := by
    decide +kernel
  have hten : sponsored (run (next sampleRelay) sampleWorld events) sampleOwner = 10 := by
    decide +kernel
  exact ⟨hcounted,hten,sponsorship_capped sampleRelay sampleLives (ContentRegistry.deploy 3 84532)
    sampleOwner events hcounted⟩

def givesUp (n : ℕ) : List Event :=
  reads n (decimal n)++sends n++[.relayed n (.waitForReceipt (some (ascii "Timed out"))), isMinedNow n]

def elevenLate : List Event := (List.range 11).flatMap givesUp

/-- Eleven registrations are paid for, one after the other. -/
theorem late_registrations_uncapped :
    sponsored (run (next sampleRelay) sampleWorld elevenLate) sampleOwner = 11 ∧
      ¬ sponsored (run (next sampleRelay) sampleWorld elevenLate) sampleOwner ≤
        maxFreeRegistrationsPerOwner := by
  decide +kernel

end Samples

end Aevia.Lives
