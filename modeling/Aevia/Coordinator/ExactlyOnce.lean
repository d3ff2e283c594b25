import Aevia.Coordinator.Driver

/-!
# No receipt is settled twice

The windows of successful ticks lie one after the other, so a receipt of one of
them is in no other. The guarantee ends where a transaction is mined although
its tick has failed: the cursor has not moved and the window opens again.
-/

set_option autoImplicit false

namespace Aevia.Coordinator
open Aevia.Fallible Aevia.KeyValue Aevia.Por Aevia.Run

/-- No two transactions that are mined successfully share a receipt. -/
def SettledOnce (history : List Tick) : Prop :=
  history.Pairwise (fun t t' => t.mined = true → t'.mined = true →
    ∀ r ∈ t.recs, ∀ r' ∈ t'.recs, receiptKey r ≠ receiptKey r')

section Runs
variable {PublicKey PrivateKey : Type}

/-- No transaction is mined successfully whose receipt the wait has not seen, and
a tick at a clock that is not positive finds nothing. -/
def Confirmed (w : World PublicKey PrivateKey) : Event → Prop
  | .put _ => True
  | .tick til arrivals _ later => later = false ∧
    (0 < til ∨ ∀ recs, (windowForAllProviders (arrivalWrites arrivals) w.store
      w.driver.lastSince til).1 = .ok recs → recs = [])

theorem succeeded_of_mined (w : World PublicKey PrivateKey) (til : Int64)
    (arrivals : List (List Receipt)) (answers : ChainAnswers)
    (h : (tickOf w til arrivals answers false).mined = true) :
    (tickOf w til arrivals answers false).succeeded = true := by
  rw [tickOf, tickOnce_settled] at h ⊢
  dsimp only at h ⊢
  rcases settleOnce_cases w.driver.settler (arrivalWrites arrivals) w.store w.driver.lastSince til
    answers with ⟨e, hcall⟩ | ⟨recs, -, ⟨-, hcall⟩ | ⟨-, ⟨e, -, hcall⟩ | ⟨p, -, hcall⟩⟩⟩
  · rw [hcall] at h
    cases h
  · rw [hcall] at h
    cases h
  · rw [hcall] at h
    cases h
  · rw [hcall] at h ⊢
    unfold mined at h
    dsimp only at h ⊢
    split at h
    · rename_i receipt hsend hwait
      unfold broadcast
      rw [hsend, hwait]
      dsimp only
      rw [if_neg (by rw [beq_iff_eq.mp h]; decide)]
      rfl
    · cases h

theorem cursor_of_succeeded (w : World PublicKey PrivateKey) (til : Int64)
    (arrivals : List (List Receipt)) (answers : ChainAnswers) (later : Bool)
    (hconfirmed : Confirmed w (.tick til arrivals answers later))
    (h : (tickOf w til arrivals answers later).succeeded = true) :
    0 < til ∧ (0 < w.driver.lastSince → w.driver.lastSince < til) ∧
      ∀ r ∈ (tickOf w til arrivals answers later).recs, r.timestampUnix < til := by
  have hrecs := tickOf_recs w til arrivals answers later
  rw [tickOf, tickOnce_settled] at h hrecs ⊢
  dsimp only at h hrecs ⊢
  obtain ⟨result, hresult⟩ := exists_ok _ h
  obtain ⟨p, hwindow, hnonempty, -⟩ := settleOnce_ok _ _ _ _ _ _ result hresult
  have htil : 0 < til := hconfirmed.2.resolve_right (fun h => hnonempty (h _ hwindow))
  obtain ⟨r, hr⟩ := List.exists_mem_of_ne_nil _ hnonempty
  exact ⟨htil,fun hcursor => Int64.lt_of_le_of_lt ((hrecs r hr).1 hcursor) ((hrecs r hr).2 htil),
    fun r hr => (hrecs r hr).2 htil⟩

theorem cursor_le_of_mined (w : World PublicKey PrivateKey) (es : List Event)
    (h : Along next Confirmed w es) (hcursor : 0 < w.driver.lastSince) :
    ∀ t ∈ ticks w es, t.mined = true → ∀ r ∈ t.recs, w.driver.lastSince ≤ r.timestampUnix := by
  induction es generalizing w with
  | nil => exact fun t ht => (List.not_mem_nil ht).elim
  | cons e es ih =>
    obtain ⟨he, hes⟩ := h
    cases e with
    | put r => exact ih _ hes hcursor
    | tick til arrivals answers later =>
      intro t ht
      rcases List.mem_cons.mp ht with rfl | ht
      · exact fun _ r hr => (tickOf_recs w til arrivals answers later r hr).1 hcursor
      · intro hmined r hr
        have hlast := next_lastSince w til arrivals answers later
        split_ifs at hlast with hsucceeded
        · obtain ⟨hpos, hlt, -⟩ := cursor_of_succeeded w til arrivals answers later he hsucceeded
          have hle := ih _ hes (by rw [hlast]; exact hpos) t ht hmined r hr
          rw [hlast] at hle
          exact Int64.le_of_lt (Int64.lt_of_lt_of_le (hlt hcursor) hle)
        · have hle := ih _ hes (by rw [hlast]; exact hcursor) t ht hmined r hr
          rwa [hlast] at hle

/-- In every run in which no transaction is mined unseen, no receipt is settled twice. -/
theorem receipts_settled_once (w : World PublicKey PrivateKey) (es : List Event)
    (h : Along next Confirmed w es) : SettledOnce (ticks w es) := by
  induction es generalizing w with
  | nil => exact List.Pairwise.nil
  | cons e es ih =>
    obtain ⟨he, hes⟩ := h
    cases e with
    | put r => exact ih _ hes
    | tick til arrivals answers later =>
      refine List.Pairwise.cons (fun t ht hmined hmined' r hr r' hr' hkey => ?_) (ih _ hes)
      obtain rfl : later = false := he.1
      have hsucceeded := succeeded_of_mined w til arrivals answers hmined
      obtain ⟨hpos, -, hbefore⟩ := cursor_of_succeeded w til arrivals answers false he hsucceeded
      have hlast := next_lastSince w til arrivals answers false
      rw [if_pos hsucceeded] at hlast
      have hle := cursor_le_of_mined _ es hes (by rw [hlast]; exact hpos) t ht hmined' r' hr'
      obtain ⟨-, hts, -⟩ := receiptKey_inj r r' hkey
      have hlt := hbefore r hr
      rw [hlast, ← hts] at hle
      exact Int64.lt_irrefl (Int64.lt_of_lt_of_le hlt hle)

end Runs

section Samples

def sampleRun : List Event :=
  [minedTick 20 5, .put (sampleServed "p" 10 25), minedTick 30 6]

theorem receipts_settled_once_two :
    (ticks (sampleWorld [sampleServed "p" 10 15]) sampleRun).map (fun t => (t.mined, t.recs)) =
      [(true, [sampleServed "p" 10 15]), (true, [sampleServed "p" 10 25])] ∧
    SettledOnce (ticks (sampleWorld [sampleServed "p" 10 15]) sampleRun) :=
  ⟨by decide +kernel, receipts_settled_once _ _
    ⟨⟨rfl,Or.inl (by decide)⟩,trivial,⟨rfl,Or.inl (by decide)⟩,trivial⟩⟩

/-- The first transaction is mined after the wait has given up, the second at
once. -/
def lateRun : List Event :=
  [.tick 20 [] (sampleAnswers 5 []) true, minedTick 30 6]

theorem late_mining_settles_twice :
    (ticks (sampleWorld [sampleServed "p" 10 15]) lateRun).map
      (fun t => t.sent.map Transaction.nonce) = [some 5, some 6] ∧
    ¬ SettledOnce (ticks (sampleWorld [sampleServed "p" 10 15]) lateRun) := by
  unfold SettledOnce
  decide +kernel

end Samples

end Aevia.Coordinator
