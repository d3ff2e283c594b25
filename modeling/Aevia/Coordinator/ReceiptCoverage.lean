import Aevia.Coordinator.Driver

/-!
# No receipt is left out

A stored receipt that the cursor has not passed is in the next window that
reaches its timestamp. Windows are cut by what receipts are stamped with, not
by when they arrive: one that arrives behind the cursor is never settled.
-/

set_option autoImplicit false

namespace Aevia.Coordinator
open Aevia.Fallible Aevia.GoError Aevia.KeyValue Aevia.Por Aevia.Run Aevia.Storage

/-- A put that a later window can still reach, at the cursor it meets: nothing is
stored, the same document is stored already, or the key is free and the cursor
has not passed. -/
def InTime (cursor : Int64) (db : Database) (r : Receipt) : Prop :=
  r.providerPeerID = [] ∨ db.get (receiptKey r) = some (receiptJson r).print ∨
    (db.get (receiptKey r) = none ∧ (cursor ≤ 0 ∨ cursor ≤ r.timestampUnix))

theorem InTime.keeps {cursor : Int64} {db : Database} {r : Receipt} (h : InTime cursor db r) :
    Keeps db r := by
  rcases h with h | h | ⟨h, -⟩
  · exact Or.inl h
  · exact Or.inr (Or.inr h)
  · exact Or.inr (Or.inl h)

section Runs
variable {PublicKey PrivateKey : Type}

/-- Where the cursor stands after a tick: at its clock if its window is not empty. -/
def cursorAfter (w : World PublicKey PrivateKey) (til : Int64) : Int64 :=
  match list w.store with
  | .ok all => if windowOf w.driver.lastSince til all = [] then w.driver.lastSince else til
  | .error _ => w.driver.lastSince

/-- Ticks settle or find no receipts, and every receipt comes in time: before
the cursor, or while a tick runs before where that tick puts it. -/
def Timely (w : World PublicKey PrivateKey) : Event → Prop
  | .put r => InTime w.driver.lastSince w.store r
  | .tick til arrivals answers _ =>
    (∀ e, (settleOnce w.driver.settler (arrivalWrites arrivals) w.store w.driver.lastSince til
      answers).result = .error e → e = errNoReceipts) ∧
    Along storePut (InTime (cursorAfter w til)) w.store arrivals.flatten

theorem along_mono {σ ε : Type} (next : σ → ε → σ) (P Q : σ → ε → Prop)
    (h : ∀ s e, P s e → Q s e) (s : σ) (es : List ε) (ha : Along next P s es) :
    Along next Q s es := by
  induction es generalizing s with
  | nil => trivial
  | cons e es ih => exact ⟨h s e ha.1,ih _ ha.2⟩

variable (w : World PublicKey PrivateKey) (til : Int64) (arrivals : List (List Receipt))
  (answers : ChainAnswers) (later : Bool)

theorem timely_tick (h : Timely w (.tick til arrivals answers later)) :
    ∃ all, list w.store = .ok all ∧
      (tickOf w til arrivals answers later).recs = windowOf w.driver.lastSince til all ∧
      ((tickOf w til arrivals answers later).succeeded = true ↔
        windowOf w.driver.lastSince til all ≠ []) := by
  have hlist := listAmid_arrivals w.store arrivals
    (along_mono _ _ _ (fun _ _ h => h.keeps) _ _ h.2)
  have hwindow : ∀ recs, (windowForAllProviders (arrivalWrites arrivals) w.store
      w.driver.lastSince til).1 = .ok recs →
        ∃ all, list w.store = .ok all ∧ recs = windowOf w.driver.lastSince til all := by
    intro recs hrecs
    rw [← hlist]
    unfold windowForAllProviders arrivalWrites at hrecs
    generalize listAmid (arrivals.map (fun rs => rs.flatMap putWrites)) w.store = listed at hrecs ⊢
    obtain ⟨e | all, db⟩ := listed
    · cases hrecs
    · exact ⟨all,rfl,(Except.ok.inj hrecs).symm⟩
  rw [tickOf, tickOnce_settled]
  dsimp only
  cases hresult : (settleOnce w.driver.settler (arrivalWrites arrivals) w.store w.driver.lastSince
    til answers).result with
  | error e =>
    rw [h.1 e hresult] at hresult
    obtain ⟨hempty, hrecs⟩ := recs_of_errNoReceipts _ _ _ _ _ _ hresult
    obtain ⟨all, hall, hwindow⟩ := hwindow [] hempty
    refine ⟨all, hall, hrecs.trans hwindow, ?_⟩
    rw [← hwindow]
    exact ⟨fun h => (Bool.false_ne_true h).elim,fun h => (h rfl).elim⟩
  | ok result =>
    obtain ⟨p, hrecs, hnonempty, -⟩ := settleOnce_ok _ _ _ _ _ _ result hresult
    obtain ⟨all, hall, hwindow⟩ := hwindow _ hrecs
    exact ⟨all,hall,hwindow,fun _ => hwindow ▸ hnonempty,fun _ => rfl⟩

theorem timely_cursor (h : Timely w (.tick til arrivals answers later)) :
    (next w (.tick til arrivals answers later)).driver.lastSince = cursorAfter w til := by
  obtain ⟨all, hall, -, hsucceeded⟩ := timely_tick w til arrivals answers later h
  rw [next_lastSince, cursorAfter, hall]
  dsimp only
  by_cases hempty : windowOf w.driver.lastSince til all = []
  · rw [if_pos hempty, if_neg (fun h => hsucceeded.mp h hempty)]
  · rw [if_neg hempty, if_pos (hsucceeded.mpr hempty)]

theorem next_store : (next w (.tick til arrivals answers later)).store =
    arrivals.flatten.foldl storePut w.store := by
  rw [next, tickOnce_settled, settleOnce_store]
  exact listAmid_store w.store arrivals

/-- A stored receipt that the cursor has not passed. -/
structure Waiting (w : World PublicKey PrivateKey) (r : Receipt) : Prop where
  stored : w.store.get (receiptKey r) = some (receiptJson r).print
  ahead : w.driver.lastSince ≤ 0 ∨ w.driver.lastSince ≤ r.timestampUnix

theorem waiting_tick (r : Receipt) (hr : Waiting w r)
    (h : Timely w (.tick til arrivals answers later)) :
    ((tickOf w til arrivals answers later).succeeded = true ∧
      r.sanitized ∈ (tickOf w til arrivals answers later).recs) ∨
    (til ≤ r.timestampUnix ∧ Waiting (next w (.tick til arrivals answers later)) r) := by
  obtain ⟨all, hall, hrecs, hsucceeded⟩ := timely_tick w til arrivals answers later h
  have hlisted := mem_list_of_stored w.store all hall r hr.stored
  have hsince : 0 < w.driver.lastSince → w.driver.lastSince ≤ r.timestampUnix :=
    fun hpos => hr.ahead.resolve_left (Int64.not_le.mpr hpos)
  by_cases hreach : 0 < til → r.timestampUnix < til
  · have hmem : r.sanitized ∈ windowOf w.driver.lastSince til all :=
      (mem_windowOf _ _ _ _).mpr ⟨hlisted,hsince,hreach⟩
    exact Or.inl ⟨hsucceeded.mpr (List.ne_nil_of_mem hmem),hrecs ▸ hmem⟩
  · rw [Classical.not_imp, Int64.not_lt] at hreach
    refine Or.inr ⟨hreach.2, ?_, ?_⟩
    · rw [next_store]
      exact foldl_storePut_extends _ _ (along_mono _ _ _ (fun _ _ h => h.keeps) _ _ h.2) _ _
        hr.stored
    · rw [next_lastSince]
      split_ifs
      · exact Or.inr hreach.2
      · exact hr.ahead

theorem waiting_put (r r' : Receipt) (hr : Waiting w r) (h : Timely w (.put r')) :
    Waiting (next w (.put r')) r :=
  ⟨storePut_extends w.store r' (InTime.keeps h) _ _ hr.stored,hr.ahead⟩

theorem waiting_settled (es : List Event) (r : Receipt) (hr : Waiting w r)
    (h : Along next Timely w es) (hreach : ∃ t ∈ ticks w es, r.timestampUnix < t.til) :
    ∃ t ∈ ticks w es, t.succeeded = true ∧ r.sanitized ∈ t.recs := by
  induction es generalizing w with
  | nil =>
    obtain ⟨t, ht, -⟩ := hreach
    exact (List.not_mem_nil ht).elim
  | cons e es ih =>
    cases e with
    | put r' => exact ih _ (waiting_put w r r' hr h.1) h.2 hreach
    | tick til arrivals answers later =>
      rcases waiting_tick w til arrivals answers later r hr h.1 with hsettled | ⟨hle, hwaiting⟩
      · exact ⟨_,List.mem_cons_self,hsettled⟩
      · obtain ⟨t, ht, hlt⟩ := hreach
        rcases List.mem_cons.mp ht with rfl | ht
        · exact (Int64.lt_irrefl (Int64.lt_of_lt_of_le hlt hle)).elim
        · obtain ⟨t, ht, hsettled⟩ := ih _ hwaiting h.2 ⟨t,ht,hlt⟩
          exact ⟨t,List.mem_cons_of_mem _ ht,hsettled⟩

def Stores (e : Event) (r : Receipt) : Prop :=
  w.store.get (receiptKey r) ≠ some (receiptJson r).print ∧
    (next w e).store.get (receiptKey r) = some (receiptJson r).print

theorem ahead_of_stored (cursor : Int64) (db : Database) (rs : List Receipt) (r : Receipt)
    (h : Along storePut (InTime cursor) db rs)
    (hbefore : db.get (receiptKey r) ≠ some (receiptJson r).print)
    (hafter : (rs.foldl storePut db).get (receiptKey r) = some (receiptJson r).print) :
    cursor ≤ 0 ∨ cursor ≤ r.timestampUnix := by
  induction rs generalizing db with
  | nil => exact (hbefore hafter).elim
  | cons a rs ih =>
    by_cases hstored : (storePut db a).get (receiptKey r) = some (receiptJson r).print
    · by_cases hother : a.providerPeerID = [] ∨ receiptKey r ≠ receiptKey a
      · rw [get_storePut_other db a _ hother] at hstored
        exact (hbefore hstored).elim
      · rw [not_or, not_not] at hother
        obtain ⟨hprovider, hkey⟩ := hother
        rw [hkey] at hbefore hstored
        rw [get_storePut db a hprovider, Option.some.injEq] at hstored
        rcases h.1 with h | h | ⟨-, h⟩
        · exact (hprovider h).elim
        · exact (hbefore (h.trans (congrArg some hstored))).elim
        · rwa [(receiptKey_inj r a hkey).2.1]
    · exact ih _ h.2 hstored hafter

/-- In every run whose ticks settle or find nothing and whose receipts come in
time, every receipt that is stored is settled by a later tick if one reaches
its timestamp. -/
theorem stored_receipt_settled (e : Event) (es : List Event) (r : Receipt)
    (h : Along next Timely w (e::es)) (hstored : Stores w e r)
    (hreach : ∃ t ∈ ticks (next w e) es, r.timestampUnix < t.til) :
    ∃ t ∈ ticks (next w e) es, t.succeeded = true ∧ r.sanitized ∈ t.recs := by
  refine waiting_settled _ es r ⟨hstored.2, ?_⟩ h.2 hreach
  cases e with
  | put a =>
    exact ahead_of_stored _ w.store [a] r ⟨h.1,trivial⟩ hstored.1 hstored.2
  | tick til arrivals answers later =>
    rw [timely_cursor w til arrivals answers later h.1]
    have hafter := hstored.2
    rw [next_store] at hafter
    exact ahead_of_stored _ w.store _ r h.1.2 hstored.1 hafter

end Runs

section Samples

/-- A receipt comes between two ticks and is settled by the second. -/
theorem stored_receipt_settled_next :
    ∃ t ∈ ticks (next (sampleWorld []) (.put (sampleServed "p" 10 25))) [minedTick 30 5],
      t.succeeded = true ∧ (sampleServed "p" 10 25).sanitized ∈ t.recs := by
  refine stored_receipt_settled (sampleWorld []) (.put (sampleServed "p" 10 25)) [minedTick 30 5]
    (sampleServed "p" 10 25) ⟨?_, ⟨?_, trivial⟩, trivial⟩ ⟨?_, ?_⟩ ⟨_, List.mem_cons_self, ?_⟩
  · exact Or.inr (Or.inr ⟨by decide +kernel,Or.inl (by decide)⟩)
  · have hok : (settleOnce (sampleSettler sampleAddress) [] (sampleStore [sampleServed "p" 10 25])
        0 30 (sampleAnswers 5 [sampleMined])).result.isOk = true := by
      decide +kernel
    obtain ⟨result, hresult⟩ := exists_ok _ hok
    exact fun e he => nomatch he.symm.trans hresult
  · decide +kernel
  · decide +kernel
  · decide

def lateArrival : List Event :=
  [.put (sampleServed "p" 10 10), minedTick 20 5, .put (sampleServed "p" 10 15), minedTick 30 6]

theorem late_arrival_never_settled :
    (ticks (sampleWorld []) lateArrival).map (fun t => (t.til, t.succeeded)) =
      [(20, true), (30, false)] ∧
    (tickOnce (run next (sampleWorld []) (lateArrival.take 3)).driver []
      (run next (sampleWorld []) (lateArrival.take 3)).store 30
      (sampleAnswers 6 [sampleMined])).outcome.toOption.map TickResult.skipped = some true ∧
    (run next (sampleWorld []) lateArrival).store.get (receiptKey (sampleServed "p" 10 15)) =
      some (receiptJson (sampleServed "p" 10 15)).print ∧
    ∀ t ∈ ticks (sampleWorld []) lateArrival,
      (sampleServed "p" 10 15).sanitized ∉ t.recs := by
  decide +kernel

end Samples

end Aevia.Coordinator
