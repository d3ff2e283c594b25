import Aevia.Coordinator.Settler
import Aevia.Foundation.Run

/-!
# The epoch driver

Every tick settles the window from the cursor to the clock. The cursor moves to
the end of the window when the settlement has succeeded and stays where it is
otherwise. Receipts arrive between ticks and while a tick reads the store, and
a transaction may be mined after the tick that has sent it has given up.
-/

set_option autoImplicit false

namespace Aevia.Coordinator
open Aevia.Bytes Aevia.GoError Aevia.KeyValue Aevia.Por Aevia.Run Aevia.Storage

structure DriverConfig where
  cadence : Int64
  initialSince : Int64

structure Driver (PublicKey PrivateKey : Type) where
  settler : Settler PublicKey PrivateKey
  cfg : DriverConfig
  lastSince : Int64

def defaultCadence : Int64 := 300000000000

def newDriver {PublicKey PrivateKey : Type} (settler : Option (Settler PublicKey PrivateKey))
    (cfg : DriverConfig) : Except GoError (Driver PublicKey PrivateKey) :=
  match settler with
  | none => .error (.new "epoch: settler is nil")
  | some settler => .ok ⟨settler, { cfg with
      cadence := if cfg.cadence ≤ 0 then defaultCadence else cfg.cadence }, cfg.initialSince⟩

theorem newDriver_ok {PublicKey PrivateKey : Type} (settler : Option (Settler PublicKey PrivateKey))
    (cfg : DriverConfig) (d : Driver PublicKey PrivateKey) (h : newDriver settler cfg = .ok d) :
    settler = some d.settler ∧ 0 < d.cfg.cadence ∧ d.lastSince = cfg.initialSince := by
  cases settler with
  | none => cases h
  | some settler =>
    cases h
    refine ⟨rfl, ?_, rfl⟩
    show 0 < if cfg.cadence ≤ 0 then defaultCadence else cfg.cadence
    split_ifs with hcadence
    · decide
    · exact Int64.not_le.mp hcadence

structure TickResult where
  result : Option Result
  skipped : Bool
  since : Int64
  til : Int64

section Tick
variable {PublicKey PrivateKey : Type}

/-- What a tick does: what it returns, the driver it leaves, and what the
settlement in it has done. -/
structure Ticked (PublicKey PrivateKey : Type) where
  outcome : Except GoError TickResult
  driver : Driver PublicKey PrivateKey
  settled : Settled

/-- `TickOnce` at a reading of the clock. -/
def tickOnce (d : Driver PublicKey PrivateKey) (others : List (List (Write Bytes Bytes)))
    (db : Database) (til : Int64) (answers : ChainAnswers) : Ticked PublicKey PrivateKey :=
  let since := d.lastSince
  let settled := settleOnce d.settler others db since til answers
  match settled.result with
  | .error e =>
    if e.is errNoReceipts then ⟨.ok ⟨none, true, since, til⟩, d, settled⟩
    else ⟨.error (.wrap "epoch tick [%d,%d): %w" [.int since.toInt, .int til.toInt] e), d, settled⟩
  | .ok result => ⟨.ok ⟨some result, false, since, til⟩, { d with lastSince := til }, settled⟩

@[simp] theorem tickOnce_settled (d : Driver PublicKey PrivateKey)
    (others : List (List (Write Bytes Bytes))) (db : Database) (til : Int64)
    (answers : ChainAnswers) : (tickOnce d others db til answers).settled =
      settleOnce d.settler others db d.lastSince til answers := by
  unfold tickOnce
  dsimp only
  split
  · split_ifs <;> rfl
  · rfl

theorem tickOnce_driver (d : Driver PublicKey PrivateKey)
    (others : List (List (Write Bytes Bytes))) (db : Database) (til : Int64)
    (answers : ChainAnswers) : (tickOnce d others db til answers).driver =
      { d with lastSince :=
        if (settleOnce d.settler others db d.lastSince til answers).result.isOk then til
        else d.lastSince } := by
  unfold tickOnce
  dsimp only
  cases (settleOnce d.settler others db d.lastSince til answers).result with
  | error e =>
    rw [if_neg (show ¬ (Except.error e : Except GoError Result).isOk = true from nofun)]
    dsimp only
    split_ifs <;> rfl
  | ok result => rfl

end Tick

section World
variable {PublicKey PrivateKey : Type}

structure World (PublicKey PrivateKey : Type) where
  store : Database
  driver : Driver PublicKey PrivateKey

/-- A put, or a tick: the clock, the receipts that arrive before each read of the
store (the last ones after it), what the chain answers, and whether a
transaction whose fate the tick has not seen is mined successfully later. -/
inductive Event where
  | put (r : Receipt)
  | tick (til : Int64) (arrivals : List (List Receipt)) (answers : ChainAnswers) (later : Bool)

def arrivalWrites (arrivals : List (List Receipt)) : List (List (Write Bytes Bytes)) :=
  arrivals.map (fun rs => rs.flatMap putWrites)

def next (w : World PublicKey PrivateKey) : Event → World PublicKey PrivateKey
  | .put r => { w with store := storePut w.store r }
  | .tick til arrivals answers _ =>
    ⟨(tickOnce w.driver (arrivalWrites arrivals) w.store til answers).settled.store,
      (tickOnce w.driver (arrivalWrites arrivals) w.store til answers).driver⟩

/-- A transaction that has been sent is mined successfully: the wait has seen it,
or it has not seen it and it is so later. -/
def mined (s : Settler PublicKey PrivateKey) (sent : Option Transaction) (answers : ChainAnswers)
    (later : Bool) : Bool :=
  match sent with
  | none => false
  | some tx =>
    match answers.sendError, waitMined (s.wallet.hash tx) s.cfg.timeout answers.polls with
    | none, .ok receipt => receipt.status == 1
    | _, _ => later

structure Tick where
  since : Int64
  til : Int64
  recs : List Receipt
  sent : Option Transaction
  succeeded : Bool
  mined : Bool

def tickOf (w : World PublicKey PrivateKey) (til : Int64) (arrivals : List (List Receipt))
    (answers : ChainAnswers) (later : Bool) : Tick :=
  let settled := (tickOnce w.driver (arrivalWrites arrivals) w.store til answers).settled
  { since := w.driver.lastSince
    til := til
    recs := settled.recs
    sent := settled.sent
    succeeded := settled.result.isOk
    mined := mined w.driver.settler settled.sent answers later }

def ticks (w : World PublicKey PrivateKey) : List Event → List Tick
  | [] => []
  | .put r::es => ticks (next w (.put r)) es
  | .tick til arrivals answers later::es =>
    tickOf w til arrivals answers later::ticks (next w (.tick til arrivals answers later)) es

theorem next_lastSince (w : World PublicKey PrivateKey) (til : Int64)
    (arrivals : List (List Receipt)) (answers : ChainAnswers) (later : Bool) :
    (next w (.tick til arrivals answers later)).driver.lastSince =
      if (tickOf w til arrivals answers later).succeeded then til else w.driver.lastSince := by
  rw [next, tickOnce_driver, tickOf, tickOnce_settled]

theorem tickOf_recs (w : World PublicKey PrivateKey) (til : Int64)
    (arrivals : List (List Receipt)) (answers : ChainAnswers) (later : Bool) (r : Receipt)
    (hr : r ∈ (tickOf w til arrivals answers later).recs) :
    (0 < w.driver.lastSince → w.driver.lastSince ≤ r.timestampUnix) ∧
      (0 < til → r.timestampUnix < til) := by
  rw [tickOf, tickOnce_settled] at hr
  exact mem_recs_settleOnce w.driver.settler _ w.store _ til answers r hr

end World

section Samples

def sampleAddress (_ : Bytes) : Except GoError Address := .ok ⟨List.replicate 20 3, rfl⟩

def sampleWorld (receipts : List Receipt) : World Bytes Bytes :=
  ⟨sampleStore receipts, ⟨sampleSettler sampleAddress, ⟨defaultCadence, 0⟩, 0⟩⟩

def minedTick (til : Int64) (nonce : UInt64) : Event :=
  .tick til [] (sampleAnswers nonce [sampleMined]) false

end Samples

end Aevia.Coordinator
