import Aevia.Coordinator.EndToEnd
import Aevia.Foundation.Keccak

/-!
# Rotation of the coordinator

Authority over the pool is handed on by one transaction, whose calldata is written here and
read by the pool. Whoever holds it was named by the holder before, and who has given it away
cannot act until it is named again.
-/

set_option autoImplicit false

namespace Aevia.Coordinator
open Aevia.Abi Aevia.Bytes Aevia.Evm Aevia.Fallible Aevia.Por Aevia.Run

section Inspection

/-- First bytes of the hash of `setCoordinator(address)`. -/
def setCoordinatorSelector : Bytes := (Keccak.keccak256 (ascii "setCoordinator(address)")).take 4

def encodeSetCoordinator (newCoordinator : Por.Address) : Except GoError Bytes :=
  .ok (setCoordinatorSelector++padAddress newCoordinator)

/-- Bytes 16 to 36, whatever stands between them and the selector. -/
def decodeSetCoordinator (data : Bytes) : Except GoError Por.Address :=
  if h : data.length = 4+32 then
    if data.take 4 ≠ setCoordinatorSelector then
      .error (.new "rotate: selector mismatch (not a setCoordinator call)")
    else .ok ⟨data.drop (4+12),by rw [List.length_drop]; omega⟩
  else .error (.errorf "rotate: expected 36 bytes, got %d" [.int data.length])

/-- How the pool reads the calldata: the upper bytes of the word must be clear, and what
follows it is ignored. -/
def decodeRotation (calldata : Bytes) : Option Bytes :=
  if calldata.take 4 ≠ setCoordinatorSelector then none
  else
    match wordAt (calldata.drop 4) 0 with
    | none => none
    | some w => if w.take 12 = List.replicate 12 0 then some (w.drop 12) else none

@[simp] theorem setCoordinatorSelector_length : setCoordinatorSelector.length = 4 := by
  rw [setCoordinatorSelector, List.length_take, Keccak.keccak256_length]
  rfl

theorem decodeSetCoordinator_ok (data : Bytes) (a : Por.Address) :
    decodeSetCoordinator data = .ok a ↔
      ∃ filler : Bytes, filler.length = 12 ∧ data = setCoordinatorSelector++filler++a.val := by
  rw [decodeSetCoordinator]
  constructor
  · intro h
    by_cases hlength : data.length = 4+32
    · rw [dif_pos hlength, guard_ok, not_not] at h
      obtain ⟨hselector, hvalue⟩ := h
      have ha : data.drop (4+12) = a.val := congrArg Subtype.val (Except.ok.inj hvalue)
      refine ⟨(data.drop 4).take 12, by rw [List.length_take, List.length_drop]; omega, ?_⟩
      rw [← ha, ← hselector, List.append_assoc, ← List.drop_drop, List.take_append_drop,
        List.take_append_drop]
    · rw [dif_neg hlength] at h
      cases h
  · rintro ⟨filler, hfiller, rfl⟩
    have hhead : (setCoordinatorSelector++filler).length = 4+12 := by
      rw [List.length_append, setCoordinatorSelector_length, hfiller]
    have hlength : (setCoordinatorSelector++filler++a.val).length = 4+32 := by
      rw [List.length_append, hhead, a.property]
    have htake : (setCoordinatorSelector++filler++a.val).take 4 = setCoordinatorSelector := by
      rw [List.append_assoc, List.take_append_of_le_length (by simp), List.take_of_length_le (by simp)]
    have hdrop : (setCoordinatorSelector++filler++a.val).drop (4+12) = a.val := by
      rw [← hhead, List.drop_left]
    rw [dif_pos hlength, guard_ok, not_not]
    exact ⟨htake,congrArg Except.ok (Subtype.ext hdrop)⟩

theorem decodeRotation_some (data b : Bytes) : decodeRotation data = some b ↔
    b.length = 20 ∧ ∃ rest, data = setCoordinatorSelector++List.replicate 12 0++b++rest := by
  constructor
  · intro h
    rw [decodeRotation] at h
    by_cases hselector : data.take 4 = setCoordinatorSelector
    · rw [if_neg (not_not.mpr hselector), wordAt, Nat.zero_add, List.drop_zero] at h
      by_cases hlength : wordSize ≤ (data.drop 4).length
      · rw [if_pos hlength] at h
        dsimp only at h
        by_cases hclear : ((data.drop 4).take wordSize).take 12 = List.replicate 12 0
        · rw [if_pos hclear] at h
          have hb : ((data.drop 4).take wordSize).drop 12 = b := Option.some.inj h
          refine ⟨?_, (data.drop 4).drop wordSize, ?_⟩
          · rw [← hb, List.length_drop, List.length_take, min_eq_left hlength]
            rfl
          · rw [← hclear, ← hb, ← hselector, List.append_assoc (data.take 4), List.take_append_drop,
              List.append_assoc, List.take_append_drop, List.take_append_drop]
        · rw [if_neg hclear] at h
          cases h
      · rw [if_neg hlength] at h
        cases h
    · rw [if_pos hselector] at h
      cases h
  · rintro ⟨hb, rest, rfl⟩
    have hword : (List.replicate 12 (0 : UInt8)++b).length = wordSize := by
      rw [List.length_append, List.length_replicate, hb]
      rfl
    have hread := wordAt_append [] (List.replicate 12 0++b) rest hword
    rw [List.nil_append, List.length_nil] at hread
    have htake : (setCoordinatorSelector++List.replicate 12 0++b++rest).take 4 =
        setCoordinatorSelector := by
      rw [List.append_assoc, List.append_assoc, List.take_append_of_le_length (by simp),
        List.take_of_length_le (by simp)]
    have hdrop : (setCoordinatorSelector++List.replicate 12 0++b++rest).drop 4 =
        List.replicate 12 0++b++rest := by
      rw [List.append_assoc, List.append_assoc, List.drop_append_of_le_length (by simp),
        List.drop_eq_nil_of_le (by simp), List.nil_append, List.append_assoc]
    have hclear : (List.replicate 12 (0 : UInt8)++b).take 12 = List.replicate 12 0 := by
      rw [List.take_append_of_le_length (by simp), List.take_of_length_le (by simp)]
    have hrest : (List.replicate 12 (0 : UInt8)++b).drop 12 = b := by
      rw [List.drop_append_of_le_length (by simp), List.drop_eq_nil_of_le (by simp), List.nil_append]
    rw [decodeRotation, if_neg (not_not.mpr htake), hdrop, hread]
    dsimp only
    rw [if_pos hclear, hrest]

theorem encodeSetCoordinator_ok (a : Por.Address) (data : Bytes) :
    encodeSetCoordinator a = .ok data ↔ setCoordinatorSelector++padAddress a = data := by
  rw [encodeSetCoordinator, Except.ok.injEq]

theorem decodeRotation_encode (a : Por.Address) :
    decodeRotation (setCoordinatorSelector++padAddress a) = some a.val := by
  refine (decodeRotation_some _ _).mpr ⟨a.property,[],?_⟩
  rw [padAddress, List.append_nil, List.append_assoc]

/-- The encoder's calldata for an address are those that the inspection reads as this address
and the pool accepts. Whenever both read something, it is the same address. -/
theorem rotation_inspected (data : Bytes) (a : Por.Address) :
    (encodeSetCoordinator a = .ok data ↔
      decodeSetCoordinator data = .ok a ∧ ∃ b, decodeRotation data = some b) ∧
    ∀ b, decodeSetCoordinator data = .ok a → decodeRotation data = some b → b = a.val := by
  have hsame : ∀ b, decodeSetCoordinator data = .ok a → decodeRotation data = some b →
      b = a.val ∧ data = setCoordinatorSelector++padAddress a := by
    intro b hinspected hread
    obtain ⟨filler, hfiller, hdata⟩ := (decodeSetCoordinator_ok data a).mp hinspected
    obtain ⟨hb, rest, hdata'⟩ := (decodeRotation_some data b).mp hread
    rw [hdata, List.append_assoc, List.append_assoc, List.append_assoc] at hdata'
    obtain ⟨hclear, htail⟩ := List.append_inj (List.append_cancel_left hdata')
      (by rw [hfiller, List.length_replicate])
    have hlengths := congrArg List.length htail
    rw [List.length_append, a.property, hb] at hlengths
    have hrest : rest = [] := List.length_eq_zero_iff.mp (by omega)
    rw [hrest, List.append_nil] at htail
    refine ⟨htail.symm, ?_⟩
    rw [hdata, hclear, padAddress, List.append_assoc]
  refine ⟨⟨?_,?_⟩,fun b hinspected hread => (hsame b hinspected hread).1⟩
  · intro hencoded
    obtain rfl := (encodeSetCoordinator_ok a data).mp hencoded
    refine ⟨(decodeSetCoordinator_ok _ a).mpr ⟨List.replicate 12 0,List.length_replicate,?_⟩,
      a.val,decodeRotation_encode a⟩
    rw [padAddress, List.append_assoc]
  · rintro ⟨hinspected, b, hread⟩
    exact (encodeSetCoordinator_ok a data).mpr (hsame b hinspected hread).2.symm

end Inspection

section Authority
variable {T : StandardToken}

/-- A call of the pool. The decoder's own reverts carry no error. -/
def executeRotation (pool : PersistencePool.Pool T) (sender : Evm.Address) (calldata : Bytes) :
    Except (Option PersistencePool.Revert) (PersistencePool.Pool T) :=
  match decodeRotation calldata with
  | none => .error none
  | some b => (PersistencePool.setCoordinator pool sender (evmAddress b)).mapError some

theorem executeRotation_ok (pool pool' : PersistencePool.Pool T) (sender : Evm.Address)
    (calldata : Bytes) : executeRotation pool sender calldata = .ok pool' ↔
      ∃ b, decodeRotation calldata = some b ∧
        PersistencePool.setCoordinator pool sender (evmAddress b) = .ok pool' := by
  rw [executeRotation]
  cases decodeRotation calldata with
  | none => exact iff_of_false nofun (by rintro ⟨b, hb, -⟩; cases hb)
  | some b =>
    cases hset : PersistencePool.setCoordinator pool sender (evmAddress b) <;>
      simp [Except.mapError, hset]

/-- The holder named by the holder before; an event that names another breaks the chain. -/
def handOver (holder : Option Evm.Address) : PersistencePool.Event → Option Evm.Address
  | .coordinatorUpdated previous current => if holder = some previous then some current else none
  | _ => holder

def authority (events : List PersistencePool.Event) : Option Evm.Address :=
  events.foldl handOver (some 0)

def isHandOver : PersistencePool.Event → Bool
  | .coordinatorUpdated .. => true
  | _ => false

theorem authority_others (events more : List PersistencePool.Event)
    (h : ∀ ev ∈ more, isHandOver ev = false) : authority (events++more) = authority events := by
  induction more using List.reverseRecOn with
  | nil => rw [List.append_nil]
  | append_singleton more ev ih =>
    have hlast : handOver (authority (events++more)) ev = authority (events++more) := by
      have hev := h ev (List.mem_append_right _ List.mem_cons_self)
      cases ev <;> first | rfl | cases hev
    rw [← List.append_assoc, authority, List.foldl_append, List.foldl_cons, List.foldl_nil]
    exact hlast.trans (ih (fun e he => h e (List.mem_append_left _ he)))

structure Held (pool : PersistencePool.Pool T) : Prop where
  authority : authority pool.events = some pool.coordinator
  nonzero : pool.coordinator ≠ 0

theorem fresh_held (self : {a : Evm.Address // a ≠ 0}) (token : T.State) (coordinator : Evm.Address)
    (h : coordinator ≠ 0) : Held (PersistencePool.fresh self token coordinator) :=
  ⟨rfl,h⟩

theorem Held.keep {pool pool' : PersistencePool.Pool T} (h : Held pool)
    (hcoordinator : pool'.coordinator = pool.coordinator) (more : List PersistencePool.Event)
    (hevents : pool'.events = pool.events++more) (hmore : ∀ ev ∈ more, isHandOver ev = false) :
    Held pool' := by
  constructor
  · rw [hevents, authority_others _ _ hmore, hcoordinator]
    exact h.authority
  · rw [hcoordinator]
    exact h.nonzero

theorem execute_held (pool pool' : PersistencePool.Pool T) (a : PersistencePool.Action T)
    (hpool : Held pool) (h : PersistencePool.execute pool a = .ok pool') : Held pool' := by
  cases a with
  | deposit sender cid amount =>
    obtain ⟨-, token, total, -, rfl⟩ := PersistencePool.deposit_ok _ _ _ _ _ h
    refine hpool.keep ?_ [.deposited sender cid amount] ?_ ?_
    · rfl
    · rfl
    · exact List.forall_mem_singleton.mpr rfl
  | submitSettlement sender timestamp root providers bytesServed R =>
    rw [PersistencePool.execute, map_ok] at h
    obtain ⟨⟨id, t⟩, h, rfl⟩ := h
    obtain ⟨-, -, -, -, -, served, events, rfl, hrecorded⟩ :=
      PersistencePool.submitSettlement_ok _ _ _ _ _ _ _ _ _ h
    refine hpool.keep ?_
      (.settlementSubmitted id root R bytesServed.sum providers.length::events) ?_ ?_
    · rfl
    · rfl
    · refine List.forall_mem_cons.mpr ⟨rfl,fun ev hev => ?_⟩
      obtain ⟨p, b, r, rfl⟩ := hrecorded ev hev
      rfl
  | claim sender id =>
    rw [PersistencePool.execute, map_ok] at h
    obtain ⟨⟨amount, t⟩, h, rfl⟩ := h
    obtain ⟨-, -, -, token, -, rfl⟩ := PersistencePool.claim_ok _ _ _ _ _ h
    refine hpool.keep ?_ [.claimed id sender amount] ?_ ?_
    · rfl
    · rfl
    · exact List.forall_mem_singleton.mpr rfl
  | setCoordinator sender newCoordinator =>
    obtain ⟨-, hne, rfl⟩ := PersistencePool.setCoordinator_ok _ _ _ _ h
    constructor
    · have hchain : authority pool.events = some pool.coordinator := hpool.authority
      rw [authority] at hchain
      dsimp only
      rw [authority, List.foldl_append, hchain, List.foldl_cons, List.foldl_nil, handOver, if_pos rfl]
    · exact hne
  | tokenActivity ledger =>
    rw [PersistencePool.execute, require_ok, Except.ok.injEq] at h
    obtain ⟨-, rfl⟩ := h
    exact ⟨hpool.authority,hpool.nonzero⟩

theorem run_held (pool : PersistencePool.Pool T) (hpool : Held pool)
    (actions : List (PersistencePool.Action T)) : Held (run PersistencePool.next pool actions) :=
  run_invariant _ Held (fun s a hs => PersistencePool.next_of_execute Held s a hs
    (fun s' h => execute_held s s' a hs h)) pool actions hpool

theorem executeCalldata_sender (pool : PersistencePool.Pool T) (sender : Evm.Address)
    (timestamp : ℕ) (calldata : Bytes)
    (outcome : PersistencePool.SettlementId × PersistencePool.Pool T)
    (h : executeCalldata pool sender timestamp calldata = .ok outcome) :
    sender = pool.coordinator := by
  cases hcall : decodeSubmitSettlement calldata with
  | none =>
    rw [executeCalldata, hcall] at h
    cases h
  | some call =>
    have hsettled := (executeCalldata_ok pool sender timestamp calldata call hcall outcome).mp h
    exact (PersistencePool.submitSettlement_ok _ _ _ _ _ _ _ _ _ hsettled).1

theorem execute_out (old : Evm.Address) (pool pool' : PersistencePool.Pool T)
    (a : PersistencePool.Action T) (ha : ∀ sender, a ≠ .setCoordinator sender old)
    (hout : pool.coordinator ≠ old) (h : PersistencePool.execute pool a = .ok pool') :
    pool'.coordinator ≠ old := by
  cases a with
  | deposit sender cid amount =>
    obtain ⟨-, token, total, -, rfl⟩ := PersistencePool.deposit_ok _ _ _ _ _ h
    exact hout
  | submitSettlement sender timestamp root providers bytesServed R =>
    rw [PersistencePool.execute, map_ok] at h
    obtain ⟨⟨id, t⟩, h, rfl⟩ := h
    obtain ⟨-, -, -, -, -, served, events, rfl, -⟩ :=
      PersistencePool.submitSettlement_ok _ _ _ _ _ _ _ _ _ h
    exact hout
  | claim sender id =>
    rw [PersistencePool.execute, map_ok] at h
    obtain ⟨⟨amount, t⟩, h, rfl⟩ := h
    obtain ⟨-, -, -, token, -, rfl⟩ := PersistencePool.claim_ok _ _ _ _ _ h
    exact hout
  | setCoordinator sender newCoordinator =>
    obtain ⟨-, -, rfl⟩ := PersistencePool.setCoordinator_ok _ _ _ _ h
    intro hnamed
    exact ha sender (by rw [← hnamed])
  | tokenActivity ledger =>
    rw [PersistencePool.execute, require_ok, Except.ok.injEq] at h
    obtain ⟨-, rfl⟩ := h
    exact hout

theorem run_out (old : Evm.Address) (actions : List (PersistencePool.Action T))
    (hnot : ∀ sender, .setCoordinator sender old ∉ actions) (pool : PersistencePool.Pool T)
    (hout : pool.coordinator ≠ old) : (run PersistencePool.next pool actions).coordinator ≠ old := by
  induction actions generalizing pool with
  | nil => exact hout
  | cons a actions ih =>
    apply ih (fun sender hmem => hnot sender (List.mem_cons_of_mem a hmem))
    apply PersistencePool.next_of_execute (fun s => s.coordinator ≠ old) pool a hout
    intro pool' h
    apply execute_out old pool pool' a _ hout h
    rintro sender rfl
    exact hnot sender List.mem_cons_self

/-- In every run of the pool the log is an unbroken chain of rotations that ends with the
coordinator, and who can settle or rotate next is who it names. -/
theorem authority_passed (self : {a : Evm.Address // a ≠ 0}) (token : T.State)
    (rewardToken coordinator : Evm.Address) (deployed : PersistencePool.Pool T)
    (hdeploy : PersistencePool.deploy self token rewardToken coordinator = .ok deployed)
    (actions : List (PersistencePool.Action T)) :
    let pool := run PersistencePool.next deployed actions
    authority pool.events = some pool.coordinator ∧
    (∀ sender timestamp calldata outcome,
      executeCalldata pool sender timestamp calldata = .ok outcome →
      authority pool.events = some sender) ∧
    ∀ sender calldata pool', executeRotation pool sender calldata = .ok pool' →
      authority pool.events = some sender ∧
      ∃ b, decodeRotation calldata = some b ∧ authority pool'.events = some (evmAddress b) := by
  intro pool
  simp only [PersistencePool.deploy, guard_ok, Except.ok.injEq] at hdeploy
  obtain ⟨-, hne, rfl⟩ := hdeploy
  have hheld : Held pool := run_held _ (fresh_held self token coordinator hne) actions
  refine ⟨hheld.authority,?_,?_⟩
  · intro sender timestamp calldata outcome h
    rw [executeCalldata_sender pool sender timestamp calldata outcome h]
    exact hheld.authority
  · intro sender calldata pool' h
    obtain ⟨b, hb, hset⟩ := (executeRotation_ok pool pool' sender calldata).mp h
    have hheld' := execute_held pool pool' (.setCoordinator sender (evmAddress b)) hheld hset
    obtain ⟨rfl, -, rfl⟩ := PersistencePool.setCoordinator_ok _ _ _ _ hset
    exact ⟨hheld.authority,b,hb,hheld'.authority⟩

/-- Who has given the authority away can neither settle nor rotate, whatever happens to the
pool, as long as it is not named again. -/
theorem rotated_out (pool pool' : PersistencePool.Pool T) (old : Evm.Address) (a : Por.Address)
    (data : Bytes) (hdata : encodeSetCoordinator a = .ok data)
    (h : executeRotation pool old data = .ok pool') (hne : evmAddress a.val ≠ old)
    (actions : List (PersistencePool.Action T)) (hnot : ∀ sender, .setCoordinator sender old ∉ actions) :
    let later := run PersistencePool.next pool' actions
    (∀ timestamp calldata outcome, executeCalldata later old timestamp calldata ≠ .ok outcome) ∧
    ∀ calldata pool'', executeRotation later old calldata ≠ .ok pool'' := by
  intro later
  obtain rfl := (encodeSetCoordinator_ok a data).mp hdata
  obtain ⟨b, hb, hset⟩ := (executeRotation_ok pool pool' old _).mp h
  obtain rfl : a.val = b := Option.some.inj ((decodeRotation_encode a).symm.trans hb)
  obtain ⟨-, -, rfl⟩ := PersistencePool.setCoordinator_ok _ _ _ _ hset
  have hout : later.coordinator ≠ old := run_out old actions hnot _ hne
  constructor
  · intro timestamp calldata outcome hcall
    exact hout (executeCalldata_sender later old timestamp calldata outcome hcall).symm
  · intro calldata pool'' hcall
    obtain ⟨c, -, hset'⟩ := (executeRotation_ok later pool'' old calldata).mp hcall
    exact hout (PersistencePool.setCoordinator_ok _ _ _ _ hset').1.symm

end Authority

section OneRotation

theorem authority_passed_sample :
    let pool := run PersistencePool.next PersistencePool.samplePool [.setCoordinator 1 3,.deposit 2 7 40]
    authority pool.events = some pool.coordinator ∧
    (∀ sender timestamp calldata outcome,
      executeCalldata pool sender timestamp calldata = .ok outcome →
      authority pool.events = some sender) ∧
    ∀ sender calldata pool', executeRotation pool sender calldata = .ok pool' →
      authority pool.events = some sender ∧
      ∃ b, decodeRotation calldata = some b ∧ authority pool'.events = some (evmAddress b) :=
  authority_passed ⟨0x100,by decide⟩ PersistencePool.fundedLedger 2 1 PersistencePool.samplePool rfl _

def successor : Por.Address := ⟨List.replicate 19 0++[3],rfl⟩

def handedOver : PersistencePool.Pool ledgerToken :=
  { PersistencePool.samplePool with
    coordinator := evmAddress successor.val
    events := PersistencePool.samplePool.events++[.coordinatorUpdated 1 (evmAddress successor.val)] }

theorem handedOver_executed :
    executeRotation PersistencePool.samplePool 1 (setCoordinatorSelector++padAddress successor) =
      .ok handedOver :=
  (executeRotation_ok _ _ _ _).mpr ⟨successor.val,decodeRotation_encode successor,rfl⟩

theorem rotated_out_once :
    let later := run PersistencePool.next handedOver [.deposit 2 7 40]
    (∀ timestamp calldata outcome, executeCalldata later 1 timestamp calldata ≠ .ok outcome) ∧
    ∀ calldata pool'', executeRotation later 1 calldata ≠ .ok pool'' :=
  rotated_out PersistencePool.samplePool handedOver 1 successor _ rfl handedOver_executed (by decide) _
    (by simp)

end OneRotation

end Aevia.Coordinator
