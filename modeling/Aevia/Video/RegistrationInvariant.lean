import Aevia.Foundation.Run
import Aevia.Video.Registration

/-!
# What every registration request has passed

A request that is past a check has passed it, on what it read at the time. A
step of a request writes a transaction, a live input or a count in one phase
each, and is silent about the rest.
-/

set_option autoImplicit false

namespace Aevia.Lives
open Aevia.Bytes Aevia.Fallible Aevia.Run

section Checks

/-- No other manifest was recorded in what the request has read. -/
def Agrees (live : LiveInput) (manifestCid : Bytes) : Prop := conflicting live manifestCid = false

theorem agrees_iff (live : LiveInput) (manifestCid : Bytes) :
    Agrees live manifestCid ↔ live.manifestCid = [] ∨ live.manifestCid = manifestCid := by
  rw [Agrees, conflicting, decide_eq_false_iff_not]
  tauto

def Phase.Passed (request : RelayedRequest) : Phase → Prop
  | .received => True
  | .authorised live => Agrees live request.manifestCid
  | .budgeted live used => Agrees live request.manifestCid ∧ used < maxFreeRegistrationsPerOwner
  | .verified live used => Agrees live request.manifestCid ∧ used < maxFreeRegistrationsPerOwner
  | .submitted live _ _ _ => Agrees live request.manifestCid
  | .confirmed live _ _ _ => Agrees live request.manifestCid
  | .counted live _ _ _ => Agrees live request.manifestCid
  | .answered _ => True

structure RelayedCall.Passed (r : RelayedCall) : Prop where
  named : r.request.manifestCid ≠ []
  passed : r.phase.Passed r.request

def RegisterPhase.Passed : RegisterPhase → Prop
  | .checked live registration =>
    registration.manifestCid ≠ [] ∧ Agrees live registration.manifestCid
  | _ => True

theorem receiveRelayed_passed (relay : Relay) (session : Option Bytes) (id : Bytes)
    (body : Option RelayedBody) (r : RelayedCall) (h : receiveRelayed relay session id body = .ok r) :
    r.Passed := by
  cases session with
  | none => cases h
  | some session =>
    simp only [receiveRelayed, guard_ok] at h
    obtain ⟨-, h⟩ := h
    cases hbody : parseBody body with
    | error error =>
      rw [hbody] at h
      cases h
    | ok request =>
      simp only [hbody, guard_ok, Except.ok.injEq] at h
      obtain ⟨-, rfl⟩ := h
      exact ⟨parseBody_manifestCid body request hbody,trivial⟩

theorem authorise_passed (r : RelayedCall) (answer : Option LiveInput) :
    (authorise r answer).Passed r.request := by
  fun_cases authorise
  case case4 live howned hconflict => exact Bool.eq_false_of_not_eq_true hconflict
  all_goals trivial

theorem checkBudget_passed (request : RelayedRequest) (live : LiveInput) (used : ℕ)
    (h : Agrees live request.manifestCid) : (checkBudget live used).Passed request := by
  unfold checkBudget
  by_cases hused : maxFreeRegistrationsPerOwner ≤ used
  · rw [if_pos hused]
    trivial
  · rw [if_neg hused]
    exact ⟨h,Nat.lt_of_not_le hused⟩

theorem verifySignature_passed (relay : Relay) (s : World) (r : RelayedCall) (live : LiveInput)
    (used : ℕ) (nonceRead : Except Bytes Unit) (ownerHasCode : Bool)
    (h : (Phase.budgeted live used).Passed r.request) :
    (verifySignature relay s r live used nonceRead ownerHasCode).Passed r.request := by
  fun_cases verifySignature
  all_goals first
    | exact h
    | trivial

theorem awaitReceipt_passed (request : RelayedRequest) (live : LiveInput) (used : ℕ)
    (txHash : Bytes) (status : TxStatus) (phase : Phase) (h : Agrees live request.manifestCid)
    (hphase : awaitReceipt live used txHash status = some phase) : phase.Passed request := by
  cases status with
  | mined block =>
    cases hphase
    exact h
  | reverted block =>
    cases hphase
    trivial
  | pending => cases hphase
  | dropped => cases hphase

theorem receiveRegister_passed (session : Option Bytes) (id : Bytes) (body : Option RegisterBody)
    (r : RegisterCall) (h : receiveRegister session id body = .ok r) : r.phase.Passed := by
  cases session with
  | none => cases h
  | some session =>
    cases h
    trivial

theorem checkRegister_passed (r : RegisterCall) (answer : Option LiveInput) :
    (checkRegister r answer).Passed := by
  fun_cases checkRegister
  case case6 live howned body hbody registration hregistration hconflict =>
    exact ⟨normaliseRegistrationMeta_manifestCid body registration hregistration,
      Bool.eq_false_of_not_eq_true hconflict⟩
  all_goals trivial

end Checks

section RelayedSteps
variable (relay : Relay) (s : World) (i : ℕ) (r : RelayedCall) (step : RelayedStep)

/-- What a step of a request can do: nothing, move the request on, and with it send the
transaction, count the registration or write the live input. -/
inductive RelayedMoves : World → Prop where
  | refused : RelayedMoves s
  | proceeds (phase : Phase) (h : r.Passed → phase.Passed r.request) :
      RelayedMoves (s.proceed i r phase)
  | sends (live : LiveInput) (used : ℕ) (txHash : Bytes) (hphase : r.phase = .verified live used)
      (hstep : step = .writeContract (.ok txHash)) (hwhole : r.request.policyFlags.den = 1) :
      RelayedMoves ((s.send r txHash).proceed i r (.submitted live used s.txs.length txHash))
  | counts (live : LiveInput) (used block : ℕ) (txHash : Bytes)
      (hphase : r.phase = .confirmed live used block txHash) :
      RelayedMoves ((incrementCount s r.request.owner (used+1)).proceed i r
        (.counted live (used+1) block txHash))
  | persists (live : LiveInput) (nextCount block : ℕ) (txHash : Bytes)
      (hphase : r.phase = .counted live nextCount block txHash) (hstep : step = .persist true) :
      RelayedMoves ((s.persist r.id (relayedMeta r block txHash)).proceed i r
        (.answered (relayedResponse r.request.manifestCid txHash block nextCount)))

theorem relayedStep_moves : RelayedMoves s i r step (relayedStep relay s i r step) := by
  fun_cases relayedStep
  case case1 => exact .proceeds _ (fun _ => authorise_passed r _)
  case case2 live hphase =>
    refine .proceeds _ (fun hr => checkBudget_passed r.request live _ ?_)
    have hpassed := hr.passed
    rwa [hphase] at hpassed
  case case3 live used nonceRead ownerHasCode hphase =>
    refine .proceeds _ (fun hr => verifySignature_passed relay s r live used nonceRead _ ?_)
    have hpassed := hr.passed
    rwa [hphase] at hpassed
  case case4 => exact .proceeds _ (fun _ => trivial)
  case case5 live used txHash hphase hwhole => exact .sends live used txHash hphase rfl hwhole
  case case7 => exact .proceeds _ (fun _ => trivial)
  case case9 live used tx txHash hphase phase hreceipt =>
    refine .proceeds phase (fun hr => ?_)
    have hpassed := hr.passed
    rw [hphase] at hpassed
    obtain ⟨t, -, ht⟩ := Option.bind_eq_some_iff.mp hreceipt
    exact awaitReceipt_passed r.request live used txHash t.status phase hpassed ht
  case case10 live used block txHash hphase => exact .counts live used block txHash hphase
  case case11 live nextCount block txHash stored hphase =>
    cases stored with
    | false => exact .proceeds _ (fun _ => trivial)
    | true => exact .persists live nextCount block txHash hphase rfl
  all_goals exact .refused

theorem relayedStep_relayed (hr : r.Passed) :
    (relayedStep relay s i r step).relayed = s.relayed ∨
      ∃ phase : Phase, phase.Passed r.request ∧
        (relayedStep relay s i r step).relayed = s.relayed.set i { r with phase := phase } := by
  have hpassed := hr.passed
  have hmoves := relayedStep_moves relay s i r step
  generalize relayedStep relay s i r step = s' at hmoves ⊢
  cases hmoves with
  | refused => exact .inl rfl
  | proceeds phase h => exact .inr ⟨phase,h hr,rfl⟩
  | sends live used txHash hphase =>
    rw [hphase] at hpassed
    exact .inr ⟨.submitted live used s.txs.length txHash,hpassed.1,rfl⟩
  | counts live used block txHash hphase =>
    rw [hphase] at hpassed
    exact .inr ⟨.counted live (used+1) block txHash,hpassed,rfl⟩
  | persists live nextCount block txHash hphase =>
    exact .inr ⟨.answered (relayedResponse r.request.manifestCid txHash block nextCount),trivial,rfl⟩

theorem relayedStep_registers : (relayedStep relay s i r step).registers = s.registers := by
  have hmoves := relayedStep_moves relay s i r step
  generalize relayedStep relay s i r step = s' at hmoves ⊢
  cases hmoves <;> rfl

theorem relayedStep_txs :
    (relayedStep relay s i r step).txs = s.txs ∨
      ∃ live used txHash, r.phase = .verified live used ∧ step = .writeContract (.ok txHash) ∧
        r.request.policyFlags.den = 1 ∧
        (relayedStep relay s i r step).txs = s.txs++[⟨r.id,r.request,txHash,.pending⟩] := by
  have hmoves := relayedStep_moves relay s i r step
  generalize relayedStep relay s i r step = s' at hmoves ⊢
  cases hmoves with
  | sends live used txHash hphase hstep hwhole =>
    exact .inr ⟨live,used,txHash,hphase,hstep,hwhole,rfl⟩
  | _ => exact .inl rfl

theorem relayedStep_lives :
    (relayedStep relay s i r step).lives = s.lives ∨
      ∃ live nextCount block txHash, r.phase = .counted live nextCount block txHash ∧
        step = .persist true ∧
        (relayedStep relay s i r step).lives = (s.persist r.id (relayedMeta r block txHash)).lives := by
  have hmoves := relayedStep_moves relay s i r step
  generalize relayedStep relay s i r step = s' at hmoves ⊢
  cases hmoves with
  | persists live nextCount block txHash hphase hstep =>
    exact .inr ⟨live,nextCount,block,txHash,hphase,hstep,rfl⟩
  | _ => exact .inl rfl

end RelayedSteps

section RegisterSteps
variable (s : World) (i : ℕ) (r : RegisterCall) (step : RegisterStep)

inductive RegisterMoves : World → Prop where
  | refused : RegisterMoves s
  | proceeds (phase : RegisterPhase) (h : phase.Passed) :
      RegisterMoves (s.proceedRegister i r phase)
  | persists (live : LiveInput) (registration : RegistrationMeta)
      (hphase : r.phase = .checked live registration) (hstep : step = .persist none) :
      RegisterMoves ((s.persist r.id registration).proceedRegister i r
        (.answered (registerResponse registration)))

theorem registerStep_moves : RegisterMoves s i r step (registerStep s i r step) := by
  fun_cases registerStep
  case case1 => exact .proceeds _ (checkRegister_passed r _)
  case case2 live registration hphase => exact .persists live registration hphase rfl
  case case3 => exact .proceeds _ trivial
  all_goals exact .refused

theorem registerStep_registers :
    (registerStep s i r step).registers = s.registers ∨
      ∃ phase : RegisterPhase, phase.Passed ∧
        (registerStep s i r step).registers = s.registers.set i { r with phase := phase } := by
  have hmoves := registerStep_moves s i r step
  generalize registerStep s i r step = s' at hmoves ⊢
  cases hmoves with
  | refused => exact .inl rfl
  | proceeds phase h => exact .inr ⟨phase,h,rfl⟩
  | persists => exact .inr ⟨.answered _,trivial,rfl⟩

theorem registerStep_relayed : (registerStep s i r step).relayed = s.relayed := by
  have hmoves := registerStep_moves s i r step
  generalize registerStep s i r step = s' at hmoves ⊢
  cases hmoves <;> rfl

theorem registerStep_txs : (registerStep s i r step).txs = s.txs := by
  have hmoves := registerStep_moves s i r step
  generalize registerStep s i r step = s' at hmoves ⊢
  cases hmoves <;> rfl

theorem registerStep_lives :
    (registerStep s i r step).lives = s.lives ∨
      ∃ live registration, r.phase = .checked live registration ∧ step = .persist none ∧
        (registerStep s i r step).lives = (s.persist r.id registration).lives := by
  have hmoves := registerStep_moves s i r step
  generalize registerStep s i r step = s' at hmoves ⊢
  cases hmoves with
  | persists live registration hphase hstep => exact .inr ⟨live,registration,hphase,hstep,rfl⟩
  | _ => exact .inl rfl

end RegisterSteps

section ChainSteps
variable (s : World) (i : ℕ) (t : Tx) (block : ℕ) (call : ContentRegistry.Call)

theorem mine_settles : ∃ status registry,
    mine s i t block call = { s.settle i t status with registry := registry } := by
  unfold mine
  cases ContentRegistry.registerContent s.registry call with
  | ok registry => exact ⟨.mined block,registry,rfl⟩
  | error e => exact ⟨.reverted block,s.registry,rfl⟩

theorem mine_txs : ∃ status, (mine s i t block call).txs = s.txs.set i { t with status := status } := by
  obtain ⟨status, registry, h⟩ := mine_settles s i t block call
  rw [h]
  exact ⟨status,rfl⟩

theorem mine_relayed : (mine s i t block call).relayed = s.relayed := by
  obtain ⟨status, registry, h⟩ := mine_settles s i t block call
  rw [h]
  rfl

theorem mine_registers : (mine s i t block call).registers = s.registers := by
  obtain ⟨status, registry, h⟩ := mine_settles s i t block call
  rw [h]
  rfl

theorem mine_lives : (mine s i t block call).lives = s.lives := by
  obtain ⟨status, registry, h⟩ := mine_settles s i t block call
  rw [h]
  rfl

end ChainSteps

section Worlds
variable (relay : Relay)

def TxStatus.isMined : TxStatus → Bool
  | .mined _ => true
  | _ => false

def TxStatus.mayBeMined : TxStatus → Bool
  | .mined _ => true
  | .pending => true
  | _ => false

theorem isMined_mayBeMined (status : TxStatus) (h : status.isMined = true) :
    status.mayBeMined = true := by
  cases status with
  | mined block => rfl
  | _ => cases h

/-- A request that sends a transaction, with what it has read of its live input
and of the count. -/
structure Sending where
  r : RelayedCall
  live : LiveInput
  used : ℕ
  t : Tx

def sending (s : World) : Event → Option Sending
  | .relayed i (.writeContract (.ok txHash)) => (s.relayed[i]?).bind (fun r => match r.phase with
    | .verified live used =>
      if r.request.policyFlags.den = 1 then some ⟨r,live,used,⟨r.id,r.request,txHash,.pending⟩⟩
      else none
    | _ => none)
  | _ => none

structure Writing where
  id : Bytes
  live : LiveInput
  registration : RegistrationMeta

def writing (s : World) : Event → Option Writing
  | .relayed i (.persist true) => (s.relayed[i]?).bind (fun r => match r.phase with
    | .counted live _ block txHash => some ⟨r.id,live,relayedMeta r block txHash⟩
    | _ => none)
  | .register i (.persist none) => (s.registers[i]?).bind (fun r => match r.phase with
    | .checked live registration => some ⟨r.id,live,registration⟩
    | _ => none)
  | _ => none

/-- What an event can do: it is refused, a request arrives or takes a step, a pending
transaction is settled, or others call the registry. -/
inductive Moves (s : World) : Event → World → Prop where
  | refused (e : Event) : Moves s e s
  | relayedArrived (session : Option Bytes) (id : Bytes) (body : Option RelayedBody)
      (r : RelayedCall) (h : receiveRelayed relay session id body = .ok r) :
      Moves s (.relayedArrives session id body) { s with relayed := s.relayed++[r] }
  | relayed (i : ℕ) (step : RelayedStep) (r : RelayedCall) (h : s.relayed[i]? = some r) :
      Moves s (.relayed i step) (relayedStep relay s i r step)
  | registerArrived (session : Option Bytes) (id : Bytes) (body : Option RegisterBody)
      (r : RegisterCall) (h : receiveRegister session id body = .ok r) :
      Moves s (.registerArrives session id body) { s with registers := s.registers++[r] }
  | register (i : ℕ) (step : RegisterStep) (r : RegisterCall) (h : s.registers[i]? = some r) :
      Moves s (.register i step) (registerStep s i r step)
  | mined (tx block : ℕ) (timestamp : BitVec 256)
      (isValidSignatureNow : (signer : Evm.Address) → (digest signature : Bytes) → Bool) (t : Tx)
      (h : s.pendingTx tx = some t) : Moves s (.mined tx block timestamp isValidSignatureNow)
        (mine s tx t block (t.call relay timestamp isValidSignatureNow))
  | dropped (tx : ℕ) (t : Tx) (h : s.pendingTx tx = some t) :
      Moves s (.dropped tx) (s.settle tx t .dropped)
  | registryCalled (call : ContentRegistry.Call) : Moves s (.registryCalled call)
      { s with registry := ContentRegistry.next s.registry call }

theorem next_moves (s : World) (e : Event) : Moves relay s e (next relay s e) := by
  cases e with
  | relayedArrives session id body =>
    apply committed (Moves relay s _) _ _ (.refused _)
    intro w hw
    obtain ⟨r, hr, rfl⟩ := (map_ok _ _ _).mp hw
    exact .relayedArrived session id body r hr
  | relayed i step => exact attempted (Moves relay s _) _ _ _ (.refused _) (.relayed i step)
  | registerArrives session id body =>
    apply committed (Moves relay s _) _ _ (.refused _)
    intro w hw
    obtain ⟨r, hr, rfl⟩ := (map_ok _ _ _).mp hw
    exact .registerArrived session id body r hr
  | register i step => exact attempted (Moves relay s _) _ _ _ (.refused _) (.register i step)
  | mined tx block timestamp isValidSignatureNow =>
    exact attempted (Moves relay s _) _ _ _ (.refused _)
      (.mined tx block timestamp isValidSignatureNow)
  | dropped tx => exact attempted (Moves relay s _) _ _ _ (.refused _) (.dropped tx)
  | registryCalled call => exact .registryCalled call

theorem next_txs (s : World) (e : Event) :
    (next relay s e).txs = s.txs ∨
    (∃ x, sending s e = some x ∧ (next relay s e).txs = s.txs++[x.t]) ∨
    ∃ i t status, s.pendingTx i = some t ∧
      (next relay s e).txs = s.txs.set i { t with status := status } := by
  have hmoves := next_moves relay s e
  generalize next relay s e = s' at hmoves ⊢
  cases hmoves with
  | relayed i step r hr =>
    rcases relayedStep_txs relay s i r step with hsame | ⟨live, used, txHash, hphase, rfl, hwhole, hsend⟩
    · exact .inl hsame
    · right
      left
      refine ⟨⟨r,live,used,_⟩, ?_, hsend⟩
      simp only [sending, hr, Option.bind_some, hphase, hwhole, if_true]
  | register i step r hr => exact .inl (registerStep_txs s i r step)
  | mined tx block timestamp isValidSignatureNow t ht =>
    obtain ⟨status, htxs⟩ := mine_txs s tx t block (t.call relay timestamp isValidSignatureNow)
    exact .inr (.inr ⟨tx,t,status,ht,htxs⟩)
  | dropped tx t ht => exact .inr (.inr ⟨tx,t,.dropped,ht,rfl⟩)
  | _ => exact .inl rfl

theorem next_lives (s : World) (e : Event) :
    (next relay s e).lives = s.lives ∨
    ∃ x, writing s e = some x ∧ (next relay s e).lives = (s.persist x.id x.registration).lives := by
  have hmoves := next_moves relay s e
  generalize next relay s e = s' at hmoves ⊢
  cases hmoves with
  | relayed i step r hr =>
    rcases relayedStep_lives relay s i r step with
      hsame | ⟨live, nextCount, block, txHash, hphase, rfl, hwrite⟩
    · exact .inl hsame
    · right
      refine ⟨⟨r.id,live,relayedMeta r block txHash⟩, ?_, hwrite⟩
      simp only [writing, hr, Option.bind_some, hphase]
  | register i step r hr =>
    rcases registerStep_lives s i r step with hsame | ⟨live, registration, hphase, rfl, hwrite⟩
    · exact .inl hsame
    · right
      refine ⟨⟨r.id,live,registration⟩, ?_, hwrite⟩
      simp only [writing, hr, Option.bind_some, hphase]
  | mined tx block timestamp isValidSignatureNow t ht => exact .inl (mine_lives s tx t block _)
  | _ => exact .inl rfl

/-- Everything there is has passed what it is past. -/
structure Sound (s : World) : Prop where
  relayed : ∀ r ∈ s.relayed, r.Passed
  registers : ∀ r ∈ s.registers, r.phase.Passed
  txs : ∀ t ∈ s.txs, t.request.manifestCid ≠ []

theorem start_sound (lives : Bytes → Option LiveInput) (registry : ContentRegistry.Registry) :
    Sound (World.start lives registry) where
  relayed := fun _ h => nomatch h
  registers := fun _ h => nomatch h
  txs := fun _ h => nomatch h

theorem sending_passed (s : World) (e : Event) (x : Sending) (hs : Sound s)
    (h : sending s e = some x) :
    x.r.request.manifestCid ≠ [] ∧ Agrees x.live x.r.request.manifestCid ∧
      x.used < maxFreeRegistrationsPerOwner ∧ x.t.request = x.r.request ∧ x.t.id = x.r.id := by
  unfold sending at h
  split at h
  case h_1 i txHash =>
    obtain ⟨r, hr, hsome⟩ := Option.bind_eq_some_iff.mp h
    have hpassed := hs.relayed r (List.mem_of_getElem? hr)
    have hchecks := hpassed.passed
    split at hsome
    case h_1 live used hphase =>
      rw [hphase] at hchecks
      obtain ⟨-, hsome⟩ := Option.ite_none_right_eq_some.mp hsome
      cases hsome
      exact ⟨hpassed.named,hchecks.1,hchecks.2,rfl,rfl⟩
    case h_2 => cases hsome
  case h_2 => cases h

theorem writing_passed (s : World) (e : Event) (x : Writing) (hs : Sound s)
    (h : writing s e = some x) :
    x.registration.manifestCid ≠ [] ∧ Agrees x.live x.registration.manifestCid := by
  unfold writing at h
  split at h
  case h_1 i =>
    obtain ⟨r, hr, hsome⟩ := Option.bind_eq_some_iff.mp h
    have hpassed := hs.relayed r (List.mem_of_getElem? hr)
    have hchecks := hpassed.passed
    split at hsome
    case h_1 live nextCount block txHash hphase =>
      rw [hphase] at hchecks
      cases hsome
      exact ⟨hpassed.named,hchecks⟩
    case h_2 => cases hsome
  case h_2 i =>
    obtain ⟨r, hr, hsome⟩ := Option.bind_eq_some_iff.mp h
    have hpassed := hs.registers r (List.mem_of_getElem? hr)
    split at hsome
    case h_1 live registration hphase =>
      rw [hphase] at hpassed
      cases hsome
      exact hpassed
    case h_2 => cases hsome
  case h_3 => cases h

theorem next_relayed (s : World) (e : Event) (hs : Sound s) :
    ∀ r ∈ (next relay s e).relayed, r.Passed := by
  have hmoves := next_moves relay s e
  generalize next relay s e = s' at hmoves ⊢
  cases hmoves with
  | relayedArrived session id body r hr =>
    rw [List.forall_mem_append]
    exact ⟨hs.relayed,List.forall_mem_singleton.mpr (receiveRelayed_passed relay session id body r hr)⟩
  | relayed i step r hr =>
    have hpassed : r.Passed := hs.relayed r (List.mem_of_getElem? hr)
    rcases relayedStep_relayed relay s i r step hpassed with hsame | ⟨phase, hphase, hset⟩
    · rw [hsame]
      exact hs.relayed
    · rw [hset]
      exact forall_mem_set _ _ _ _ hs.relayed ⟨hpassed.named,hphase⟩
  | register i step r hr =>
    rw [registerStep_relayed]
    exact hs.relayed
  | mined tx block timestamp isValidSignatureNow t ht =>
    rw [mine_relayed]
    exact hs.relayed
  | _ => exact hs.relayed

theorem next_registers (s : World) (e : Event) (hs : Sound s) :
    ∀ r ∈ (next relay s e).registers, r.phase.Passed := by
  have hmoves := next_moves relay s e
  generalize next relay s e = s' at hmoves ⊢
  cases hmoves with
  | registerArrived session id body r hr =>
    rw [List.forall_mem_append]
    exact ⟨hs.registers,List.forall_mem_singleton.mpr (receiveRegister_passed session id body r hr)⟩
  | relayed i step r hr =>
    rw [relayedStep_registers]
    exact hs.registers
  | register i step r hr =>
    rcases registerStep_registers s i r step with hsame | ⟨phase, hphase, hset⟩
    · rw [hsame]
      exact hs.registers
    · rw [hset]
      exact forall_mem_set _ _ _ _ hs.registers hphase
  | mined tx block timestamp isValidSignatureNow t ht =>
    rw [mine_registers]
    exact hs.registers
  | _ => exact hs.registers

theorem pendingTx_some (s : World) (i : ℕ) (t : Tx) :
    s.pendingTx i = some t ↔ s.txs[i]? = some t ∧ t.status = .pending := by
  rw [World.pendingTx, Option.filter_eq_some_iff, decide_eq_true_eq]

theorem next_sound (s : World) (e : Event) (hs : Sound s) : Sound (next relay s e) := by
  refine ⟨next_relayed relay s e hs, next_registers relay s e hs, ?_⟩
  rcases next_txs relay s e with hsame | ⟨x, hsending, hsend⟩ | ⟨i, t, status, ht, hset⟩
  · rw [hsame]
    exact hs.txs
  · rw [hsend]
    obtain ⟨hnamed, -, -, hrequest, -⟩ := sending_passed s e x hs hsending
    rw [List.forall_mem_append]
    refine ⟨hs.txs, List.forall_mem_singleton.mpr ?_⟩
    rw [hrequest]
    exact hnamed
  · rw [hset]
    apply forall_mem_set (fun t : Tx => t.request.manifestCid ≠ []) _ _ _ hs.txs
    exact hs.txs t (List.mem_of_getElem? ((pendingTx_some s i t).mp ht).1)

theorem run_sound (s : World) (events : List Event) (hs : Sound s) :
    Sound (run (next relay) s events) :=
  run_invariant (next relay) Sound (next_sound relay) s events hs

end Worlds

section Samples

def sampleOwner : Bytes := ascii "0x"++hexEncode (bigEndian 20 0xa1)

def sampleManifestCid (n : ℕ) : Bytes := ascii "0x"++hexEncode (bigEndian 32 (n+1))

def sampleRelay : Relay where
  configured := true
  chainId := 84532
  signatureBytes := fun _ => []
  verifyTypedData := fun _ _ _ _ => .ok false

def sampleLives : Bytes → Option LiveInput := fun _ =>
  some ⟨some (object [(keyCreatorAddress, sampleOwner)]),none,[]⟩

def sampleWorld : World := World.start sampleLives (ContentRegistry.deploy 3 84532)

def sampleBody (n : ℕ) : RelayedBody where
  owner := some sampleOwner
  manifestCid := some (sampleManifestCid n)
  parentCid := some (ascii "0x"++hexEncode (bigEndian 32 0))
  policyFlags := some 0
  signature := some (ascii "0x"++hexEncode (bigEndian 65 0))

def reads (n : ℕ) (id : Bytes) : List Event :=
  [.relayedArrives (some sampleOwner) id (some (sampleBody n)), .relayed n (.getLiveInput true)]

def sends (n : ℕ) : List Event :=
  [.relayed n .readCount, .relayed n (.verify (.ok ()) true),
    .relayed n (.writeContract (.ok (sampleManifestCid n)))]

def isMinedNow (n : ℕ) : Event := .mined n n 0 (fun _ _ _ => true)

def finishes (n : ℕ) : List Event :=
  [isMinedNow n, .relayed n (.waitForReceipt none), .relayed n .incrementCount,
    .relayed n (.persist true)]

end Samples

end Aevia.Lives
