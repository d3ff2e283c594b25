import Aevia.Video.RegistrationRequests

/-!
# The two routes that register a live input

Requests move on one await at a time, in any order, while transactions are mined
or dropped. `/register` records what its caller has done; `/register-relayed`
sends the transaction itself and waits for it only so long.
-/

set_option autoImplicit false

namespace Aevia.Lives
open Aevia.Bytes Aevia.Evm Aevia.Fallible

def maxFreeRegistrationsPerOwner : ℕ := 10

/-- `KV_KEY`. -/
def countKey (owner : Bytes) : Bytes := ascii "owner:"++toLowerCase owner

structure Relay where
  configured : Bool
  chainId : BitVec 256
  signatureBytes : Bytes → Bytes
  verifyTypedData : RelayedRequest → (chainId : BitVec 256) → (verifyingContract : Address) →
    (nonce : BitVec 256) → Except Bytes Bool

inductive TxStatus where
  | pending
  | mined (block : ℕ)
  | reverted (block : ℕ)
  | dropped
  deriving DecidableEq

structure Tx where
  id : Bytes
  request : RelayedRequest
  txHash : Bytes
  status : TxStatus

inductive Phase where
  | received
  | authorised (live : LiveInput)
  | budgeted (live : LiveInput) (used : ℕ)
  | verified (live : LiveInput) (used : ℕ)
  | submitted (live : LiveInput) (used tx : ℕ) (txHash : Bytes)
  | confirmed (live : LiveInput) (used block : ℕ) (txHash : Bytes)
  | counted (live : LiveInput) (nextCount block : ℕ) (txHash : Bytes)
  | answered (response : Response)

structure RelayedCall where
  session : Bytes
  id : Bytes
  request : RelayedRequest
  phase : Phase

inductive RegisterPhase where
  | received
  | checked (live : LiveInput) (registration : RegistrationMeta)
  | answered (response : Response)

structure RegisterCall where
  session : Bytes
  id : Bytes
  body : Option RegisterBody
  phase : RegisterPhase

structure World where
  lives : Bytes → Option LiveInput
  counts : Bytes → Option Bytes
  registry : ContentRegistry.Registry
  txs : List Tx
  relayed : List RelayedCall
  registers : List RegisterCall

def World.start (lives : Bytes → Option LiveInput) (registry : ContentRegistry.Registry) : World where
  lives := lives
  counts := fun _ => none
  registry := registry
  txs := []
  relayed := []
  registers := []

section Relayed
variable (relay : Relay)

/-- What needs no answer from outside: session, configuration, body and wallet. -/
def receiveRelayed (session : Option Bytes) (id : Bytes) (body : Option RelayedBody) :
    Except Response RelayedCall :=
  match session with
  | none => .error unauthorized
  | some session =>
    if relay.configured = false then .error (failure 500 (ascii "relayer_not_configured") [])
    else match parseBody body with
      | .error error => .error (failure 400 error [])
      | .ok request =>
        if request.owner ≠ toLowerCase session then .error forbidden
        else .ok ⟨session,id,request,.received⟩

def authorise (r : RelayedCall) (answer : Option LiveInput) : Phase :=
  match answer with
  | none => .answered forbidden
  | some live =>
    if owned live r.session = false then .answered forbidden
    else if conflicting live r.request.manifestCid then .answered manifestAlreadySet
    else .authorised live

/-- Only decimal digits are ever stored. -/
def readCount (s : World) (owner : Bytes) : ℕ :=
  match s.counts (countKey owner) with
  | none => 0
  | some raw => if raw ≠ [] ∧ raw.all isDigit then ofDecimal raw else 0

def incrementCount (s : World) (owner : Bytes) (nextCount : ℕ) : World :=
  { s with counts := Function.update s.counts (countKey owner) (some (decimal nextCount)) }

def number (n : ℕ) : Json := .num (decimal n)

def sponsorshipCapExceeded (used : ℕ) : Response :=
  failure 402 (ascii "sponsorship_cap_exceeded")
    [(ascii "limit", number maxFreeRegistrationsPerOwner), (ascii "used", number used)]

def checkBudget (live : LiveInput) (used : ℕ) : Phase :=
  if maxFreeRegistrationsPerOwner ≤ used then .answered (sponsorshipCapExceeded used)
  else .budgeted live used

def submissionFailed (reason : Bytes) (more : List (Bytes × Json)) : Response :=
  failure 502 (ascii "relayer_submission_failed") ((ascii "reason", .str reason)::more)

/-- Owners with code are left to the registry. -/
def verifySignature (s : World) (r : RelayedCall) (live : LiveInput) (used : ℕ)
    (nonceRead : Except Bytes Unit) (ownerHasCode : Bool) : Phase :=
  match nonceRead with
  | .error reason => .answered (submissionFailed reason [])
  | .ok () =>
    let nonce := s.registry.nonces (BitVec.ofNat 160 (hexNumber r.request.owner))
    if ownerHasCode then .verified live used
    else match relay.verifyTypedData r.request relay.chainId s.registry.self nonce with
      | .error reason => .answered (failure 400 (ascii "signature_invalid") [(ascii "reason", .str reason)])
      | .ok false => .answered (failure 400 (ascii "signature_invalid") [])
      | .ok true => .verified live used

def mentions (text word : Bytes) : Bool := toLowerCase word <:+: toLowerCase text

def writeFailed (message : Bytes) : Response :=
  if mentions message (ascii "AlreadyRegistered") then failure 409 (ascii "already_registered") []
  else submissionFailed message []

def isTimeout (message : Bytes) : Bool :=
  mentions message (ascii "timeout") ∨ mentions message (ascii "timedout") ∨
    mentions message (ascii "time out") ∨ mentions message (ascii "timed out")

def waitFailed (message txHash : Bytes) : Response :=
  if isTimeout message then
    failure 504 (ascii "relayer_timeout") [(ascii "reason", .str message), (ascii "txHash", .str txHash)]
  else submissionFailed message [(ascii "txHash", .str txHash)]

/-- A transaction that is neither mined nor reverted has no receipt. -/
def awaitReceipt (live : LiveInput) (used : ℕ) (txHash : Bytes) : TxStatus → Option Phase
  | .mined block => some (.confirmed live used block txHash)
  | .reverted block => some (.answered (submissionFailed
      (ascii "reverted at block "++decimal block) [(ascii "txHash", .str txHash)]))
  | .pending => none
  | .dropped => none

def relayedResponse (manifestCid txHash : Bytes) (block nextCount : ℕ) : Response :=
  ⟨200,[(ascii "ok", .bool true), (ascii "manifestCid", .str manifestCid),
    (ascii "txHash", .str txHash), (ascii "block", number block), (ascii "sponsored", .bool true),
    (ascii "remaining", number (maxFreeRegistrationsPerOwner-nextCount))]⟩

inductive RelayedStep where
  | getLiveInput (answered : Bool)
  | readCount
  | verify (nonceRead : Except Bytes Unit) (ownerHasCode : Bool)
  | writeContract (answer : Except Bytes Bytes)
  | waitForReceipt (failed : Option Bytes)
  | incrementCount
  | persist (stored : Bool)

def World.proceed (s : World) (i : ℕ) (r : RelayedCall) (phase : Phase) : World :=
  { s with relayed := s.relayed.set i { r with phase := phase } }

def World.send (s : World) (r : RelayedCall) (txHash : Bytes) : World :=
  { s with txs := s.txs++[⟨r.id,r.request,txHash,.pending⟩] }

def relayedMeta (r : RelayedCall) (block : ℕ) (txHash : Bytes) : RegistrationMeta :=
  ⟨r.request.manifestCid,txHash,decimal block,true⟩

/-- The meta write; a live input that is gone is not written. -/
def World.persist (s : World) (id : Bytes) (registration : RegistrationMeta) : World :=
  { s with
    lives := Function.update s.lives id
      ((s.lives id).map (fun live => persistRegistrationMeta live registration)) }

/-- One await of a request. The library sends no call with a fraction in it. -/
def relayedStep (s : World) (i : ℕ) (r : RelayedCall) (step : RelayedStep) : World :=
  match r.phase, step with
  | .received, .getLiveInput answered =>
    s.proceed i r (authorise r (if answered then s.lives r.id else none))
  | .authorised live, .readCount => s.proceed i r (checkBudget live (readCount s r.request.owner))
  | .budgeted live used, .verify nonceRead ownerHasCode =>
    s.proceed i r (verifySignature relay s r live used nonceRead ownerHasCode)
  | .verified _ _, .writeContract (.error message) => s.proceed i r (.answered (writeFailed message))
  | .verified live used, .writeContract (.ok txHash) =>
    if r.request.policyFlags.den = 1 then
      (s.send r txHash).proceed i r (.submitted live used s.txs.length txHash)
    else s
  | .submitted _ _ _ txHash, .waitForReceipt (some message) =>
    s.proceed i r (.answered (waitFailed message txHash))
  | .submitted live used tx txHash, .waitForReceipt none =>
    match (s.txs[tx]?).bind (fun t => awaitReceipt live used txHash t.status) with
    | none => s
    | some phase => s.proceed i r phase
  | .confirmed live used block txHash, .incrementCount =>
    (incrementCount s r.request.owner (used+1)).proceed i r (.counted live (used+1) block txHash)
  | .counted _ nextCount block txHash, .persist stored =>
    -- a failed write is only logged
    (if stored then s.persist r.id (relayedMeta r block txHash) else s).proceed i r
      (.answered (relayedResponse r.request.manifestCid txHash block nextCount))
  | _, _ => s

end Relayed

section Register

def receiveRegister (session : Option Bytes) (id : Bytes) (body : Option RegisterBody) :
    Except Response RegisterCall :=
  match session with
  | none => .error unauthorized
  | some session => .ok ⟨session,id,body,.received⟩

def checkRegister (r : RegisterCall) (answer : Option LiveInput) : RegisterPhase :=
  match answer with
  | none => .answered forbidden
  | some live =>
    if owned live r.session = false then .answered forbidden
    else match r.body with
      | none => .answered (failure 400 (ascii "invalid json") [])
      | some body => match normaliseRegistrationMeta body with
        | .error error => .answered (failure 400 error [])
        | .ok registration =>
          if conflicting live registration.manifestCid then .answered manifestAlreadySet
          else .checked live registration

def registerResponse (registration : RegistrationMeta) : Response :=
  ⟨200,[(ascii "ok", .bool true), (ascii "manifestCid", .str registration.manifestCid),
    (ascii "txHash", .str registration.registerTxHash),
    (ascii "block", .num registration.registerBlock)]⟩

inductive RegisterStep where
  | getLiveInput (answered : Bool)
  | persist (failed : Option Bytes)

def World.proceedRegister (s : World) (i : ℕ) (r : RegisterCall) (phase : RegisterPhase) : World :=
  { s with registers := s.registers.set i { r with phase := phase } }

def registerStep (s : World) (i : ℕ) (r : RegisterCall) (step : RegisterStep) : World :=
  match r.phase, step with
  | .received, .getLiveInput answered =>
    s.proceedRegister i r (checkRegister r (if answered then s.lives r.id else none))
  | .checked _ registration, .persist none =>
    (s.persist r.id registration).proceedRegister i r (.answered (registerResponse registration))
  | .checked _ _, .persist (some message) =>
    s.proceedRegister i r (.answered (failure 500 message []))
  | _, _ => s

end Register

section Chain
variable (relay : Relay)

def Tx.call (t : Tx) (timestamp : BitVec 256)
    (isValidSignatureNow : (signer : Address) → (digest signature : Bytes) → Bool) :
    ContentRegistry.Call where
  chainId := relay.chainId
  timestamp := timestamp
  isValidSignatureNow := isValidSignatureNow
  owner := BitVec.ofNat 160 (hexNumber t.request.owner)
  manifestCid := BitVec.ofNat 256 (hexNumber t.request.manifestCid)
  parentCid := BitVec.ofNat 256 (hexNumber t.request.parentCid)
  policyFlags := BitVec.ofNat 8 t.request.policyFlags.num.toNat
  signature := relay.signatureBytes t.request.signature

def World.settle (s : World) (i : ℕ) (t : Tx) (status : TxStatus) : World :=
  { s with txs := s.txs.set i { t with status := status } }

/-- The registry decides whether the transaction succeeds. -/
def mine (s : World) (i : ℕ) (t : Tx) (block : ℕ) (call : ContentRegistry.Call) : World :=
  match ContentRegistry.registerContent s.registry call with
  | .ok registry => { s.settle i t (.mined block) with registry := registry }
  | .error _ => s.settle i t (.reverted block)

end Chain

inductive Event where
  | relayedArrives (session : Option Bytes) (id : Bytes) (body : Option RelayedBody)
  | relayed (i : ℕ) (step : RelayedStep)
  | registerArrives (session : Option Bytes) (id : Bytes) (body : Option RegisterBody)
  | register (i : ℕ) (step : RegisterStep)
  | mined (tx block : ℕ) (timestamp : BitVec 256)
      (isValidSignatureNow : (signer : Address) → (digest signature : Bytes) → Bool)
  | dropped (tx : ℕ)
  | registryCalled (call : ContentRegistry.Call)

def World.pendingTx (s : World) (tx : ℕ) : Option Tx :=
  (s.txs[tx]?).filter (fun t => t.status = .pending)

/-- Requests that are refused at once leave nothing behind, and a transaction
is mined or dropped only once. -/
def next (relay : Relay) (s : World) : Event → World
  | .relayedArrives session id body =>
    commit s ((receiveRelayed relay session id body).map (fun r => { s with relayed := s.relayed++[r] }))
  | .relayed i step => (s.relayed[i]?).elim s (fun r => relayedStep relay s i r step)
  | .registerArrives session id body =>
    commit s ((receiveRegister session id body).map (fun r => { s with registers := s.registers++[r] }))
  | .register i step => (s.registers[i]?).elim s (fun r => registerStep s i r step)
  | .mined tx block timestamp isValidSignatureNow =>
    (s.pendingTx tx).elim s (fun t => mine s tx t block (t.call relay timestamp isValidSignatureNow))
  | .dropped tx => (s.pendingTx tx).elim s (fun t => s.settle tx t .dropped)
  | .registryCalled call => { s with registry := ContentRegistry.next s.registry call }

end Aevia.Lives
