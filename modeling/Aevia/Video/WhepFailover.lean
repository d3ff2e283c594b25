import Mathlib.Data.List.DropRight
import Aevia.Foundation.Bytes
import Aevia.Foundation.Run

/-!
# Playback with failover

The loop dials one candidate after another and waits on a dial, an outcome, a
broken connection or a cleanup. Timers, connection callbacks and calls of `stop()`
come between any two waits; `stop()` may also be called from inside a callback.
-/

set_option autoImplicit false

namespace Aevia.Failover
open Aevia.Bytes

structure FailoverCandidate where
  peerId : Bytes
  httpsBase : Bytes
  deriving DecidableEq

inductive FailoverState where
  | idle
  | connecting
  | connected
  | failingOver
  | failedAll
  deriving DecidableEq

structure FailoverStateContext where
  candidate : Option FailoverCandidate
  attempt : ℕ
  totalAttempts : ℕ
  deriving DecidableEq

structure FailoverOptions where
  sessionId : Bytes
  candidates : List FailoverCandidate

inductive ConnectionState where
  | new
  | connecting
  | connected
  | disconnected
  | failed
  | closed
  deriving DecidableEq

section Url

def isUnreserved (c : UInt8) : Bool :=
  (65 ≤ c ∧ c ≤ 90) ∨ (97 ≤ c ∧ c ≤ 122) ∨ (48 ≤ c ∧ c ≤ 57) ∨ c ∈ ascii "-_.!~*'()"

def upperHex (d : ℕ) : UInt8 := if d < 10 then UInt8.ofNat (48+d) else UInt8.ofNat (55+d)

def encodeURIComponent (s : Bytes) : Bytes :=
  s.flatMap fun c =>
    if isUnreserved c then [c] else [37, upperHex (c.toNat/16), upperHex (c.toNat%16)]

def whepUrl (opts : FailoverOptions) (candidate : FailoverCandidate) : Bytes :=
  candidate.httpsBase.rdropWhile (· == 47)++ascii "/whep/"++encodeURIComponent opts.sessionId

example : whepUrl ⟨ascii "a/b", []⟩ ⟨ascii "p", ascii "https://m//"⟩ =
    ascii "https://m/whep/a%2Fb" := by decide +kernel

end Url

section Attempts

inductive Outcome where
  | connected
  | broken
  | timeout
  deriving DecidableEq

/-- Whether `stop()` of a session was called, and has settled. -/
inductive SessionStatus where
  | active
  | stopping
  | stopped
  deriving DecidableEq

/-- What belongs to one candidate: the signals, the two timers that are still set,
what `waitPromise` has resolved to, and the session. -/
structure Attempt where
  connected : Bool
  broken : Bool
  connectTimer : Bool
  poll : Bool
  outcome : Option Outcome
  session : Option SessionStatus

def Attempt.dialled : Attempt := ⟨false,false,true,true,none,none⟩

namespace Attempt
variable (a : Attempt)

def resolve (result : Outcome) : Attempt := { a with outcome := a.outcome.or (some result) }

def settled (result : Outcome) : Attempt := { a with connectTimer := false }.resolve result

def connectTimeout : Attempt :=
  if a.connectTimer = false then a
  else if a.connected then { a with connectTimer := false }
  else { a with connectTimer := false, broken := true }.resolve .timeout

def polled (stopped : Bool) : Attempt :=
  if a.poll = false then a
  else if stopped then { a with poll := false }.settled .broken
  else if a.connected then { a with poll := false }.settled .connected
  else if a.broken then { a with poll := false }.settled .broken
  else a

def stopSession : Attempt :=
  { a with session := a.session.map fun
      | .active => .stopping
      | status => status }

@[simp] theorem connectTimeout_session : a.connectTimeout.session = a.session := by
  unfold connectTimeout
  split_ifs <;> rfl

@[simp] theorem polled_session (stopped : Bool) : (a.polled stopped).session = a.session := by
  unfold polled
  split_ifs <;> rfl

end Attempt

end Attempts

/-- How far a call of `cleanupActive` is: before the session's `stop()` settles, or done. -/
inductive Cleanup where
  | stopping (session : ℕ)
  | cleared
  deriving DecidableEq

inductive After where
  | advance
  | leave
  deriving DecidableEq

/-- Where the loop is: inside a callback, or at what it waits for. -/
inductive Loop where
  | connecting (i : ℕ) (candidate : FailoverCandidate)
  | dialling (i : ℕ) (candidate : FailoverCandidate)
  | awaiting (i : ℕ)
  | watching (i : ℕ)
  | watched (i : ℕ)
  | failingOver (i : ℕ)
  | cleaning (i : ℕ) (cleanup : Cleanup) (after : After)
  | returned

def Loop.inCallback : Loop → Bool
  | .connecting _ _ => true
  | .failingOver _ => true
  | _ => false

inductive StopCall where
  | cleaning (cleanup : Cleanup)
  | resolved
  deriving DecidableEq

/-- What is seen from outside, in this order: dials, callbacks, and promises of
`stop()` that resolve. -/
inductive Call (Stream : Type*) where
  | playWhep (whepUrl : Bytes) (candidate : FailoverCandidate)
  | onStateChange (state : FailoverState) (ctx : FailoverStateContext)
  | onStream (stream : Stream) (candidate : FailoverCandidate)
  | stopResolved (call : ℕ)
  deriving DecidableEq

/-- The variables of one playback; a session goes by the index of its attempt. -/
structure Player (Stream : Type*) where
  stopped : Bool
  activeSession : Option ℕ
  activeCand : Option FailoverCandidate
  attempt : ℕ
  attempts : List Attempt
  loop : Loop
  stops : List StopCall
  log : List (Call Stream)

/-- What happens between two waits of the loop. `resume` goes on where the awaited
promise has resolved, `callbackReturns` where a callback of the loop returns. -/
inductive Event (Stream : Type*) where
  | callbackReturns
  | resume
  | played (stream : Option Stream)
  | rejected
  | connectionState (i : ℕ) (state : ConnectionState)
  | connectTimer (i : ℕ)
  | poll (i : ℕ)
  | check
  | cleanupSettled
  | stop
  | stopSettled (call : ℕ)
  | stopResolves (call : ℕ)

section Functions
variable {Stream : Type*} (opts : FailoverOptions)

def Player.say (s : Player Stream) (call : Call Stream) : Player Stream :=
  { s with log := s.log++[call] }

def emit (s : Player Stream) (state : FailoverState) : Player Stream :=
  if s.stopped then s
  else s.say (.onStateChange state ⟨s.activeCand, s.attempt, opts.candidates.length⟩)

/-- The synchronous part of the cleanup. -/
def cleanupActive (s : Player Stream) : Player Stream × Cleanup :=
  match s.activeSession with
  | some k => ({ s with attempts := s.attempts.modify k Attempt.stopSession }, .stopping k)
  | none => ({ s with activeCand := none }, .cleared)

def clearActive (s : Player Stream) (k : ℕ) : Player Stream :=
  { s with
    attempts := s.attempts.modify k fun a => { a with session := some .stopped }
    activeSession := none
    activeCand := none }

def cleanThen (s : Player Stream) (i : ℕ) (after : After) : Player Stream :=
  { (cleanupActive s).1 with loop := .cleaning i (cleanupActive s).2 after }

def iterate (s : Player Stream) (i : ℕ) : Player Stream :=
  match opts.candidates[i]?, s.stopped with
  | some candidate, false =>
    { emit opts { s with attempt := i+1, activeCand := some candidate } .connecting with
      loop := .connecting i candidate }
  | _, _ => { emit opts s .failedAll with loop := .returned }

def dial (s : Player Stream) (i : ℕ) (candidate : FailoverCandidate) : Player Stream :=
  { s.say (.playWhep (whepUrl opts candidate) candidate) with
    attempts := s.attempts++[Attempt.dialled]
    loop := .dialling i candidate }

def callbackReturns (s : Player Stream) : Player Stream :=
  match s.loop with
  | .connecting i candidate => dial opts s i candidate
  | .failingOver i => cleanThen s i .advance
  | _ => s

def startLoop (s : Player Stream) : Player Stream :=
  if opts.candidates.length = 0 then { emit opts s .failedAll with loop := .returned }
  else iterate opts s 0

/-- `playWhepWithFailover` returns its handle when the loop first waits. -/
def playWhepWithFailover : Player Stream :=
  callbackReturns opts (startLoop opts ⟨false,none,none,0,[],.returned,[],[]⟩)

def played (s : Player Stream) (stream : Option Stream) : Player Stream :=
  match s.loop with
  | .dialling i candidate =>
    let s := { s with
      attempts := s.attempts.modify i fun a => { a with session := some .active }
      activeSession := some i
      loop := .awaiting i }
    match stream with
    | some stream => s.say (.onStream stream candidate)
    | none => s
  | _ => s

def rejected (s : Player Stream) : Player Stream :=
  match s.loop with
  | .dialling i _ => cleanThen s i .advance
  | _ => s

def resume (s : Player Stream) : Player Stream :=
  match s.loop with
  | .awaiting i =>
    match s.attempts[i]?.bind (·.outcome) with
    | none => s
    | some outcome =>
      if s.stopped then cleanThen s i .leave
      else if outcome = .connected then { s with loop := .watching i }
      else cleanThen s i .advance
  | .watched i =>
    if s.stopped then cleanThen s i .leave
    else { emit opts s .failingOver with loop := .failingOver i }
  | .cleaning i .cleared .advance => iterate opts s (i+1)
  | .cleaning _ .cleared .leave => { s with loop := .returned }
  | _ => s

def onConnectionStateChange (s : Player Stream) (i : ℕ) (state : ConnectionState) : Player Stream :=
  match s.attempts[i]? with
  | none => s
  | some a =>
    if s.stopped then s
    else if state = .connected ∧ a.connected = false then
      emit opts { s with
        attempts := s.attempts.modify i fun a => { a with connected := true } } .connected
    else if state = .failed ∨ state = .closed then
      { s with attempts := s.attempts.modify i fun a => { a with broken := true } }
    else s

/-- A tick of `waitUntilBrokenOrSilent`. -/
def check (s : Player Stream) : Player Stream :=
  match s.loop with
  | .watching i =>
    if s.stopped || s.attempts[i]?.any (·.broken) then { s with loop := .watched i } else s
  | _ => s

def cleanupSettled (s : Player Stream) : Player Stream :=
  match s.loop with
  | .cleaning i (.stopping k) after =>
    { clearActive s k with loop := .cleaning i .cleared after }
  | _ => s

def stop (s : Player Stream) : Player Stream :=
  let cleaned := cleanupActive { s with stopped := true }
  { cleaned.1 with stops := cleaned.1.stops++[.cleaning cleaned.2] }

def stopSettled (s : Player Stream) (call : ℕ) : Player Stream :=
  match s.stops[call]? with
  | some (.cleaning (.stopping k)) =>
    { clearActive s k with stops := s.stops.set call (.cleaning .cleared) }
  | _ => s

def stopResolves (s : Player Stream) (call : ℕ) : Player Stream :=
  match s.stops[call]? with
  | some (.cleaning .cleared) =>
    { s.say (.stopResolved call) with stops := s.stops.set call .resolved }
  | _ => s

/-- While a callback of the loop runs, only the callback can act. -/
def next (s : Player Stream) : Event Stream → Player Stream
  | .callbackReturns => callbackReturns opts s
  | .stop => stop s
  | .resume => if s.loop.inCallback then s else resume opts s
  | .played stream => if s.loop.inCallback then s else played s stream
  | .rejected => if s.loop.inCallback then s else rejected s
  | .connectionState i state =>
    if s.loop.inCallback then s else onConnectionStateChange opts s i state
  | .connectTimer i =>
    if s.loop.inCallback then s
    else { s with attempts := s.attempts.modify i Attempt.connectTimeout }
  | .poll i =>
    if s.loop.inCallback then s
    else { s with attempts := s.attempts.modify i (Attempt.polled · s.stopped) }
  | .check => if s.loop.inCallback then s else check s
  | .cleanupSettled => if s.loop.inCallback then s else cleanupSettled s
  | .stopSettled call => if s.loop.inCallback then s else stopSettled s call
  | .stopResolves call => if s.loop.inCallback then s else stopResolves s call

section Fields
variable (s : Player Stream) (state : FailoverState)

@[simp] theorem emit_stopped : (emit opts s state).stopped = s.stopped := by
  unfold emit
  split_ifs <;> rfl

@[simp] theorem emit_activeSession : (emit opts s state).activeSession = s.activeSession := by
  unfold emit
  split_ifs <;> rfl

@[simp] theorem emit_attempts : (emit opts s state).attempts = s.attempts := by
  unfold emit
  split_ifs <;> rfl

@[simp] theorem emit_loop : (emit opts s state).loop = s.loop := by
  unfold emit
  split_ifs <;> rfl

@[simp] theorem emit_stops : (emit opts s state).stops = s.stops := by
  unfold emit
  split_ifs <;> rfl

/-- Nothing is emitted once `stop()` was called. -/
theorem emit_cases :
    s.stopped = true ∧ emit opts s state = s ∨ s.stopped = false ∧ emit opts s state =
      s.say (.onStateChange state ⟨s.activeCand, s.attempt, opts.candidates.length⟩) := by
  unfold emit
  cases hstopped : s.stopped with
  | true => exact .inl ⟨rfl,rfl⟩
  | false => exact .inr ⟨rfl,rfl⟩

/-- The synchronous part of a cleanup calls `stop()` of the active session, if any. -/
theorem cleanupActive_cases :
    s.activeSession = none ∧ cleanupActive s = ({ s with activeCand := none }, .cleared) ∨
    ∃ k, s.activeSession = some k ∧ cleanupActive s =
      ({ s with attempts := s.attempts.modify k Attempt.stopSession }, .stopping k) := by
  unfold cleanupActive
  cases s.activeSession with
  | none => exact .inl ⟨rfl,rfl⟩
  | some k => exact .inr ⟨k,rfl,rfl⟩

theorem unless_inCallback (P : Player Stream → Prop) (s' : Player Stream) (h : P s) (h' : P s') :
    P (if s.loop.inCallback then s else s') := by
  split_ifs <;> assumption

end Fields

end Functions

end Aevia.Failover
