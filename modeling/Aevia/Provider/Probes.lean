import Aevia.Foundation.KeyValue
import Aevia.Foundation.Run
import Aevia.Foundation.Totals

/-!
# Probes of a mirror stream

The writer of a sink draws an identifier, notes it as outstanding and sends it;
every second it removes what has been outstanding too long. The reader removes
what is echoed. Either then updates the metrics and the count of consecutive
losses, in steps of their own. The 64-bit counter of identifiers is not exhausted.
-/

set_option autoImplicit false

namespace Aevia.Mirror.Probes
open Aevia.KeyValue Aevia.Run Aevia.Totals

def second : ℤ := 10^9

def maxAge : ℤ := 5*second

def consecutiveLossThreshold : UInt32 := 5

/-- Where the writer is: in `sendProbe` with an identifier, or in
`sweepOutstanding` with losses to count. -/
inductive Writer where
  | idle
  | drawn (id : ℕ)
  | losing (left lost : UInt32)
  deriving DecidableEq

inductive Reader where
  | idle
  | matched
  | recorded
  deriving DecidableEq

structure StreamSink where
  outstanding : Map ℕ ℤ
  consecutiveLoss : UInt32
  dropRequested : Bool
  writer : Writer
  reader : Reader

def newStreamSink : StreamSink := ⟨Map.empty, 0, false, .idle, .idle⟩

/-- The atomic steps of the two. The drop is also requested after a failed
write and by the drift watch. -/
inductive Action where
  | draw
  | insert (now : ℤ)
  | sweep (now : ℤ)
  | incProbeLoss
  | addConsecutiveLoss
  | requestDrop
  | echo (id : ℕ)
  | recordEcho
  | resetConsecutiveLoss
  deriving DecidableEq

inductive Note where
  | drawn (id : ℕ)
  | sent (id : ℕ)
  | echoed (id : ℕ)
  | expired (id : ℕ)
  | echoCounted
  | lossCounted
  | dropRequested
  deriving DecidableEq

def isExpired (now : ℤ) (e : ℕ × ℤ) : Bool := e.2 < now-maxAge

/-- A step of one sink. `nextID` is what the shared counter would give. -/
def step (nextID : ℕ) (s : StreamSink) : Action → StreamSink × List Note
  | .draw => match s.writer with
    | .idle => ({ s with writer := .drawn nextID }, [.drawn nextID])
    | _ => (s, [])
  | .insert now => match s.writer with
    | .drawn id =>
      ({ s with outstanding := s.outstanding.put id now, writer := .idle }, [.sent id])
    | _ => (s, [])
  | .sweep now => match s.writer with
    | .idle =>
      let expired := (s.outstanding.filter (isExpired now)).keys
      let lost := UInt32.ofNat expired.length
      ({ s with
        outstanding := s.outstanding.filter (fun e => !isExpired now e)
        writer := if lost = 0 then .idle else .losing lost lost }, expired.map .expired)
    | _ => (s, [])
  | .incProbeLoss => match s.writer with
    | .losing left lost =>
      if left = 0 then (s, []) else ({ s with writer := .losing (left-1) lost }, [.lossCounted])
    | _ => (s, [])
  | .addConsecutiveLoss => match s.writer with
    | .losing left lost =>
      if left = 0 then
        let cl := s.consecutiveLoss+lost
        if consecutiveLossThreshold ≤ cl ∧ s.dropRequested = false then
          ({ s with consecutiveLoss := cl, dropRequested := true, writer := .idle }, [.dropRequested])
        else ({ s with consecutiveLoss := cl, writer := .idle }, [])
      else (s, [])
    | _ => (s, [])
  | .requestDrop => match s.writer with
    | .idle => ({ s with dropRequested := true }, [])
    | _ => (s, [])
  | .echo id => match s.reader, s.outstanding.get id with
    | .idle, some _ => ({ s with outstanding := s.outstanding.delete id, reader := .matched }, [.echoed id])
    | _, _ => (s, [])
  | .recordEcho => match s.reader with
    | .matched => ({ s with reader := .recorded }, [.echoCounted])
    | _ => (s, [])
  | .resetConsecutiveLoss => match s.reader with
    | .recorded => ({ s with consecutiveLoss := 0, reader := .idle }, [])
    | _ => (s, [])

section Record

def Note.drawnID : Note → Option ℕ
  | drawn id => some id
  | _ => none

def Note.sentID : Note → Option ℕ
  | sent id => some id
  | _ => none

def Note.echoedID : Note → Option ℕ
  | echoed id => some id
  | _ => none

def Note.expiredID : Note → Option ℕ
  | expired id => some id
  | _ => none

variable (log : List Note)

def drawnIDs : List ℕ := log.filterMap Note.drawnID

def sentIDs : List ℕ := log.filterMap Note.sentID

def echoedIDs : List ℕ := log.filterMap Note.echoedID

def expiredIDs : List ℕ := log.filterMap Note.expiredID

section Append
variable (notes : List Note)

theorem sentIDs_append : sentIDs (log++notes) = sentIDs log++sentIDs notes := List.filterMap_append

theorem echoedIDs_append : echoedIDs (log++notes) = echoedIDs log++echoedIDs notes :=
  List.filterMap_append

theorem expiredIDs_append : expiredIDs (log++notes) = expiredIDs log++expiredIDs notes :=
  List.filterMap_append

end Append

theorem sweep_notes (expired : List ℕ) : expiredIDs (expired.map .expired) = expired ∧
    echoedIDs (expired.map .expired) = [] ∧ sentIDs (expired.map .expired) = [] ∧
    drawnIDs (expired.map .expired) = [] ∧ (expired.map Note.expired).count .echoCounted = 0 ∧
    (expired.map Note.expired).count .lossCounted = 0 := by
  induction expired with
  | nil => decide
  | cons id expired ih =>
    obtain ⟨hexpired, hechoed, hsent, hdrawn, hechoes, hlosses⟩ := ih
    refine ⟨congrArg (id::·) hexpired, hechoed, hsent, hdrawn, ?_, ?_⟩
    · rw [List.map_cons, List.count_cons_of_ne (by simp), hechoes]
    · rw [List.map_cons, List.count_cons_of_ne (by simp), hlosses]

theorem drawn_notes (nextID : ℕ) (s : StreamSink) (a : Action) :
    drawnIDs (step nextID s a).2 = [] ∨ drawnIDs (step nextID s a).2 = [nextID] := by
  fun_cases step nextID s a
  case case1 => exact .inr rfl
  case case5 => exact .inl (sweep_notes _).2.2.2.1
  all_goals exact .inl rfl

end Record

end Aevia.Mirror.Probes
