import Aevia.Contracts.Evm
import Aevia.Foundation.Fallible
import Aevia.Foundation.Run

/-!
# The RiskOracle contract

Scores, contests and the two roles. A call comes with its sender and, where the
contract reads it, the time of the block.
-/

set_option autoImplicit false

namespace Aevia.RiskOracle
open Aevia.Evm Aevia.Fallible

structure Score where
  r : BitVec 16
  rLegal : BitVec 16
  rAbuse : BitVec 16
  rValues : BitVec 16
  updatedAt : BitVec 64
  classifierVersion : Bytes32
  isAbsolute : Bool
  deriving DecidableEq, Repr

def Score.unset : Score := ⟨0, 0, 0, 0, 0, 0, false⟩

def bpsMax : BitVec 16 := 10000

def maxPublishSkew : BitVec 64 := 3600

inductive Event where
  | scorePublished (manifestHash : Bytes32) (score : Score)
  | scoreContested (manifestHash contestId : Bytes32) (initiator : Address)
  | contestResolved (manifestHash contestId : Bytes32) (resolvedR : BitVec 16)
  | scoringServiceRotated (previous current : Address)
  | councilUpdated (previous current : Address)
  deriving DecidableEq, Repr

inductive Revert where
  | zeroAddress
  | notScoringService
  | notCouncil
  | scoreOutOfRange (value : BitVec 16)
  | absoluteMustBeMax (r : BitVec 16)
  | updatedAtOutOfWindow (updatedAt blockTime : BitVec 64)
  | contestAlreadyActive (manifestHash existingContestId : Bytes32)
  | contestNotActive (manifestHash : Bytes32)
  | contestIdMismatch (expected provided : Bytes32)
  | zeroContestId
  | arithmeticOverflow
  deriving DecidableEq, Repr

structure Oracle where
  scores : Bytes32 → Score
  activeContest : Bytes32 → Bytes32
  scoringService : Address
  council : Address
  events : List Event

def deploy (scoringService council : Address) : Except Revert Oracle :=
  if scoringService = 0 then .error .zeroAddress
  else if council = 0 then .error .zeroAddress
  else .ok {
    scores := fun _ => Score.unset
    activeContest := fun _ => 0
    scoringService := scoringService
    council := council
    events := [] }

def Oracle.scoreBps (o : Oracle) (manifestHash : Bytes32) : BitVec 16 := (o.scores manifestHash).r

def Oracle.scoreOf (o : Oracle) (manifestHash : Bytes32) : Score := o.scores manifestHash

def Oracle.activeContestOf (o : Oracle) (manifestHash : Bytes32) : Bytes32 :=
  o.activeContest manifestHash

/-- The time is truncated, and its sum with the skew is checked. -/
def validateScore (timestamp : BitVec 256) (s : Score) : Except Revert Unit :=
  if bpsMax < s.r then .error (.scoreOutOfRange s.r)
  else if bpsMax < s.rLegal then .error (.scoreOutOfRange s.rLegal)
  else if bpsMax < s.rAbuse then .error (.scoreOutOfRange s.rAbuse)
  else if bpsMax < s.rValues then .error (.scoreOutOfRange s.rValues)
  else if s.isAbsolute = true ∧ s.r ≠ bpsMax then .error (.absoluteMustBeMax s.r)
  else
    let nowTs : BitVec 64 := timestamp.setWidth 64
    let lo := if maxPublishSkew < nowTs then nowTs-maxPublishSkew else 0
    if 2^64 ≤ nowTs.toNat+maxPublishSkew.toNat then .error .arithmeticOverflow
    else
      let hi := nowTs+maxPublishSkew
      if s.updatedAt < lo ∨ hi < s.updatedAt then
        .error (.updatedAtOutOfWindow s.updatedAt nowTs)
      else .ok ()

def publishScore (o : Oracle) (sender : Address) (timestamp : BitVec 256) (manifestHash : Bytes32)
    (newScore : Score) : Except Revert Oracle :=
  if sender ≠ o.scoringService then .error .notScoringService
  else if o.activeContest manifestHash ≠ 0 then
    .error (.contestAlreadyActive manifestHash (o.activeContest manifestHash))
  else do
    validateScore timestamp newScore
    .ok { o with
      scores := Function.update o.scores manifestHash newScore
      events := o.events++[.scorePublished manifestHash newScore] }

def contestScore (o : Oracle) (sender : Address) (manifestHash contestId : Bytes32) :
    Except Revert Oracle :=
  if sender ≠ o.council then .error .notCouncil
  else if contestId = 0 then .error .zeroContestId
  else if o.activeContest manifestHash ≠ 0 then
    .error (.contestAlreadyActive manifestHash (o.activeContest manifestHash))
  else .ok { o with
    activeContest := Function.update o.activeContest manifestHash contestId
    events := o.events++[.scoreContested manifestHash contestId sender] }

def resolveContest (o : Oracle) (sender : Address) (timestamp : BitVec 256)
    (manifestHash contestId : Bytes32) (resolvedScore : Score) : Except Revert Oracle :=
  if sender ≠ o.council then .error .notCouncil
  else if o.activeContest manifestHash = 0 then .error (.contestNotActive manifestHash)
  else if o.activeContest manifestHash ≠ contestId then
    .error (.contestIdMismatch (o.activeContest manifestHash) contestId)
  else do
    validateScore timestamp resolvedScore
    .ok { o with
      scores := Function.update o.scores manifestHash resolvedScore
      activeContest := Function.update o.activeContest manifestHash 0
      events := o.events++[.contestResolved manifestHash contestId resolvedScore.r,
        .scorePublished manifestHash resolvedScore] }

def rotateScoringServiceKey (o : Oracle) (sender newScoringService : Address) :
    Except Revert Oracle :=
  if sender ≠ o.council then .error .notCouncil
  else if newScoringService = 0 then .error .zeroAddress
  else .ok { o with
    scoringService := newScoringService
    events := o.events++[.scoringServiceRotated o.scoringService newScoringService] }

def setCouncil (o : Oracle) (sender newCouncil : Address) : Except Revert Oracle :=
  if sender ≠ o.council then .error .notCouncil
  else if newCouncil = 0 then .error .zeroAddress
  else .ok { o with
    council := newCouncil
    events := o.events++[.councilUpdated o.council newCouncil] }

inductive Action where
  | publishScore (sender : Address) (timestamp : BitVec 256) (manifestHash : Bytes32)
      (newScore : Score)
  | contestScore (sender : Address) (manifestHash contestId : Bytes32)
  | resolveContest (sender : Address) (timestamp : BitVec 256) (manifestHash contestId : Bytes32)
      (resolvedScore : Score)
  | rotateScoringServiceKey (sender newScoringService : Address)
  | setCouncil (sender newCouncil : Address)
  deriving DecidableEq, Repr

def execute (o : Oracle) : Action → Except Revert Oracle
  | .publishScore sender timestamp manifestHash newScore =>
    publishScore o sender timestamp manifestHash newScore
  | .contestScore sender manifestHash contestId => contestScore o sender manifestHash contestId
  | .resolveContest sender timestamp manifestHash contestId resolvedScore =>
    resolveContest o sender timestamp manifestHash contestId resolvedScore
  | .rotateScoringServiceKey sender newScoringService =>
    rotateScoringServiceKey o sender newScoringService
  | .setCouncil sender newCouncil => setCouncil o sender newCouncil

def next (o : Oracle) (a : Action) : Oracle := commit o (execute o a)

end Aevia.RiskOracle
