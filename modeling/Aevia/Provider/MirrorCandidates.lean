import Aevia.Provider.ContentRoutes
import Aevia.Provider.RankOrder

/-!
# The list of mirror candidates

A viewer asks a node which mirrors it might be sent to. The answer is the head of the
ranking that the node's own selection goes by, cooling peers included and marked.
-/

set_option autoImplicit false

namespace Aevia.Mirror
open Aevia.Bytes Aevia.Content Aevia.KeyValue Aevia.Ranking

def defaultMirrorLimit : Int64 := 3
def maxMirrorLimit : Int64 := 10

structure MirrorsCandidateEntry (F : Type) where
  peerID : Bytes
  httpsBase : Bytes
  region : Bytes
  lat : F
  lng : F
  rttEMAMs : F
  bootstrapRTTMs : F
  activeSessions : ℤ
  score : F
  rttTerm : F
  loadTerm : F
  regionTerm : F
  rttSource : RTTSource
  probeLossPct : F
  inCooldown : Bool

structure MirrorsCandidatesResponse (F : Type) where
  viewerRegion : Bytes
  originRegion : Bytes
  limit : Int64
  candidates : List (MirrorsCandidateEntry F)

/-- The two parameters of the query; one that is absent is empty. -/
structure MirrorsQuery where
  viewerRegion : Bytes
  limit : Bytes

def mirrorLimit (raw : Bytes) : Int64 :=
  let limit := match atoi raw with
    | some n => if raw ≠ [] ∧ 0 < n then n else defaultMirrorLimit
    | none => defaultMirrorLimit
  if maxMirrorLimit < limit then maxMirrorLimit else limit

def candidateEntry {F : Type} (sc : ScoredMirrorCandidate F) : MirrorsCandidateEntry F where
  peerID := sc.candidate.peerID
  httpsBase := sc.candidate.httpsBase
  region := sc.candidate.region
  lat := sc.candidate.lat
  lng := sc.candidate.lng
  rttEMAMs := sc.candidate.rttEMAMs
  bootstrapRTTMs := sc.candidate.bootstrapRTTMs
  activeSessions := sc.candidate.activeSessions
  score := sc.score
  rttTerm := sc.rttTerm
  loadTerm := sc.loadTerm
  regionTerm := sc.regionTerm
  rttSource := sc.rttSource
  probeLossPct := sc.candidate.probeLossPct
  inCooldown := sc.candidate.inCooldown

section Listing
variable {F PeerId : Type} [LinearOrder F] (fl : Float64 F) (codec : PeerCodec PeerId)

namespace RankerAdapter
variable (a : RankerAdapter F PeerId) (region : Bytes)

def regionHint (region : Bytes) : ViewerHint F := ⟨region,fl.ofInt 0,fl.ofInt 0⟩

def listed (c : Candidate F) : MirrorsCandidateEntry F :=
  let s := a.reduced fl (regionHint fl region) (a.tagged codec (c.peerID,c))
  candidateEntry
    ⟨candidateToHTTPX fl s.candidate,s.score,s.rttTerm,s.loadTerm,s.regionTerm,s.rttSource⟩

def listing : List (MirrorsCandidateEntry F) :=
  (sliceStable (a.reducedBefore fl (regionHint fl region)) (a.pool fl codec)).map
    (a.listed fl codec region)

def response (query : MirrorsQuery) : MirrorsCandidatesResponse F :=
  let viewerRegion := if query.viewerRegion = [] then region else query.viewerRegion
  ⟨viewerRegion,region,mirrorLimit query.limit,
    (a.listing fl codec viewerRegion).take (mirrorLimit query.limit).toInt.toNat⟩

end RankerAdapter

section Samples

end Samples

end Listing

end Aevia.Mirror
