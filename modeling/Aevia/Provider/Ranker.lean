import Aevia.Foundation.Bytes
import Aevia.Foundation.Ranking
import Mathlib.Data.Prod.Lex

/-!
# Ranking of mirror candidates

A candidate's score is its round trip, its load and the distance of its region,
each weighted; ties go to the lower peer id. Floating-point numbers are taken as
a total order with the operations that the score uses.
-/

set_option autoImplicit false

namespace Aevia.Mirror
open Aevia.Bytes Aevia.Ranking

/-- The operations on `float64` that the ranker uses. -/
structure Float64 (F : Type) where
  ofInt : ℤ → F
  toInt : F → ℤ
  add : F → F → F
  sub : F → F → F
  mul : F → F → F
  div : F → F → F
  sin : F → F
  cos : F → F
  sqrt : F → F
  atan2 : F → F → F
  pi : F

abbrev Duration := ℤ

def Duration.milliseconds (d : Duration) : ℤ := d.tdiv 1000000

structure Candidate (F : Type) where
  peerID : Bytes
  httpsBase : Bytes
  region : Bytes
  lat : F
  lng : F
  latLngKnown : Bool
  rttEMA : Duration
  activeSessions : ℤ
  probeLossPct : F
  inCooldown : Bool
  bootstrapRTT : Duration

structure ViewerHint (F : Type) where
  region : Bytes
  lat : F
  lng : F

structure RankerWeights (F : Type) where
  alpha : F
  beta : F
  gamma : F

inductive RTTSource where
  | echo
  | healthzBootstrap
  | haversineBootstrap
  | unknown
  deriving DecidableEq

structure ScoredCandidate (F : Type) where
  candidate : Candidate F
  score : F
  rttTerm : F
  loadTerm : F
  regionTerm : F
  rttSource : RTTSource

structure Ranker (F : Type) where
  w : RankerWeights F
  originRegion : Bytes
  originLat : F
  originLng : F
  originKnown : Bool

inductive Continent where
  | na | sa | eu | as | af | oc
  deriving DecidableEq

section Regions

def countries : List (Continent × List String) := [
  (.na, ["US", "CA", "MX"]),
  (.sa, ["BR", "AR", "CL", "CO", "PE", "UY", "PY", "BO", "VE", "EC"]),
  (.eu, ["DE", "FR", "GB", "IT", "ES", "PT", "NL", "BE", "AT", "CH", "SE", "NO", "DK", "FI", "IE",
    "IS", "PL", "CZ", "HU", "RO", "GR", "BG", "UA"]),
  (.as, ["JP", "CN", "KR", "IN", "ID", "SG", "MY", "TH", "VN", "PH", "TR", "IL", "AE", "SA"]),
  (.af, ["ZA", "NG", "EG", "KE", "MA", "ET", "GH"]),
  (.oc, ["AU", "NZ"])]

def countryContinent (country : Bytes) : Option Continent :=
  (countries.find? (fun e => (e.2.map ascii).contains country)).map Prod.fst

/-- `strings.ToUpper` as far as it makes ASCII letters: of these, and of the
dotless i and the long s. Other text keeps bytes that no ASCII letter has. -/
def toUpper : Bytes → Bytes
  | [] => []
  | 0xC4::0xB1::rest => 73::toUpper rest
  | 0xC5::0xBF::rest => 83::toUpper rest
  | b::rest => (if 97 ≤ b ∧ b ≤ 122 then b-32 else b)::toUpper rest

def continentOf (region : Bytes) : Option Continent :=
  countryContinent (toUpper (region.takeWhile (fun b => b ≠ 45)))

def regionPenalty (candidate viewer : Bytes) : ℤ :=
  if candidate = [] ∨ viewer = [] then 100
  else if candidate = viewer then 0
  else if continentOf candidate = continentOf viewer ∧ continentOf candidate ≠ none then 25
  else 100

end Regions

section Scores
variable {F : Type} [LinearOrder F] (fl : Float64 F)

def defaultWeights : RankerWeights F := ⟨fl.ofInt 1, fl.ofInt 10, fl.ofInt 50⟩

def newRanker (w : RankerWeights F) (originRegion : Bytes) (originLat originLng : F)
    (originGeoKnown : Bool) : Ranker F where
  w := if w.alpha = fl.ofInt 0 ∧ w.beta = fl.ofInt 0 ∧ w.gamma = fl.ofInt 0 then defaultWeights fl
    else w
  originRegion := originRegion
  originLat := originLat
  originLng := originLng
  originKnown := originGeoKnown

def haversineKm (lat₁ lng₁ lat₂ lng₂ : F) : F :=
  let toRad := fun d => fl.div (fl.mul d fl.pi) (fl.ofInt 180)
  let half := fun d => fl.sin (fl.div d (fl.ofInt 2))
  let dLat := toRad (fl.sub lat₂ lat₁)
  let dLng := toRad (fl.sub lng₂ lng₁)
  let a := fl.add (fl.mul (half dLat) (half dLat))
    (fl.mul (fl.mul (fl.mul (fl.cos (toRad lat₁)) (fl.cos (toRad lat₂))) (half dLng)) (half dLng))
  let c := fl.mul (fl.ofInt 2) (fl.atan2 (fl.sqrt a) (fl.sqrt (fl.sub (fl.ofInt 1) a)))
  fl.mul (fl.ofInt 6371) c

def effectiveRTTMs (c : Candidate F) (viewerLat viewerLng : F) (viewerGeoKnown : Bool) :
    F × RTTSource :=
  if 0 < c.rttEMA then (fl.ofInt c.rttEMA.milliseconds, .echo)
  else if 0 < c.bootstrapRTT then (fl.ofInt c.bootstrapRTT.milliseconds, .healthzBootstrap)
  else if c.latLngKnown && viewerGeoKnown then
    (fl.div (haversineKm fl viewerLat viewerLng c.lat c.lng) (fl.ofInt 200), .haversineBootstrap)
  else (fl.ofInt 999, .unknown)

namespace Ranker
variable (r : Ranker F) (hint : ViewerHint F)

def effRegion : Bytes := if hint.region = [] then r.originRegion else hint.region

def effGeo : F × F × Bool :=
  if hint.lat ≠ fl.ofInt 0 ∨ hint.lng ≠ fl.ofInt 0 then (hint.lat, hint.lng, true)
  else if r.originKnown then (r.originLat, r.originLng, true)
  else (hint.lat, hint.lng, false)

def scored (c : Candidate F) : ScoredCandidate F :=
  let rtt := effectiveRTTMs fl c (r.effGeo fl hint).1 (r.effGeo fl hint).2.1 (r.effGeo fl hint).2.2
  let rttTerm := fl.mul r.w.alpha rtt.1
  let loadTerm := fl.mul r.w.beta (fl.ofInt c.activeSessions)
  let regionTerm := fl.mul r.w.gamma (fl.ofInt (regionPenalty c.region (r.effRegion hint)))
  ⟨c, fl.add (fl.add rttTerm loadTerm) regionTerm, rttTerm, loadTerm, regionTerm, rtt.2⟩

end Ranker

/-- Lower scores first, equal ones by the peer id. -/
def ScoredCandidate.before (a b : ScoredCandidate F) : Bool :=
  if a.score ≠ b.score then a.score < b.score else a.candidate.peerID < b.candidate.peerID

def Ranker.rank (r : Ranker F) (cs : List (Candidate F)) (hint : ViewerHint F) :
    List (ScoredCandidate F) :=
  sliceStable ScoredCandidate.before (cs.map (r.scored fl hint))

def ScoredCandidate.key (a : ScoredCandidate F) : F ×ₗ Bytes := toLex (a.score, a.candidate.peerID)

theorem before_byKey : ByKey ScoredCandidate.before (ScoredCandidate.key : ScoredCandidate F → F ×ₗ Bytes) := by
  intro a b
  rw [ScoredCandidate.key, ScoredCandidate.key, Prod.Lex.toLex_lt_toLex, ScoredCandidate.before]
  by_cases h : a.score = b.score
  · rw [if_neg (not_not.mpr h)]
    simp [h]
  · rw [if_pos h]
    simp [h]

theorem Ranker.rank_eq (r : Ranker F) (cs : List (Candidate F)) (hint : ViewerHint F) :
    r.rank fl cs hint =
      (sliceStable (fun c d => (r.scored fl hint c).before (r.scored fl hint d)) cs).map
        (r.scored fl hint) :=
  (map_sliceStable _ _ (r.scored fl hint) (fun _ _ => rfl) cs).symm

omit [LinearOrder F] in
theorem key_nodup (scored : Candidate F → ScoredCandidate F)
    (hscored : ∀ c, (scored c).candidate.peerID = c.peerID) (cs : List (Candidate F))
    (h : (cs.map Candidate.peerID).Nodup) : (cs.map (fun c => (scored c).key)).Nodup := by
  refine List.Nodup.of_map (fun k => (ofLex k).2) ?_
  rw [List.map_map]
  have hids : (fun k : F ×ₗ Bytes => (ofLex k).2) ∘ (fun c => (scored c).key) = Candidate.peerID :=
    funext hscored
  rwa [hids]

end Scores

end Aevia.Mirror
