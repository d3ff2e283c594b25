import Aevia.Foundation.Bytes

/-!
# Video frames and their NAL units

A buffer of NAL units between four-byte start codes, how it is split, and the
length-prefixed form a sample has in a media segment.
-/

set_option autoImplicit false

namespace Aevia.Whip
open Aevia.Bytes

/-- One access unit. The time of arrival is not read by the segmenter. -/
structure VideoFrame where
  nal : Bytes
  timestamp : UInt32
  keyframe : Bool
  deriving DecidableEq

def startCode : Bytes := [0, 0, 0, 1]

def findStartCode : Bytes → Option ℕ
  | [] => none
  | b::rest =>
    if (b::rest).take 4 = startCode then some 0 else (findStartCode rest).map (·+1)

/-- The loop over `offset`; every round but the last drops a start code. -/
def splitUnits : ℕ → Bytes → List Bytes
  | 0, _ => []
  | rounds+1, buf =>
    if buf = [] then []
    else match findStartCode buf with
      | none => [buf]
      | some next =>
        (if 0 < next then [buf.take next] else [])++splitUnits rounds (buf.drop (next+4))

def splitNALUnits (buf : Bytes) : List Bytes := splitUnits buf.length buf

def nalType (unit : Bytes) : UInt8 := unit.headD 0 &&& 0x1F

/-- The loop over `offset`, which looks for an IDR unit. -/
def keyframeUnit : ℕ → Bytes → Bool
  | 0, _ => false
  | rounds+1, buf =>
    if buf = [] then false
    else match findStartCode buf with
      | none => nalType buf = 5
      | some next =>
        (0 < next ∧ nalType (buf.take next) = 5) || keyframeUnit rounds (buf.drop (next+4))

def isKeyframe (nal : Bytes) : Bool := keyframeUnit nal.length nal

theorem keyframeUnit_iff (rounds : ℕ) (buf : Bytes) :
    keyframeUnit rounds buf = true ↔ ∃ unit ∈ splitUnits rounds buf, nalType unit = 5 := by
  induction rounds generalizing buf with
  | zero => simp [keyframeUnit, splitUnits]
  | succ rounds ih =>
    by_cases hempty : buf = []
    · simp [keyframeUnit, splitUnits, hempty]
    · cases hnext : findStartCode buf with
      | none => simp [keyframeUnit, splitUnits, hempty, hnext]
      | some next =>
        simp only [keyframeUnit, splitUnits, hempty, hnext, if_false, Bool.or_eq_true, ih,
          decide_eq_true_eq, List.mem_append]
        by_cases hpos : 0 < next
        · simp [hpos, or_and_right, exists_or]
        · simp [hpos]

/-- A keyframe is a buffer with a unit of type 5. -/
theorem isKeyframe_iff (nal : Bytes) :
    isKeyframe nal = true ↔ ∃ unit ∈ splitNALUnits nal, nalType unit = 5 :=
  keyframeUnit_iff nal.length nal

def lengthPrefixed (n : Bytes) : Bytes := bigEndian 4 n.length++n

def encodeAVCCSample (annexB : Bytes) : Bytes :=
  let nals := splitNALUnits annexB
  let nals := if nals = [] then [annexB] else nals
  (nals.filter (· ≠ [])).flatMap lengthPrefixed

end Aevia.Whip
