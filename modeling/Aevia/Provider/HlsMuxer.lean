import Aevia.Foundation.Run
import Aevia.Provider.NalUnits
import Aevia.Provider.Segmenter

/-!
# The HLS muxer

Frames of one timestamp are gathered into an access unit, which goes to the
gohlslib muxer when the timestamp changes or the muxer closes. An IDR unit
without its parameter sets gets the cached ones in front.
-/

set_option autoImplicit false

namespace Aevia.Whip
open Aevia.Run

/-- A call of `WriteH264`: the access unit is what is prepended and the units of the
frames. Times are in nanoseconds. -/
structure Write where
  ntp : ℤ
  pts : ℤ
  prepended : List Bytes
  nals : List Bytes
  deriving DecidableEq

def Write.au (w : Write) : List Bytes := w.prepended++w.nals

/-- The gohlslib muxer as far as it is told something. -/
structure GohlsMuxer where
  written : List Write
  closed : Bool

structure HLSMuxer where
  mux : GohlsMuxer
  spsCache : Bytes
  ppsCache : Bytes
  currentAU : List Bytes
  currentPTS : UInt32
  firstPTS : UInt32
  firstPTSSet : Bool
  startTime : ℤ
  frameCount : UInt64

/-- `sps` and `pps` are empty where the offer has none. -/
def newHLSMuxer (startTime : ℤ) (sps pps : Bytes) : HLSMuxer where
  mux := ⟨[], false⟩
  spsCache := sps
  ppsCache := pps
  currentAU := []
  currentPTS := 0
  firstPTS := 0
  firstPTSSet := false
  startTime := startTime
  frameCount := 0

structure Scan where
  hasIDR : Bool
  hasSPS : Bool
  hasPPS : Bool
  spsCache : Bytes
  ppsCache : Bytes

/-- A cache is filled once. -/
def scanUnit (s : Scan) (nal : Bytes) : Scan :=
  if nal = [] then s
  else if nalType nal = 5 then { s with hasIDR := true }
  else if nalType nal = 7 then
    { s with hasSPS := true, spsCache := if s.spsCache = [] then nal else s.spsCache }
  else if nalType nal = 8 then
    { s with hasPPS := true, ppsCache := if s.ppsCache = [] then nal else s.ppsCache }
  else s

def Scan.prepended (s : Scan) : List Bytes :=
  if s.hasIDR ∧ (s.hasSPS = false ∨ s.hasPPS = false) ∧ s.spsCache ≠ [] ∧ s.ppsCache ≠ [] then
    (if s.hasSPS then [] else [s.spsCache])++(if s.hasPPS then [] else [s.ppsCache])
  else []

def relPTS (pts firstPTS : UInt32) : ℤ := (pts-firstPTS).toInt32.toInt

namespace HLSMuxer

def scan (m : HLSMuxer) : Scan :=
  m.currentAU.foldl scanUnit ⟨false, false, false, m.spsCache, m.ppsCache⟩

def flushCurrentAULocked (m : HLSMuxer) : HLSMuxer :=
  if m.currentAU = [] then m
  else
    let pts := relPTS m.currentPTS m.firstPTS
    { m with
      spsCache := m.scan.spsCache
      ppsCache := m.scan.ppsCache
      mux := { m.mux with written := m.mux.written++[{
        ntp := m.startTime+(pts*1000000000).tdiv videoTimescale
        pts := pts
        prepended := m.scan.prepended
        nals := m.currentAU }] }
      frameCount := m.frameCount+1
      currentAU := [] }

/-- The first frame sets the origin of the presentation times. -/
def start (m : HLSMuxer) (f : VideoFrame) : HLSMuxer :=
  if m.firstPTSSet then m
  else { m with firstPTS := f.timestamp, currentPTS := f.timestamp, firstPTSSet := true }

def flushDue (m : HLSMuxer) (f : VideoFrame) : HLSMuxer :=
  if f.timestamp ≠ m.currentPTS ∧ 0 < m.currentAU.length then m.flushCurrentAULocked else m

def append (m : HLSMuxer) (f : VideoFrame) : HLSMuxer :=
  { m with currentAU := m.currentAU++splitAnnexBNALs f.nal, currentPTS := f.timestamp }

def onVideoFrame (m : HLSMuxer) (f : VideoFrame) : HLSMuxer :=
  ((m.start f).flushDue f).append f

def close (m : HLSMuxer) : HLSMuxer :=
  let m := m.flushCurrentAULocked
  { m with mux := { m.mux with closed := true } }

inductive Op where
  | onVideoFrame (f : VideoFrame)
  | close

def next (m : HLSMuxer) : Op → HLSMuxer
  | .onVideoFrame f => m.onVideoFrame f
  | .close => m.close

end HLSMuxer

end Aevia.Whip
