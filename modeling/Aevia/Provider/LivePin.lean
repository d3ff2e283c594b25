import Aevia.Foundation.GoError
import Aevia.Provider.Manifest

/-!
# The live sink

Leaves, segments and parts of a live session as they are handed over. A part
or a segment whose index is not the next one is refused.
-/

set_option autoImplicit false

namespace Aevia.Whip
open Aevia.Manifests

structure PartRecord where
  index : UInt32
  bytes : Bytes
  durationT : UInt32
  independent : Bool
  deriving DecidableEq

/-- `initSeg` is empty as long as it is nil. -/
structure LivePinSink where
  leaves : List Bytes
  initSeg : Bytes
  segments : List Bytes
  parts : UInt32 → List PartRecord

def newLivePinSink : LivePinSink := ⟨[], [], [], fun _ => []⟩

namespace LivePinSink

def onInitSegment (l : LivePinSink) (bytes : Bytes) : Except GoError LivePinSink :=
  if l.initSeg ≠ [] then .error (.new "livepin: init segment already set")
  else .ok { l with initSeg := bytes }

def onMediaSegment (l : LivePinSink) (index : UInt32) (bytes : Bytes) :
    Except GoError LivePinSink :=
  if UInt32.ofNat l.leaves.length ≠ index then
    .error (.errorf "livepin: segment index %d != expected %d"
      [.int index.toNat, .int l.leaves.length])
  else .ok { l with
    leaves := l.leaves++[hashLeaf bytes]
    segments := l.segments++[bytes] }

def onMediaPart (l : LivePinSink) (segIdx partIdx : UInt32) (bytes : Bytes)
    (durationT : UInt32) (independent : Bool) : Except GoError LivePinSink :=
  let existing := l.parts segIdx
  if UInt32.ofNat existing.length ≠ partIdx then
    .error (.errorf "livepin: part idx %d != expected %d for segment %d"
      [.int partIdx.toNat, .int existing.length, .int segIdx.toNat])
  else .ok { l with
    parts := Function.update l.parts segIdx
      (existing++[⟨partIdx, bytes, durationT, independent⟩]) }

end LivePinSink

end Aevia.Whip
