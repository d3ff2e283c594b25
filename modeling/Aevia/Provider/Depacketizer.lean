import Aevia.Foundation.Run
import Aevia.Provider.Frames

/-!
# The sequence-aware depacketizer

A large unit travels in fragments, which the codec gathers in one buffer until
the last has come. The wrapper looks at sequence numbers and takes a new codec
where a middle or last fragment does not come right after the packet before it.
-/

set_option autoImplicit false

namespace Aevia.Mirror
open Aevia.Bytes Aevia.Run Aevia.Whip

/-- The package's `H264Packet`: a new one, and `Unmarshal`, which may fail. -/
structure H264Codec (σ : Type) where
  new : σ
  unmarshal : σ → Bytes → Option Bytes × σ

def fuaNALType : UInt8 := 28

def isFUAMidOrEnd : Bytes → Bool
  | indicator::header::_ => indicator &&& 0x1F = fuaNALType ∧ header &&& 0x80 = 0
  | _ => false

structure H264SeqAwareDepacketizer (σ : Type) where
  inner : σ
  hasLast : Bool
  lastSeq : UInt16
  dropCount : UInt64

structure Depacketized where
  nal : Bytes
  ok : Bool
  dropped : Bool
  deriving DecidableEq

section Wrapper
variable {σ : Type} (codec : H264Codec σ)

def newH264SeqAwareDepacketizer : H264SeqAwareDepacketizer σ := ⟨codec.new, false, 0, 0⟩

/-- A fragment other than the first of its unit, not right after the last packet. -/
def gap (d : H264SeqAwareDepacketizer σ) (seq : UInt16) (payload : Bytes) : Bool :=
  d.hasLast && isFUAMidOrEnd payload && seq ≠ d.lastSeq+1

def depacketize (d : H264SeqAwareDepacketizer σ) (seq : UInt16) (payload : Bytes) :
    Depacketized × H264SeqAwareDepacketizer σ :=
  if gap d seq payload then
    (⟨[], true, true⟩, ⟨codec.new, true, seq, d.dropCount+1⟩)
  else
    let next : H264SeqAwareDepacketizer σ :=
      ⟨(codec.unmarshal d.inner payload).2, true, seq, d.dropCount⟩
    match (codec.unmarshal d.inner payload).1 with
    | none => (⟨[], false, false⟩, next)
    | some nal => (⟨nal, true, false⟩, next)

theorem depacketize_gap (d : H264SeqAwareDepacketizer σ) (seq : UInt16) (payload : Bytes)
    (h : gap d seq payload = true) :
    depacketize codec d seq payload = (⟨[], true, true⟩, ⟨codec.new, true, seq, d.dropCount+1⟩) :=
  if_pos h

theorem depacketize_next (d : H264SeqAwareDepacketizer σ) (seq : UInt16) (payload : Bytes)
    (h : gap d seq payload = false) :
    depacketize codec d seq payload =
      (⟨(codec.unmarshal d.inner payload).1.getD [], (codec.unmarshal d.inner payload).1.isSome, false⟩,
        ⟨(codec.unmarshal d.inner payload).2, true, seq, d.dropCount⟩) := by
  unfold depacketize
  rw [h]
  cases (codec.unmarshal d.inner payload).1 <;> rfl

end Wrapper

section Fragments

/-- A fragment of a unit: the byte that says so, the byte with the start bit, the
end bit and the type of the unit, and a piece of the unit. -/
structure FUA where
  seq : UInt16
  indicator : UInt8
  header : UInt8
  body : Bytes
  isFUA : indicator &&& 0x1F = fuaNALType
  deriving DecidableEq

namespace FUA

def payload (f : FUA) : Bytes := f.indicator::f.header::f.body

def isStart (f : FUA) : Bool := f.header &&& 0x80 ≠ 0

def isEnd (f : FUA) : Bool := f.header &&& 0x40 ≠ 0

def nalType (f : FUA) : UInt8 := f.header &&& 0x1F

def nalHeader (f : FUA) : UInt8 := (f.indicator &&& 0x60) ||| f.nalType

end FUA

def fragment (seq : UInt16) : Bytes → Option FUA
  | indicator::header::body =>
    if h : indicator &&& 0x1F = fuaNALType then some ⟨seq, indicator, header, body, h⟩ else none
  | _ => none

theorem fragment_payload (f : FUA) : fragment f.seq f.payload = some f := dif_pos f.isFUA

theorem fragment_some (seq : UInt16) (payload : Bytes) (f : FUA)
    (h : fragment seq payload = some f) : f.seq = seq ∧ f.payload = payload := by
  fun_cases fragment seq payload with
  | case1 indicator header body hkind =>
    rw [fragment, dif_pos hkind] at h
    obtain rfl := Option.some.inj h
    exact ⟨rfl,rfl⟩
  | case2 indicator header body hkind =>
    rw [fragment, dif_neg hkind] at h
    cases h
  | case3 _ hshort =>
    rw [fragment] at h
    · cases h
    · exact hshort

theorem fragment_none (seq : UInt16) (payload : Bytes) (h : fragment seq payload = none) (f : FUA) :
    f.payload ≠ payload := by
  rintro rfl
  have hf := fragment_payload ⟨seq, f.indicator, f.header, f.body, f.isFUA⟩
  exact absurd (h.symm.trans hf) nofun

theorem isFUAMidOrEnd_none (seq : UInt16) (payload : Bytes) (h : fragment seq payload = none) :
    isFUAMidOrEnd payload = false := by
  fun_cases fragment seq payload with
  | case1 indicator header body hkind =>
    rw [fragment, dif_pos hkind] at h
    cases h
  | case2 indicator header body hkind => simp [isFUAMidOrEnd, hkind]
  | case3 _ hshort =>
    rw [isFUAMidOrEnd]
    exact hshort

theorem isFUAMidOrEnd_payload (f : FUA) : isFUAMidOrEnd f.payload = !f.isStart := by
  unfold isFUAMidOrEnd FUA.payload FUA.isStart
  by_cases h : f.header &&& 0x80 = 0 <;> simp [f.isFUA, h]

/-- What the codec does with fragments: it appends what each carries to one
buffer, and at the end bit gives the unit, after a start code, and clears the
buffer. Nothing else touches the buffer. -/
structure Reassembles {σ : Type} (codec : H264Codec σ) (buffer : σ → Bytes) : Prop where
  new : buffer codec.new = []
  append : ∀ s (f : FUA), f.isEnd = false → (codec.unmarshal s f.payload).1 = some [] ∧
    buffer (codec.unmarshal s f.payload).2 = buffer s++f.body
  emit : ∀ s (f : FUA), f.isEnd = true →
    (codec.unmarshal s f.payload).1 = some (startCode++f.nalHeader::(buffer s++f.body)) ∧
    buffer (codec.unmarshal s f.payload).2 = []
  other : ∀ s payload, (∀ f : FUA, f.payload ≠ payload) →
    buffer (codec.unmarshal s payload).2 = buffer s

def plainCodec : H264Codec Bytes where
  new := []
  unmarshal held payload := match fragment 0 payload with
    | some f =>
      if f.isEnd then (some (startCode++f.nalHeader::(held++f.body)), [])
      else (some [], held++f.body)
    | none =>
      if 0 < nalType payload ∧ nalType payload < 24 then (some (startCode++payload), held)
      else (none, held)

theorem plainCodec_fragment (held : Bytes) (f : FUA) :
    plainCodec.unmarshal held f.payload =
      if f.isEnd then (some (startCode++f.nalHeader::(held++f.body)), [])
      else (some [], held++f.body) := by
  have hf : fragment 0 f.payload = some ⟨0, f.indicator, f.header, f.body, f.isFUA⟩ :=
    fragment_payload ⟨0, f.indicator, f.header, f.body, f.isFUA⟩
  simp only [plainCodec, hf]
  rfl

theorem plainCodec_reassembles : Reassembles plainCodec id where
  new := rfl
  append held f hend := by
    rw [plainCodec_fragment, hend]
    exact ⟨rfl,rfl⟩
  emit held f hend := by
    rw [plainCodec_fragment, hend]
    exact ⟨rfl,rfl⟩
  other held payload hother := by
    have hnone : fragment 0 payload = none := by
      cases hf : fragment 0 payload with
      | none => rfl
      | some f => exact absurd (fragment_some 0 payload f hf).2 (hother f)
    simp only [plainCodec, hnone]
    split_ifs <;> rfl

end Fragments

end Aevia.Mirror
