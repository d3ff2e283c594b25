import Aevia.Foundation.Run
import Aevia.Provider.MirrorFeed
import Aevia.Provider.MirrorTruncation

/-!
# The sink of a mirror stream

The pump of a session hands packets to the sink, which takes them into a bounded
channel or refuses them; its loop takes them out and writes them between its probes, and
ends when the session does, when a write fails or when the sweep asks for it. The link
may break in the middle of any write. What arrives is read as the packets that were
taken, in their order.
-/

set_option autoImplicit false

namespace Aevia.Mirror.Sink
open Aevia.Bytes Aevia.ByteReader Aevia.Run

section Links

/-- A link with what it has taken, and how much more it takes if it is to break. -/
structure Link where
  bytes : Bytes
  room : Option ℕ
  deriving DecidableEq

def errReset : GoError := .new "stream reset"

namespace Link
variable (l : Link)

def Fits (b : Bytes) : Prop := ∀ r, l.room = some r → b.length ≤ r

instance (b : Bytes) : Decidable (l.Fits b) :=
  match h : l.room with
  | none => .isTrue (by simp [Fits, h])
  | some r => decidable_of_iff (b.length ≤ r) (by simp [Fits, h])

def put (b : Bytes) : Link where
  bytes := l.bytes++match l.room with
    | none => b
    | some r => b.take r
  room := l.room.map (fun r => r-b.length)

def write : Writer Link := fun l b => if l.Fits b then .ok (l.put b) else .error errReset

def breaks (room : ℕ) : Link := { l with room := some (min room (l.room.getD room)) }

theorem put_nil : l.put [] = l := by
  cases l with
  | mk bytes room => cases room <;> simp [put]

theorem put_append (a b : Bytes) (ha : l.Fits a) : (l.put a).put b = l.put (a++b) := by
  cases l with
  | mk bytes room =>
    cases room with
    | none => simp [put]
    | some r =>
      have hlen : a.length ≤ r := ha r rfl
      simp [put, List.take_append, List.take_of_length_le hlen, Nat.sub_add_eq]

theorem fits_append (a b : Bytes) : l.Fits (a++b) ↔ l.Fits a ∧ (l.put a).Fits b := by
  cases l with
  | mk bytes room =>
    cases room with
    | none => simp [Fits, put]
    | some r =>
      simp only [Fits, put, Option.map_some, Option.some.injEq, forall_eq', List.length_append]
      omega

theorem fits_nil : l.Fits [] := fun _ _ => Nat.zero_le _

theorem write_ok (format : String) (b : Bytes) (l' : Link) :
    GoError.context format (write l b) = .ok l' ↔ l.Fits b ∧ l.put b = l' := by
  rw [GoError.context_ok, write]
  by_cases h : l.Fits b
  · simp [h]
  · simp [h]

theorem writeFrame_ok (l' : Link) (ft : FrameType) (framePrefix body : Bytes) :
    writeFrame write l ft framePrefix body = .ok l' ↔
      l.Fits (frameBytes ft framePrefix body) ∧ l.put (frameBytes ft framePrefix body) = l' := by
  have hsplit : frameBytes ft framePrefix body =
      (ft::bigEndian 4 body.length)++(framePrefix++body) := rfl
  rw [hsplit, fits_append, fits_append, and_assoc, and_assoc]
  -- the writes that are left out are those of nothing
  by_cases hfront : framePrefix = [] <;> by_cases hbody : body = [] <;>
    simp only [writeFrame, hfront, hbody, Fallible.bind_ok, write_ok, if_true, if_false, and_assoc,
      exists_and_left, exists_eq_left', Except.ok.injEq, fits_nil, true_and, List.nil_append,
      List.append_nil]
  all_goals
    refine and_congr_right (fun ha => ?_)
    simp only [put_nil, ← put_append _ _ _ ha]
  refine and_congr_right (fun hb => ?_)
  rw [← put_append _ _ _ hb]

end Link

end Links

section Model
variable {π : Type}

inductive Media where
  | video
  | audio
  deriving DecidableEq

def Media.frameType : Media → FrameType
  | video => frameTypeVideoRTP
  | audio => frameTypeAudioRTP

structure FrameOut (π : Type) where
  kind : Media
  ts : Int64
  pkt : π
  deriving DecidableEq

/-- Where the loop is: it has returned, has written the close frame and closed the
stream, and has closed the `closed` channel. -/
inductive Phase where
  | looping
  | returned
  | streamClosed
  | closed
  deriving DecidableEq

structure StreamSink (π : Type) where
  ch : List (FrameOut π)
  link : Link
  phase : Phase
  dropRequested : Bool

inductive Event (π : Type) where
  | enqueue (out : FrameOut π) (seesClosed : Bool)
  | drain
  | sendProbe (p : ProbeFrame)
  | sweep (requests : Bool)
  | done
  | closeStream
  | close
  /-- The link is going to break after that many more bytes. -/
  | breaks (room : ℕ)

inductive Note (π : Type) where
  | accepted (out : FrameOut π)
  | refused (out : FrameOut π) (err : GoError)
  | drained (out : FrameOut π)
  | sent (f : Sent)

def errClosedPipe : GoError := .new "io: read/write on closed pipe"
def errShortBuffer : GoError := .new "short buffer"

def newStreamSink (h : Header) (room : Option ℕ) : StreamSink π :=
  ⟨[], ⟨frameBytes frameTypeHeader [] (headerJson h).print, room⟩, .looping, false⟩

-- The capacity of the channel, and a packet's form on the wire unless it has none.
variable (buf : ℕ) (marshal : π → Option Bytes)

def Media.sent (ts : Int64) (packet : Packet) : Media → Sent
  | video => .video ts packet
  | audio => .audio ts packet

def FrameOut.frame (out : FrameOut π) : Option Sent :=
  match marshal out.pkt with
  | none => none
  | some raw =>
    if h : raw.length ≤ maxFrameBytes then some (out.kind.sent out.ts ⟨raw, h⟩) else none

def FrameOut.marshals (out : FrameOut π) : Bool := (marshal out.pkt).isSome

def FrameOut.Oversized (out : FrameOut π) : Prop :=
  ∃ raw, marshal out.pkt = some raw ∧ maxFrameBytes < raw.length

namespace StreamSink
variable (s : StreamSink π)

/-- With a closed channel and room in the other the choice is random. -/
def enqueue (out : FrameOut π) (seesClosed : Bool) : StreamSink π × List (Note π) :=
  if s.phase = .closed ∧ (seesClosed = true ∨ buf ≤ s.ch.length) then (s, [.refused out errClosedPipe])
  else if s.ch.length < buf then ({ s with ch := s.ch++[out] }, [.accepted out])
  else (s, [.refused out errShortBuffer])

/-- A failed write, of which the link has taken what it could. -/
def writeFailed (written : Bytes) : StreamSink π :=
  { s with link := s.link.put written, dropRequested := true, phase := .returned }

def drain : StreamSink π × List (Note π) :=
  match s.ch with
  | [] => (s, [])
  | out::rest =>
    match marshal out.pkt with
    | none => ({ s with ch := rest }, [.drained out])
    | some raw =>
      match writeRTPFrame Link.write s.link out.kind.frameType out.ts raw with
      | .ok link =>
        ({ s with ch := rest, link := link }, .drained out::((out.frame marshal).toList.map .sent))
      | .error _ =>
        (({ s with ch := rest } : StreamSink π).writeFailed
          (((out.frame marshal).map Sent.encode).getD []), [.drained out])

def sendProbe (p : ProbeFrame) : StreamSink π × List (Note π) :=
  match writeProbe Link.write s.link p with
  | .ok link => ({ s with link := link }, [.sent (.probe p)])
  | .error _ => (s.writeFailed (Sent.probe p).encode, [])

/-- The losses and the drift are looked at in one tick. -/
def sweep (requests : Bool) : StreamSink π :=
  let dropRequested := s.dropRequested || requests
  { s with dropRequested := dropRequested, phase := if dropRequested then .returned else s.phase }

/-- The error of the close frame is not looked at. -/
def closeStream : StreamSink π :=
  match writeCloseFrame Link.write s.link with
  | .ok link => { s with link := link, phase := .streamClosed }
  | .error _ => { s with link := s.link.put (frameBytes frameTypeClose [] []), phase := .streamClosed }

/-- The loop takes part in its own events only while it loops. -/
def step : Event π → StreamSink π × List (Note π)
  | .enqueue out seesClosed => s.enqueue buf out seesClosed
  | .breaks room => ({ s with link := s.link.breaks room }, [])
  | .drain => if s.phase = .looping then s.drain marshal else (s, [])
  | .sendProbe p => if s.phase = .looping then s.sendProbe p else (s, [])
  | .sweep requests => (if s.phase = .looping then s.sweep requests else s, [])
  | .done => (if s.phase = .looping then { s with phase := .returned } else s, [])
  | .closeStream => (if s.phase = .returned then s.closeStream else s, [])
  | .close => (if s.phase = .streamClosed then { s with phase := .closed } else s, [])

end StreamSink

def history (h : Header) (room : Option ℕ) (events : List (Event π)) :
    Logged (StreamSink π) (Note π) :=
  run (logged (fun s e => (s.step buf marshal e).1) (fun s e => (s.step buf marshal e).2))
    ⟨newStreamSink h room, []⟩ events

end Model

section Logs
variable {π : Type} (log notes : List (Note π))

def Note.acceptedFrame : Note π → Option (FrameOut π)
  | .accepted out => some out
  | _ => none

def Note.drainedFrame : Note π → Option (FrameOut π)
  | .drained out => some out
  | _ => none

def Note.sentFrame : Note π → Option Sent
  | .sent f => some f
  | _ => none

def accepted : List (FrameOut π) := log.filterMap Note.acceptedFrame
def drained : List (FrameOut π) := log.filterMap Note.drainedFrame
def sent : List Sent := log.filterMap Note.sentFrame

theorem accepted_append : accepted (log++notes) = accepted log++accepted notes := List.filterMap_append
theorem drained_append : drained (log++notes) = drained log++drained notes := List.filterMap_append
theorem sent_append : sent (log++notes) = sent log++sent notes := List.filterMap_append

def isMedia : Sent → Bool
  | .video _ _ => true
  | .audio _ _ => true
  | _ => false

end Logs

section Frames
variable {π : Type} (marshal : π → Option Bytes) (l l' : Link)

theorem writeProbe_ok (p : ProbeFrame) : writeProbe Link.write l p = .ok l' ↔
    l.Fits (Sent.probe p).encode ∧ l.put (Sent.probe p).encode = l' :=
  l.writeFrame_ok l' frameTypeProbe [] (marshalProbeBody p)

theorem writeCloseFrame_ok : writeCloseFrame Link.write l = .ok l' ↔
    l.Fits (frameBytes frameTypeClose [] []) ∧ l.put (frameBytes frameTypeClose [] []) = l' :=
  l.writeFrame_ok l' frameTypeClose [] []

theorem writeRTPFrame_ok (out : FrameOut π) (raw : Bytes) (hraw : marshal out.pkt = some raw) :
    writeRTPFrame Link.write l out.kind.frameType out.ts raw = .ok l' ↔
      ∃ f, out.frame marshal = some f ∧ isMedia f = true ∧ l.Fits f.encode ∧ l.put f.encode = l' := by
  have hkind : ¬(out.kind.frameType ≠ frameTypeVideoRTP ∧ out.kind.frameType ≠ frameTypeAudioRTP) := by
    cases out.kind <;> simp [Media.frameType]
  rw [writeRTPFrame, if_neg hkind, FrameOut.frame, hraw]
  by_cases hfits : raw.length ≤ maxFrameBytes
  · have hencode : (out.kind.sent out.ts ⟨raw, hfits⟩).encode =
        frameBytes out.kind.frameType (originBytes out.ts) raw := by
      cases out.kind <;> rfl
    have hmedia : isMedia (out.kind.sent out.ts ⟨raw, hfits⟩) = true := by
      cases out.kind <;> rfl
    rw [if_neg (Nat.not_lt.mpr hfits)]
    simp only [hfits, dif_pos, Option.some.injEq, exists_eq_left', hencode, hmedia, true_and]
    exact l.writeFrame_ok l' _ _ _
  · rw [if_pos (Nat.lt_of_not_le hfits)]
    simp [hfits]

end Frames

section Invariant
variable {π : Type} (buf : ℕ) (marshal : π → Option Bytes)

def closeBytes : Bytes := frameBytes frameTypeClose [] []

def Cut (room : Option ℕ) (tail : Bytes) : Prop :=
  room = some 0 ∧ ∃ (f : Sent) (k : ℕ), k < f.encode.length ∧ tail = f.encode.take k

def Tail (room : Option ℕ) (tail : Bytes) : Phase → Prop
  | .looping => tail = []
  | .returned => tail = [] ∨ Cut room tail
  | .streamClosed | .closed =>
    Cut room tail ∨ ∃ k, tail = closeBytes.take k ∧ (room = none → tail = closeBytes)

theorem Tail.breaks (l : Link) (tail : Bytes) (phase : Phase) (n : ℕ) (h : Tail l.room tail phase) :
    Tail (l.breaks n).room tail phase := by
  have hcut : Cut l.room tail → Cut (l.breaks n).room tail := by
    rintro ⟨hroom, hframe⟩
    refine ⟨?_, hframe⟩
    simp [Link.breaks, hroom]
  cases phase with
  | looping => exact h
  | returned => exact h.imp_right hcut
  | streamClosed | closed =>
    rcases h with h | ⟨k, hk, -⟩
    · exact .inl (hcut h)
    · exact .inr ⟨k,hk,fun hnone => nomatch hnone⟩

theorem FrameOut.oversized_frame (out : FrameOut π) (h : out.Oversized marshal) :
    out.frame marshal = none := by
  obtain ⟨raw, hraw, hlong⟩ := h
  rw [FrameOut.frame, hraw]
  exact dif_neg (Nat.not_le.mpr hlong)

theorem FrameOut.oversized_of_frame (out : FrameOut π) (raw : Bytes)
    (hraw : marshal out.pkt = some raw) (hnone : out.frame marshal = none) :
    out.Oversized marshal := by
  refine ⟨raw, hraw, ?_⟩
  rw [FrameOut.frame, hraw] at hnone
  by_contra hle
  simp [Nat.le_of_not_lt hle] at hnone

theorem FrameOut.frame_isMedia (out : FrameOut π) (f : Sent) (hf : out.frame marshal = some f) :
    isMedia f = true := by
  unfold FrameOut.frame at hf
  split at hf
  · cases hf
  · split_ifs at hf
    cases hf
    cases out.kind <;> rfl

theorem filterMap_frame (d kept lost : List (FrameOut π)) (media : List Sent)
    (horder : d.filter (FrameOut.marshals marshal) = kept++lost)
    (hkept : kept.map (FrameOut.frame marshal) = media.map some)
    (hlost : ∀ out ∈ lost, out.frame marshal = none) :
    d.filterMap (FrameOut.frame marshal) = media := by
  have hmarshals : d.filterMap (FrameOut.frame marshal) =
      (d.filter (FrameOut.marshals marshal)).filterMap (FrameOut.frame marshal) := by
    rw [List.filterMap_filter]
    refine List.filterMap_congr (fun out _ => ?_)
    unfold FrameOut.marshals FrameOut.frame
    cases marshal out.pkt <;> rfl
  have hframes : kept.filterMap (FrameOut.frame marshal) = media := by
    have hids : (kept.map (FrameOut.frame marshal)).filterMap id =
        (media.map some).filterMap id := by rw [hkept]
    rwa [List.filterMap_map, List.filterMap_map, Function.id_comp, Function.id_comp,
      List.filterMap_some] at hids
  rw [hmarshals, horder, List.filterMap_append, hframes, List.filterMap_eq_nil_iff.mpr hlost,
    List.append_nil]

theorem put_cut (l : Link) (b : Bytes) (h : ¬l.Fits b) : ∃ k < b.length,
    (l.put b).bytes = l.bytes++b.take k ∧ (l.put b).room = some 0 := by
  cases l with
  | mk bytes room =>
    cases room with
    | none => exact absurd (fun _ hr => nomatch hr) h
    | some r =>
      have hlt : r < b.length := by
        by_contra hle
        exact h (fun r' hr' => by cases hr'; omega)
      refine ⟨r, hlt, rfl, ?_⟩
      show some (r-b.length) = some 0
      rw [Nat.sub_eq_zero_of_le (by omega)]

/-- Packets leave the channel in the order in which they were taken. Those that marshal
are on the link, but for one that broke it or that is too long for a frame, and nothing
else is. -/
structure Carried (header : Bytes) (s : StreamSink π) (accepted drained : List (FrameOut π))
    (sent : List Sent) : Prop where
  bounded : s.ch.length ≤ buf
  fifo : accepted = drained++s.ch
  wire : ∃ tail, s.link.bytes = header++(sent.flatMap Sent.encode++tail) ∧
    Tail s.link.room tail s.phase
  order : ∃ kept lost, drained.filter (FrameOut.marshals marshal) = kept++lost ∧
    kept.map (FrameOut.frame marshal) = (sent.filter isMedia).map some ∧ lost.length ≤ 1 ∧
    ∀ out ∈ lost, s.phase ≠ .looping ∧ s.dropRequested = true ∧
      (s.link.room = some 0 ∨ out.Oversized marshal)

variable {buf marshal} {header : Bytes} {s : StreamSink π} {a d : List (FrameOut π)} {fs : List Sent}
  (h : Carried buf marshal header s a d fs)

include h in
theorem Carried.looping (hloop : s.phase = .looping) :
    (d.filter (FrameOut.marshals marshal)).map (FrameOut.frame marshal) =
        (fs.filter isMedia).map some ∧
      s.link.bytes = header++fs.flatMap Sent.encode := by
  obtain ⟨kept, lost, horder, hkept, -, hlost⟩ := h.order
  obtain ⟨tail, hbytes, htail⟩ := h.wire
  have hnone : lost = [] :=
    List.eq_nil_iff_forall_not_mem.mpr (fun out hout => (hlost out hout).1 hloop)
  constructor
  · rw [horder, hnone, List.append_nil, hkept]
  · rw [hloop] at htail
    obtain rfl : tail = [] := htail
    rw [hbytes, List.append_nil]

def Keeps (buf : ℕ) (marshal : π → Option Bytes) (header : Bytes) (a d : List (FrameOut π))
    (fs : List Sent) (moved : StreamSink π × List (Note π)) : Prop :=
  Carried buf marshal header moved.1 (a++accepted moved.2) (d++drained moved.2) (fs++sent moved.2)

theorem keeps_of {s' : StreamSink π} {a' d' : List (FrameOut π)} {fs' : List Sent}
    (h : Carried buf marshal header s' a' d' fs') (notes : List (Note π))
    (ha : a++accepted notes = a') (hd : d++drained notes = d') (hfs : fs++sent notes = fs') :
    Keeps buf marshal header a d fs (s', notes) := by
  unfold Keeps
  rw [ha, hd, hfs]
  exact h

include h in
theorem Carried.still (notes : List (Note π))
    (hnotes : accepted notes = [] ∧ drained notes = [] ∧ sent notes = []) :
    Keeps buf marshal header a d fs (s, notes) := by
  obtain ⟨haccepted, hdrained, hsent⟩ := hnotes
  apply keeps_of h notes
  · rw [haccepted, List.append_nil]
  · rw [hdrained, List.append_nil]
  · rw [hsent, List.append_nil]

include h in
theorem Carried.enqueue (out : FrameOut π) (seesClosed : Bool) :
    Keeps buf marshal header a d fs (s.enqueue buf out seesClosed) := by
  unfold StreamSink.enqueue
  split_ifs with hclosed hroom
  · exact h.still _ ⟨rfl,rfl,rfl⟩
  · constructor
    · simpa using hroom
    · show a++[out] = (d++[])++(s.ch++[out])
      rw [List.append_nil, h.fifo, List.append_assoc]
    · have hsent : fs++sent [Note.accepted out] = fs := List.append_nil fs
      rw [hsent]
      exact h.wire
    · have hsent : fs++sent [Note.accepted out] = fs := List.append_nil fs
      have hdrained : d++drained [Note.accepted out] = d := List.append_nil d
      rw [hsent, hdrained]
      exact h.order
  · exact h.still _ ⟨rfl,rfl,rfl⟩

include h in
theorem Carried.breaks (room : ℕ) : Carried buf marshal header
    { s with link := s.link.breaks room } a d fs := by
  obtain ⟨kept, lost, horder, hkept, hone, hlost⟩ := h.order
  obtain ⟨tail, hbytes, htail⟩ := h.wire
  refine ⟨h.bounded, h.fifo, ⟨tail,hbytes,htail.breaks _ _ _ room⟩, kept, lost, horder, hkept,
    hone, ?_⟩
  intro out hout
  obtain ⟨hphase, hdrop, hwhy⟩ := hlost out hout
  exact ⟨hphase,hdrop,hwhy.imp_left (fun hroom => by simp [Link.breaks, hroom])⟩

include h in
theorem Carried.taken (out rest : List (FrameOut π)) (hch : s.ch = out++rest) :
    rest.length ≤ buf ∧ a = (d++out)++rest := by
  constructor
  · have hbounded := h.bounded
    rw [hch, List.length_append] at hbounded
    omega
  · rw [h.fifo, hch, List.append_assoc]

include h in
theorem Carried.writeFailed (hloop : s.phase = .looping) (f : Sent) (hfits : ¬s.link.Fits f.encode)
    (out : List (FrameOut π)) (rest : List (FrameOut π)) (hch : s.ch = out++rest)
    (hout : out.length ≤ 1) :
    Carried buf marshal header (({ s with ch := rest } : StreamSink π).writeFailed f.encode) a
      (d++out) fs := by
  obtain ⟨horder, hbytes⟩ := h.looping hloop
  obtain ⟨k, hk, hput, hroom⟩ := put_cut s.link f.encode hfits
  obtain ⟨hbounded, hfifo⟩ := h.taken out rest hch
  refine ⟨hbounded, hfifo, ?_, ?_⟩
  · refine ⟨f.encode.take k, ?_, .inr ⟨hroom,f,k,hk,rfl⟩⟩
    show (s.link.put f.encode).bytes = _
    rw [hput, hbytes, List.append_assoc]
  · exact ⟨_,out.filter (FrameOut.marshals marshal),List.filter_append _ _,horder,
      (List.length_filter_le _ _).trans hout,fun _ _ => ⟨nofun,rfl,.inl hroom⟩⟩

include h in
theorem Carried.written (hloop : s.phase = .looping) (f : Sent) (hfits : s.link.Fits f.encode)
    (out : List (FrameOut π)) (rest : List (FrameOut π)) (hch : s.ch = out++rest)
    (hout : (out.filter (FrameOut.marshals marshal)).map (FrameOut.frame marshal) =
      if isMedia f then [some f] else []) :
    Carried buf marshal header { s with ch := rest, link := s.link.put f.encode } a (d++out)
      (fs++[f]) := by
  obtain ⟨horder, hbytes⟩ := h.looping hloop
  have hput : (s.link.put f.encode).bytes = s.link.bytes++f.encode := by
    unfold Link.put
    split
    · rfl
    · rename_i r hr
      rw [List.take_of_length_le (hfits r hr)]
  obtain ⟨hbounded, hfifo⟩ := h.taken out rest hch
  refine ⟨hbounded, hfifo, ?_, ?_⟩
  · refine ⟨[], ?_, ?_⟩
    · show (s.link.put f.encode).bytes = _
      rw [hput, hbytes, List.flatMap_append, List.flatMap_singleton, List.append_nil,
        List.append_assoc]
    · show Tail _ [] s.phase
      rw [hloop]
      rfl
  · refine ⟨_, [], (List.append_nil _).symm, ?_, Nat.zero_le 1, nofun⟩
    rw [List.filter_append, List.map_append, horder, hout, List.filter_append]
    cases hm : isMedia f <;> simp [hm]

include h in
theorem Carried.skipped (out : FrameOut π) (rest : List (FrameOut π)) (hch : s.ch = out::rest)
    (hraw : marshal out.pkt = none) :
    Carried buf marshal header { s with ch := rest } a (d++[out]) fs := by
  have hskipped : [out].filter (FrameOut.marshals marshal) = [] := by
    simp [FrameOut.marshals, hraw]
  obtain ⟨hbounded, hfifo⟩ := h.taken [out] rest hch
  refine ⟨hbounded, hfifo, ?_, ?_⟩
  · exact h.wire
  · rw [List.filter_append, hskipped, List.append_nil]
    exact h.order

include h in
/-- Nothing is written of a packet that is too long. -/
theorem Carried.tooLong (hloop : s.phase = .looping) (out : FrameOut π) (rest : List (FrameOut π))
    (hch : s.ch = out::rest) (hlong : out.Oversized marshal) :
    Carried buf marshal header (({ s with ch := rest } : StreamSink π).writeFailed []) a
      (d++[out]) fs := by
  obtain ⟨horder, hbytes⟩ := h.looping hloop
  have hmarshals : out.marshals marshal = true := by
    obtain ⟨raw, hraw, -⟩ := hlong
    rw [FrameOut.marshals, hraw]
    rfl
  obtain ⟨hbounded, hfifo⟩ := h.taken [out] rest hch
  refine ⟨hbounded, hfifo, ?_, ?_⟩
  · refine ⟨[], ?_, .inl rfl⟩
    rw [StreamSink.writeFailed, Link.put_nil, List.append_nil]
    exact hbytes
  · refine ⟨_, [out], ?_, horder, le_rfl, ?_⟩
    · rw [List.filter_append, List.filter_singleton, hmarshals]
      rfl
    · intro lost hlost
      rw [List.mem_singleton.mp hlost]
      exact ⟨nofun,rfl,.inr hlong⟩

include h in
theorem Carried.drain (hloop : s.phase = .looping) :
    Keeps buf marshal header a d fs (s.drain marshal) := by
  unfold StreamSink.drain
  cases hch : s.ch with
  | nil => exact h.still [] ⟨rfl,rfl,rfl⟩
  | cons out rest =>
    dsimp only
    cases hraw : marshal out.pkt with
    | none =>
      exact keeps_of (h.skipped out rest hch hraw) [.drained out] (List.append_nil a) rfl
        (List.append_nil fs)
    | some raw =>
      dsimp only
      cases hwrite : writeRTPFrame Link.write s.link out.kind.frameType out.ts raw with
      | ok link =>
        obtain ⟨f, hf, hmedia, hfits, rfl⟩ :=
          (writeRTPFrame_ok marshal s.link link out raw hraw).mp hwrite
        have hcarried := h.written hloop f hfits [out] rest hch (by
          simp [FrameOut.marshals, hraw, hf, hmedia])
        dsimp only
        rw [hf]
        exact keeps_of hcarried [.drained out, .sent f] (List.append_nil a) rfl rfl
      | error e =>
        suffices hcarried : Carried buf marshal header
            (({ s with ch := rest } : StreamSink π).writeFailed
              (((out.frame marshal).map Sent.encode).getD [])) a (d++[out]) fs from
          keeps_of hcarried [.drained out] (List.append_nil a) rfl (List.append_nil fs)
        cases hf : out.frame marshal with
        | none => exact h.tooLong hloop out rest hch (out.oversized_of_frame marshal raw hraw hf)
        | some f =>
          have hfits : ¬s.link.Fits f.encode := by
            intro hfits
            have hok := (writeRTPFrame_ok marshal s.link _ out raw hraw).mpr
              ⟨f,hf,out.frame_isMedia marshal f hf,hfits,rfl⟩
            rw [hwrite] at hok
            cases hok
          exact h.writeFailed hloop f hfits [out] rest hch le_rfl

include h in
theorem Carried.sendProbe (hloop : s.phase = .looping) (p : ProbeFrame) :
    Keeps buf marshal header a d fs (s.sendProbe p) := by
  unfold StreamSink.sendProbe
  cases hwrite : writeProbe Link.write s.link p with
  | ok link =>
    obtain ⟨hfits, rfl⟩ := (writeProbe_ok s.link link p).mp hwrite
    have hcarried := h.written hloop (.probe p) hfits [] s.ch rfl rfl
    exact keeps_of hcarried [.sent (.probe p)] (List.append_nil a) rfl rfl
  | error e =>
    have hfits : ¬s.link.Fits (Sent.probe p).encode := by
      intro hfits
      have hok := (writeProbe_ok s.link _ p).mpr ⟨hfits,rfl⟩
      rw [hwrite] at hok
      cases hok
    have hcarried := h.writeFailed hloop (.probe p) hfits [] s.ch rfl (Nat.zero_le 1)
    exact keeps_of hcarried [] (List.append_nil a) rfl (List.append_nil fs)

include h in
theorem Carried.returned (hloop : s.phase = .looping) (dropRequested : Bool) :
    Carried buf marshal header { s with phase := .returned, dropRequested := dropRequested } a d fs := by
  obtain ⟨horder, hbytes⟩ := h.looping hloop
  exact ⟨h.bounded,h.fifo,⟨[],by rw [List.append_nil]; exact hbytes,.inl rfl⟩,
    ⟨_,[],(List.append_nil _).symm,horder,Nat.zero_le 1,nofun⟩⟩

include h in
theorem Carried.sweep (hloop : s.phase = .looping) (requests : Bool) :
    Carried buf marshal header (s.sweep requests) a d fs := by
  unfold StreamSink.sweep
  cases hdrop : s.dropRequested || requests with
  | true => exact h.returned hloop true
  | false =>
    obtain ⟨horder, hbytes⟩ := h.looping hloop
    exact ⟨h.bounded,h.fifo,h.wire,_,[],(List.append_nil _).symm,horder,Nat.zero_le 1,nofun⟩

include h in
theorem Carried.closeStream (hreturned : s.phase = .returned) :
    Carried buf marshal header s.closeStream a d fs := by
  have hclosed : s.closeStream =
      { s with link := s.link.put closeBytes, phase := .streamClosed } := by
    unfold StreamSink.closeStream
    cases hwrite : writeCloseFrame Link.write s.link with
    | ok link =>
      obtain ⟨-, rfl⟩ := (writeCloseFrame_ok s.link link).mp hwrite
      rfl
    | error e => rfl
  rw [hclosed]
  obtain ⟨kept, lost, horder, hkept, hone, hlost⟩ := h.order
  obtain ⟨tail, hbytes, htail⟩ := h.wire
  rw [hreturned] at htail
  have hbroken : ∀ out ∈ lost, Phase.streamClosed ≠ .looping ∧ s.dropRequested = true ∧
      ((s.link.put closeBytes).room = some 0 ∨ out.Oversized marshal) := by
    intro out hout
    obtain ⟨-, hdrop, hwhy⟩ := hlost out hout
    exact ⟨nofun,hdrop,hwhy.imp_left (fun hzero => by simp [Link.put, hzero])⟩
  refine ⟨h.bounded, h.fifo, ?_, kept, lost, horder, hkept, hone, hbroken⟩
  cases hroom : s.link.room with
  | none =>
    have hnone : tail = [] := by
      rcases htail with htail | ⟨hzero, -⟩
      · exact htail
      · rw [hroom] at hzero
        cases hzero
    refine ⟨closeBytes, ?_, .inr ⟨closeBytes.length,(List.take_length).symm,fun _ => rfl⟩⟩
    simp only [Link.put, hroom]
    rw [hbytes, hnone, List.append_nil, List.append_assoc]
  | some r =>
    rcases htail with rfl | ⟨hzero, hframe⟩
    · refine ⟨closeBytes.take r, ?_, .inr ⟨r,rfl,fun hnone => ?_⟩⟩
      · simp only [Link.put, hroom]
        rw [hbytes, List.append_nil, List.append_assoc]
      · simp [Link.put, hroom] at hnone
    · have hr : r = 0 := by
        rw [hroom] at hzero
        exact Option.some.inj hzero
      refine ⟨tail, ?_, .inl ⟨?_,hframe⟩⟩
      · simp only [Link.put, hroom, hr, List.take_zero, List.append_nil]
        exact hbytes
      · simp [Link.put, hroom, hr]

include h in
theorem Carried.step (e : Event π) : Keeps buf marshal header a d fs (s.step buf marshal e) := by
  have hnothing : Keeps buf marshal header a d fs (s, []) := h.still [] ⟨rfl,rfl,rfl⟩
  cases e with
  | enqueue out seesClosed => exact h.enqueue out seesClosed
  | breaks room => exact (h.breaks room).still [] ⟨rfl,rfl,rfl⟩
  | drain =>
    simp only [StreamSink.step]
    split_ifs with hphase
    · exact h.drain hphase
    · exact hnothing
  | sendProbe p =>
    simp only [StreamSink.step]
    split_ifs with hphase
    · exact h.sendProbe hphase p
    · exact hnothing
  | sweep requests =>
    simp only [StreamSink.step]
    split_ifs with hphase
    · exact (h.sweep hphase requests).still [] ⟨rfl,rfl,rfl⟩
    · exact hnothing
  | done =>
    simp only [StreamSink.step]
    split_ifs with hphase
    · exact (h.returned hphase s.dropRequested).still [] ⟨rfl,rfl,rfl⟩
    · exact hnothing
  | closeStream =>
    simp only [StreamSink.step]
    split_ifs with hphase
    · exact (h.closeStream hphase).still [] ⟨rfl,rfl,rfl⟩
    · exact hnothing
  | close =>
    simp only [StreamSink.step]
    split_ifs with hphase
    · obtain ⟨kept, lost, horder, hkept, hone, hlost⟩ := h.order
      obtain ⟨tail, hbytes, htail⟩ := h.wire
      rw [hphase] at htail
      have hcarried : Carried buf marshal header { s with phase := .closed } a d fs :=
        ⟨h.bounded, h.fifo, ⟨tail,hbytes,htail⟩, kept, lost, horder, hkept, hone,
          fun out hout => ⟨nofun,(hlost out hout).2⟩⟩
      exact hcarried.still [] ⟨rfl,rfl,rfl⟩
    · exact hnothing

end Invariant

section Runs
variable {π : Type} (buf : ℕ) (marshal : π → Option Bytes) (hdr : Header) (room : Option ℕ)

def headerBytes : Bytes := frameBytes frameTypeHeader [] (headerJson hdr).print

theorem history_carried (events : List (Event π)) :
    Carried buf marshal (headerBytes hdr) (history buf marshal hdr room events).state
      (accepted (history buf marshal hdr room events).log)
      (drained (history buf marshal hdr room events).log)
      (sent (history buf marshal hdr room events).log) := by
  apply run_invariant _ (fun s : Logged (StreamSink π) (Note π) => Carried buf marshal
    (headerBytes hdr) s.state (accepted s.log) (drained s.log) (sent s.log))
  · intro s e hs
    have hstep := hs.step e
    unfold Keeps at hstep
    rw [← accepted_append, ← drained_append, ← sent_append] at hstep
    exact hstep
  · refine ⟨Nat.zero_le _, rfl, ⟨[],?_,rfl⟩, [], [], rfl, rfl, Nat.zero_le 1, nofun⟩
    show headerBytes hdr = headerBytes hdr++([]++[])
    rw [List.append_nil, List.append_nil]

theorem tail_error (l : Option ℕ) (tail : Bytes) (phase : Phase) (h : Tail l tail phase) (k : ℕ) :
    ∃ e, readAnyFrame (tail.take k) = (.error e, []) := by
  have hnil : readAnyFrame [] = (.error eof, []) := rfl
  have hempty : ∀ tail : Bytes, tail = [] → ∃ e, readAnyFrame (tail.take k) = (.error e, []) := by
    rintro tail rfl
    rw [List.take_nil]
    exact ⟨eof,hnil⟩
  have hcut : Cut l tail → ∃ e, readAnyFrame (tail.take k) = (.error e, []) := by
    rintro ⟨-, f, j, hj, rfl⟩
    rw [List.take_take]
    by_cases hpos : 0 < min k j
    · obtain ⟨e, he, -⟩ := cut_error f (min k j) hpos (by omega)
      exact ⟨e,he⟩
    · rw [show min k j = 0 by omega, List.take_zero]
      exact ⟨eof,hnil⟩
  have hclose : ∀ j, ∃ e, readAnyFrame (closeBytes.take j) = (.error e, []) := by
    intro j
    by_cases hj : j < 5
    · have hlength : (closeBytes.take j).length < 5 := by
        rw [List.length_take]
        omega
      exact ⟨_,readAnyFrame_error _ _ (Reader.bind_error _ _ _ _ _ (readFull_short 5 _ hlength))⟩
    · have hwhole : closeBytes.take j = closeBytes :=
        List.take_of_length_le (show (5 : ℕ) ≤ j by omega)
      rw [hwhole]
      exact ⟨eof,readAnyFrame_close⟩
  cases phase with
  | looping => exact hempty tail h
  | returned => exact h.elim (hempty tail) hcut
  | streamClosed | closed =>
    rcases h with h | ⟨j, rfl, -⟩
    · exact hcut h
    · rw [List.take_take]
      exact hclose _

theorem drains_take (tail : Bytes) (htail : ∀ k, ∃ e, readAnyFrame (tail.take k) = (.error e, []))
    (fs : List Sent) (k : ℕ) : ∃ n e, Drains readAnyFrame ((fs.flatMap Sent.encode++tail).take k)
      ((fs.take n).map Sent.frame) e [] := by
  induction fs generalizing k with
  | nil =>
    obtain ⟨e, he⟩ := htail k
    exact ⟨0,e,Drains.stop he⟩
  | cons f fs ih =>
    rw [List.flatMap_cons, List.append_assoc]
    by_cases hk : k < f.encode.length
    · rw [List.take_append_of_le_length (by omega)]
      by_cases hpos : 0 < k
      · obtain ⟨e, he, -⟩ := cut_error f k hpos hk
        exact ⟨0,e,Drains.stop he⟩
      · rw [show k = 0 by omega, List.take_zero]
        exact ⟨0,eof,Drains.stop rfl⟩
    · obtain ⟨n, e, hrest⟩ := ih (k-f.encode.length)
      rw [List.take_append, List.take_of_length_le (by omega)]
      exact ⟨n+1,e,Drains.more (f.readAnyFrame_append _) hrest⟩

/-- In every run the channel is bounded and packets leave it in the order in which they
were taken. Those that marshal are sent, but for at most one, with which the loop ends:
the link broke under it, or it is too long for a frame. What has arrived of the stream is
read as its header and the first of the frames; once the loop has closed a stream that has
not broken, all of them are read, and then the end. -/
theorem mirror_reads_taken (hh : hdr.TextValid)
    (hfits : (headerJson hdr).print.length ≤ maxFrameBytes) (events : List (Event π)) :
    let s := history buf marshal hdr room events
    (s.state.ch.length ≤ buf ∧ accepted s.log = drained s.log++s.state.ch) ∧
    (∃ kept lost, (drained s.log).filter (FrameOut.marshals marshal) = kept++lost ∧
      kept.map (FrameOut.frame marshal) = ((sent s.log).filter isMedia).map some ∧
      lost.length ≤ 1 ∧ ∀ out ∈ lost, s.state.phase ≠ .looping ∧ s.state.dropRequested = true ∧
        (s.state.link.room = some 0 ∨ out.Oversized marshal)) ∧
    (∀ arrived, headerBytes hdr++arrived <+: s.state.link.bytes →
      readHeader (headerBytes hdr++arrived) = (.ok hdr, arrived) ∧
      ∃ n e, Drains readAnyFrame arrived (((sent s.log).take n).map Sent.frame) e []) ∧
    (s.state.phase = .closed → s.state.link.room = none → ∃ arrived,
      s.state.link.bytes = headerBytes hdr++arrived ∧
      Drains readAnyFrame arrived ((sent s.log).map Sent.frame) eof [] ∧
      (drained s.log).filterMap (FrameOut.frame marshal) = (sent s.log).filter isMedia) := by
  intro s
  have hcarried : Carried buf marshal (headerBytes hdr) s.state (accepted s.log) (drained s.log)
      (sent s.log) := history_carried buf marshal hdr room events
  obtain ⟨tail, hbytes, htail⟩ := hcarried.wire
  refine ⟨⟨hcarried.bounded, hcarried.fifo⟩, hcarried.order, ?_, ?_⟩
  · intro arrived harrived
    refine ⟨readHeader_append hdr hh hfits arrived, ?_⟩
    rw [hbytes, List.prefix_append_right_inj, List.prefix_iff_eq_take] at harrived
    rw [harrived]
    exact drains_take tail (tail_error _ tail _ htail) _ _
  · intro hclosed hroom
    rw [hclosed, hroom] at htail
    have hclose : tail = closeBytes := by
      rcases htail with ⟨hzero, -⟩ | ⟨k, -, hall⟩
      · cases hzero
      · exact hall rfl
    refine ⟨_, hbytes, ?_, ?_⟩
    · rw [hclose]
      exact sent_drains _
    · obtain ⟨kept, lost, horder, hkept, -, hlost⟩ := hcarried.order
      refine filterMap_frame marshal _ kept lost _ horder hkept (fun out hout => ?_)
      refine out.oversized_frame marshal ((hlost out hout).2.2.resolve_left (fun hzero => ?_))
      rw [hroom] at hzero
      cases hzero

section Samples

def sampleOut (kind : Media) (pkt : ℕ) : FrameOut ℕ := ⟨kind, 7, pkt⟩

def cleanEvents : List (Event ℕ) :=
  [.enqueue (sampleOut .video 1) false, .enqueue (sampleOut .audio 2) false, .drain,
    .sendProbe ⟨1, 2⟩, .drain, .done, .closeStream, .close]

def sampleMarshal (pkt : ℕ) : Option Bytes := some [UInt8.ofNat pkt]

theorem clean_read : ∃ arrived,
    (history 4 sampleMarshal sampleHeader none cleanEvents).state.link.bytes =
      headerBytes sampleHeader++arrived ∧
    Drains readAnyFrame arrived ((sent (history 4 sampleMarshal sampleHeader none
      cleanEvents).log).map Sent.frame) eof [] ∧
    (drained (history 4 sampleMarshal sampleHeader none cleanEvents).log).filterMap
      (FrameOut.frame sampleMarshal) =
      (sent (history 4 sampleMarshal sampleHeader none cleanEvents).log).filter isMedia :=
  (mirror_reads_taken 4 sampleMarshal sampleHeader none sampleHeader_textValid sampleHeader_fits
    cleanEvents).2.2.2 (by decide +kernel) (by decide +kernel)

end Samples

end Runs

end Aevia.Mirror.Sink
