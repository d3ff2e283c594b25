import Aevia.Provider.Depacketizer
import Mathlib.Data.List.Chain
import Mathlib.Data.List.Infix

/-!
# Units put together from fragments

The codec holds the fragments of a unit until its end bit. The wrapper does not
know what is held: an end that is lost leaves its unit with the next one, and
after a gap the rest of a unit comes without its start.
-/

set_option autoImplicit false

namespace Aevia.Mirror
open Aevia.Bytes Aevia.Run Aevia.Whip

section Units

def Follows (f g : FUA) : Prop :=
  g.seq = f.seq+1 ∧ f.isEnd = false ∧ g.isStart = false ∧
    f.indicator = g.indicator ∧ f.nalType = g.nalType

instance (f g : FUA) : Decidable (Follows f g) := inferInstanceAs (Decidable (_ ∧ _))

def Begun (fs : List FUA) : Prop := fs.IsChain Follows ∧ ∀ f ∈ fs.head?, f.isStart = true

def Whole (fs : List FUA) : Prop :=
  fs.IsChain Follows ∧ (∃ f ∈ fs.head?, f.isStart = true) ∧ ∃ f ∈ fs.getLast?, f.isEnd = true

instance (fs : List FUA) : Decidable (Whole fs) := inferInstanceAs (Decidable (_ ∧ _))

def reassemble (fs : List FUA) : Bytes :=
  startCode++((fs.head?.map FUA.nalHeader).toList++fs.flatMap FUA.body)

theorem begun_singleton (f : FUA) (hf : f.isStart = true) : Begun [f] := by
  refine ⟨List.isChain_singleton f, ?_⟩
  rintro g ⟨rfl⟩
  exact hf

theorem begun_concat (fs : List FUA) (f g : FUA) (hfs : Begun fs) (hg : g ∈ fs.getLast?)
    (h : Follows g f) : Begun (fs++[f]) := by
  have hne : fs ≠ [] := by
    rintro rfl
    cases hg
  constructor
  · refine List.isChain_append.mpr ⟨hfs.1, List.isChain_singleton f, ?_⟩
    rintro x hx y ⟨rfl⟩
    rwa [Option.mem_unique hx hg]
  · rw [List.head?_append_of_ne_nil _ hne]
    exact hfs.2

theorem nalHeader_chain (fs : List FUA) (hfs : fs.IsChain Follows) :
    ∀ f ∈ fs.head?, ∀ g ∈ fs.getLast?, f.nalHeader = g.nalHeader := by
  induction fs with
  | nil => nofun
  | cons a fs ih =>
    rintro f ⟨rfl⟩ g hg
    cases fs with
    | nil =>
      obtain rfl := Option.some.inj hg
      rfl
    | cons b fs =>
      rw [List.isChain_cons] at hfs
      rw [List.getLast?_cons_cons] at hg
      obtain ⟨-, -, -, hindicator, htype⟩ := hfs.1 b rfl
      rw [← ih hfs.2 b rfl g hg]
      unfold FUA.nalHeader
      rw [hindicator, htype]

theorem whole_concat (fs : List FUA) (f : FUA) (hfs : Begun (fs++[f])) (hend : f.isEnd = true) :
    Whole (fs++[f]) ∧ reassemble (fs++[f]) = startCode++f.nalHeader::(fs.flatMap FUA.body++f.body) := by
  have hlast : f ∈ (fs++[f]).getLast? := List.getLast?_concat
  obtain ⟨first, hfirst⟩ : ∃ first, (fs++[f]).head? = some first := by
    cases fs <;> exact ⟨_,rfl⟩
  refine ⟨⟨hfs.1, ⟨first, hfirst, hfs.2 first hfirst⟩, f, hlast, hend⟩, ?_⟩
  unfold reassemble
  rw [hfirst, List.flatMap_append, List.flatMap_singleton, Option.map_some, Option.toList_some,
    nalHeader_chain _ hfs.1 first hfirst f hlast]
  rfl

end Units

section History

inductive FragmentNote where
  | received (f : FUA)
  | dropped
  | emitted

def FragmentNote.fua : FragmentNote → Option FUA
  | received f => some f
  | _ => none

def received (log : List FragmentNote) : List FUA := log.filterMap FragmentNote.fua

def heldNext (held : List FUA) : FragmentNote → List FUA
  | .received f => held++[f]
  | .dropped | .emitted => []

def held (log : List FragmentNote) : List FUA := log.foldl heldNext []

theorem held_append (log : List FragmentNote) (note : FragmentNote) :
    held (log++[note]) = heldNext (held log) note := by
  rw [held, List.foldl_append]
  rfl

theorem received_append (log notes : List FragmentNote) :
    received (log++notes) = received log++received notes :=
  List.filterMap_append

variable {σ : Type} (codec : H264Codec σ)

abbrev RTP := UInt16 × Bytes

def feed (d : H264SeqAwareDepacketizer σ) (p : RTP) : H264SeqAwareDepacketizer σ :=
  (depacketize codec d p.1 p.2).2

def feedNotes (d : H264SeqAwareDepacketizer σ) (p : RTP) : List FragmentNote :=
  match fragment p.1 p.2 with
  | none => []
  | some f =>
    .received f::(if gap d p.1 p.2 then [.dropped] else if f.isEnd then [.emitted] else [])

abbrev FeedHistory (σ : Type) := Logged (H264SeqAwareDepacketizer σ) FragmentNote

def newFeedHistory : FeedHistory σ := ⟨newH264SeqAwareDepacketizer codec, []⟩

/-- What is emitted from a fragment is a whole unit that has been received. -/
def Uncorrupted (s : FeedHistory σ) (p : RTP) : Prop :=
  ∀ f ∈ fragment p.1 p.2, (depacketize codec s.state p.1 p.2).1.nal ≠ [] →
    ∃ fs ∈ (received s.log++[f]).tails,
      Whole fs ∧ (depacketize codec s.state p.1 p.2).1.nal = reassemble fs

instance (s : FeedHistory σ) (p : RTP) : Decidable (Uncorrupted codec s p) :=
  inferInstanceAs (Decidable (∀ f ∈ fragment p.1 p.2, _))

/-- A fragment that the codec gets is a start when the codec holds nothing, and
otherwise comes after the one held last, with no packet in between, and belongs
to the same unit. -/
def Continues (s : FeedHistory σ) (p : RTP) : Prop :=
  ∀ f ∈ fragment p.1 p.2, gap s.state p.1 p.2 = false →
    if f.isStart then held s.log = []
    else ∃ g ∈ (held s.log).getLast?,
      g.seq = s.state.lastSeq ∧ g.indicator = f.indicator ∧ g.nalType = f.nalType

instance (s : FeedHistory σ) (p : RTP) : Decidable (Continues s p) :=
  inferInstanceAs (Decidable (∀ f ∈ fragment p.1 p.2, _))

end History

section Invariant
variable {σ : Type} (codec : H264Codec σ) (buffer : σ → Bytes)

structure Holds (s : FeedHistory σ) : Prop where
  buffered : buffer s.state.inner = (held s.log).flatMap FUA.body
  begun : Begun (held s.log)
  unended : ∀ f ∈ held s.log, f.isEnd = false
  recent : held s.log <:+ received s.log
  hasLast : held s.log ≠ [] → s.state.hasLast = true

theorem Holds.recent_concat {s : FeedHistory σ} {buffer : σ → Bytes} (hs : Holds buffer s) (f : FUA) :
    held s.log++[f] <:+ received s.log++[f] := by
  obtain ⟨earlier, hearlier⟩ := hs.recent
  exact ⟨earlier,by rw [← List.append_assoc, hearlier]⟩

variable {codec buffer} (hcodec : Reassembles codec buffer)

include hcodec in
theorem newFeedHistory_holds : Holds buffer (newFeedHistory codec) where
  buffered := hcodec.new
  begun := ⟨List.IsChain.nil, nofun⟩
  unended := nofun
  recent := List.suffix_rfl
  hasLast := fun h => absurd rfl h

theorem begun_continues (s : FeedHistory σ) (p : RTP) (f : FUA) (hs : Holds buffer s)
    (hf : fragment p.1 p.2 = some f) (hgap : gap s.state p.1 p.2 = false)
    (hc : Continues s p) : Begun (held s.log++[f]) := by
  obtain ⟨hseq, hpayload⟩ := fragment_some p.1 p.2 f hf
  have hnext := hc f hf hgap
  by_cases hstart : f.isStart = true
  · rw [if_pos hstart] at hnext
    rw [hnext]
    exact begun_singleton f hstart
  · rw [if_neg hstart] at hnext
    obtain ⟨g, hg, hlast, hindicator, htype⟩ := hnext
    have hmem : g ∈ held s.log := List.mem_of_getLast? hg
    have hhas : s.state.hasLast = true := hs.hasLast (List.ne_nil_of_mem hmem)
    -- the wrapper has compared the sequence numbers
    have hafter : p.1 = s.state.lastSeq+1 := by
      rw [gap, hhas, ← hpayload, isFUAMidOrEnd_payload, Bool.eq_false_of_not_eq_true hstart] at hgap
      simpa using hgap
    refine begun_concat _ f g hs.begun hg ⟨?_, hs.unended g hmem, ?_, hindicator, htype⟩
    · rw [hseq, hafter, hlast]
    · exact Bool.eq_false_of_not_eq_true hstart

theorem holds_nothing (s : FeedHistory σ) (hbuffer : buffer s.state.inner = [])
    (hheld : held s.log = []) : Holds buffer s where
  buffered := by rw [hbuffer, hheld]; rfl
  begun := by rw [hheld]; exact ⟨List.IsChain.nil, nofun⟩
  unended := by rw [hheld]; nofun
  recent := by rw [hheld]; exact List.nil_suffix
  hasLast := fun h => absurd hheld h

include hcodec in
theorem other_holds (s : FeedHistory σ) (p : RTP) (hs : Holds buffer s)
    (hf : fragment p.1 p.2 = none) : Holds buffer (logged (feed codec) (feedNotes) s p) := by
  have hnotes : (logged (feed codec) feedNotes s p).log = s.log := by
    show s.log++feedNotes s.state p = s.log
    rw [feedNotes, hf, List.append_nil]
  have hgap : gap s.state p.1 p.2 = false := by
    rw [gap, isFUAMidOrEnd_none p.1 p.2 hf, Bool.and_false, Bool.false_and]
  have hstate : (logged (feed codec) feedNotes s p).state = _ :=
    congrArg Prod.snd (depacketize_next codec s.state p.1 p.2 hgap)
  refine ⟨?_, by rw [hnotes]; exact hs.begun, by rw [hnotes]; exact hs.unended,
    by rw [hnotes]; exact hs.recent, fun _ => by rw [hstate]⟩
  rw [hnotes, hstate, ← hs.buffered]
  exact hcodec.other _ _ (fragment_none p.1 p.2 hf)

include hcodec in
theorem gap_holds (s : FeedHistory σ) (p : RTP) (f : FUA) (hf : fragment p.1 p.2 = some f)
    (hgap : gap s.state p.1 p.2 = true) : Holds buffer (logged (feed codec) feedNotes s p) := by
  apply holds_nothing
  · show buffer (depacketize codec s.state p.1 p.2).2.inner = []
    rw [depacketize_gap codec s.state p.1 p.2 hgap]
    exact hcodec.new
  · show held (s.log++feedNotes s.state p) = []
    rw [feedNotes, hf]
    show held (s.log++.received f::(if gap s.state p.1 p.2 then [.dropped] else _)) = []
    rw [if_pos hgap, List.append_cons, held_append]
    rfl

include hcodec in
theorem end_holds (s : FeedHistory σ) (p : RTP) (f : FUA) (hf : fragment p.1 p.2 = some f)
    (hgap : gap s.state p.1 p.2 = false) (hend : f.isEnd = true) :
    Holds buffer (logged (feed codec) feedNotes s p) := by
  apply holds_nothing
  · show buffer (depacketize codec s.state p.1 p.2).2.inner = []
    rw [depacketize_next codec s.state p.1 p.2 hgap, ← (fragment_some p.1 p.2 f hf).2]
    exact (hcodec.emit _ f hend).2
  · show held (s.log++feedNotes s.state p) = []
    rw [feedNotes, hf]
    show held (s.log++.received f::(if gap s.state p.1 p.2 then _ else if f.isEnd then _ else [])) = []
    rw [hgap, hend, List.append_cons]
    exact held_append _ .emitted

include hcodec in
theorem piece_holds (s : FeedHistory σ) (p : RTP) (f : FUA) (hs : Holds buffer s)
    (hf : fragment p.1 p.2 = some f) (hgap : gap s.state p.1 p.2 = false) (hend : f.isEnd = false)
    (hc : Continues s p) : Holds buffer (logged (feed codec) feedNotes s p) := by
  have hlog : (logged (feed codec) feedNotes s p).log = s.log++[.received f] := by
    show s.log++feedNotes s.state p = _
    rw [feedNotes, hf]
    show s.log++.received f::(if gap s.state p.1 p.2 then _ else if f.isEnd then _ else []) = _
    rw [hgap, hend]
    rfl
  have hheld : held (logged (feed codec) feedNotes s p).log = held s.log++[f] := by
    rw [hlog, held_append]
    rfl
  have hstate : (logged (feed codec) feedNotes s p).state = _ :=
    congrArg Prod.snd (depacketize_next codec s.state p.1 p.2 hgap)
  constructor
  · rw [hheld, hstate, List.flatMap_append, List.flatMap_singleton, ← hs.buffered,
      ← (fragment_some p.1 p.2 f hf).2]
    exact (hcodec.append _ f hend).2
  · rw [hheld]
    exact begun_continues s p f hs hf hgap hc
  · rw [hheld]
    intro g hg
    rcases List.mem_append.mp hg with hg | hg
    · exact hs.unended g hg
    · rw [List.mem_singleton.mp hg]
      exact hend
  · rw [hheld, hlog, received_append]
    exact hs.recent_concat f
  · intro _
    rw [hstate]

include hcodec in
theorem feed_holds (s : FeedHistory σ) (p : RTP) (hs : Holds buffer s) (hc : Continues s p) :
    Holds buffer (logged (feed codec) feedNotes s p) := by
  cases hf : fragment p.1 p.2 with
  | none => exact other_holds hcodec s p hs hf
  | some f =>
    cases hgap : gap s.state p.1 p.2 with
    | true => exact gap_holds hcodec s p f hf hgap
    | false =>
      cases hend : f.isEnd with
      | true => exact end_holds hcodec s p f hf hgap hend
      | false => exact piece_holds hcodec s p f hs hf hgap hend hc

include hcodec in
theorem feed_uncorrupted (s : FeedHistory σ) (p : RTP) (hs : Holds buffer s) (hc : Continues s p) :
    Uncorrupted codec s p := by
  intro f hf hnal
  cases hgap : gap s.state p.1 p.2 with
  | true =>
    rw [depacketize_gap codec s.state p.1 p.2 hgap] at hnal
    exact absurd rfl hnal
  | false =>
    have hout := congrArg (fun out => out.1.nal) (depacketize_next codec s.state p.1 p.2 hgap)
    rw [← (fragment_some p.1 p.2 f hf).2] at hout
    cases hend : f.isEnd with
    | false =>
      -- a fragment that is not the end is only buffered
      rw [(hcodec.append _ f hend).1, (fragment_some p.1 p.2 f hf).2] at hout
      exact absurd hout hnal
    | true =>
      obtain ⟨hwhole, hbytes⟩ :=
        whole_concat (held s.log) f (begun_continues s p f hs hf hgap hc) hend
      refine ⟨held s.log++[f], ?_, hwhole, ?_⟩
      · rw [List.mem_tails]
        exact hs.recent_concat f
      · rw [hbytes, ← hs.buffered, ← (fragment_some p.1 p.2 f hf).2, hout, (hcodec.emit _ f hend).1]
        rfl

end Invariant

section Runs
variable {σ : Type} (codec : H264Codec σ)

/-- What every packet of a run emits from a fragment is a whole unit. -/
def NeverCorrupt (packets : List RTP) : Prop :=
  Along (logged (feed codec) feedNotes) (Uncorrupted codec) (newFeedHistory codec) packets

def Continuous (packets : List RTP) : Prop :=
  Along (logged (feed codec) feedNotes) Continues (newFeedHistory codec) packets

instance (packets : List RTP) : Decidable (NeverCorrupt codec packets) :=
  inferInstanceAs (Decidable (Along _ _ _ _))

instance (packets : List RTP) : Decidable (Continuous codec packets) :=
  inferInstanceAs (Decidable (Along _ _ _ _))

theorem never_corrupt (buffer : σ → Bytes) (hcodec : Reassembles codec buffer) (packets : List RTP)
    (hpackets : Continuous codec packets) : NeverCorrupt codec packets :=
  along_imp _ Continues (Uncorrupted codec) (Holds buffer) (feed_holds hcodec)
    (feed_uncorrupted hcodec) _ packets (newFeedHistory_holds hcodec) hpackets

end Runs

def wholePackets : List RTP :=
  [(50, [0x7C, 0x85, 0xAA]), (51, [0x7C, 0x05, 0xCC]), (52, [0x7C, 0x45, 0xEE]), (53, [0x65, 0xFF])]

theorem wholePackets_never_corrupt : NeverCorrupt plainCodec wholePackets :=
  never_corrupt plainCodec id plainCodec_reassembles wholePackets (by decide)

/-- The fragment 201 is lost, so 202 is dropped and 203 ends nothing. -/
def cutPackets : List RTP :=
  [(200, [0x7C, 0x85, 0x01, 0x02]), (202, [0x7C, 0x05, 0x03, 0x04]), (203, [0x7C, 0x45, 0x05, 0x06])]

theorem cutPackets_corrupt : Reassembles plainCodec id ∧ ¬NeverCorrupt plainCodec cutPackets :=
  ⟨plainCodec_reassembles,by decide⟩

end Aevia.Mirror
