import Aevia.Foundation.Runs
import Aevia.Provider.ParameterSets

/-!
# Access units are runs of frames

What the muxer has written and what it still gathers are the maximal runs of
frames with one timestamp. Elements of any type that have a frame may be followed
through it, so that what is known of the elements is known of the units.
-/

set_option autoImplicit false

namespace Aevia.Whip
open Aevia.Run Aevia.Runs

def VideoFrame.nals (f : VideoFrame) : List Bytes := splitAnnexBNALs f.nal

section Assembly
variable {ξ : Type*} (frame : ξ → VideoFrame)

def stamp (x : ξ) : UInt32 := (frame x).timestamp

def nalsOf (r : List ξ) : List Bytes := r.flatMap (fun x => (frame x).nals)

def filled (rs : List (List ξ)) : List (List ξ) := rs.filter (fun r => nalsOf frame r ≠ [])

structure Delivers264 (firstPTS : UInt32) (w : Write) (r : List ξ) : Prop where
  nals : w.nals = nalsOf frame r
  pts : ∀ x ∈ r, w.pts = relPTS (stamp frame x) firstPTS

/-- The muxer after some elements, the last run of which it still gathers. -/
structure Assembled (m : HLSMuxer) (closed : List (List ξ)) (pending : List ξ) : Prop where
  written : List.Forall₂ (Delivers264 frame m.firstPTS) m.mux.written (filled frame closed)
  current : m.currentAU = nalsOf frame pending
  stamped : ∀ x ∈ pending, stamp frame x = m.currentPTS

structure Follows (m : HLSMuxer) (xs : List ξ) : Prop where
  first : ∀ x ∈ xs.head?, m.firstPTSSet = true ∧ m.firstPTS = stamp frame x
  unset : xs = [] → m.firstPTSSet = false ∧ m.currentAU = [] ∧ m.mux.written = []
  assembled : ∀ closed pending, runs (stamp frame) xs = closed++[pending] →
    Assembled frame m closed pending

theorem filled_append (rs ss : List (List ξ)) :
    filled frame (rs++ss) = filled frame rs++filled frame ss :=
  List.filter_append rs ss

theorem flush_written (m : HLSMuxer) (closed : List (List ξ)) (pending : List ξ)
    (h : Assembled frame m closed pending) :
    List.Forall₂ (Delivers264 frame m.firstPTS) m.flushCurrentAULocked.mux.written
      (filled frame (closed++[pending])) := by
  rw [filled_append, HLSMuxer.flushCurrentAULocked]
  by_cases hempty : m.currentAU = []
  · have hnone : filled frame [pending] = [] := by
      rw [filled, List.filter_cons_of_neg, List.filter_nil]
      simp [← h.current, hempty]
    rw [if_pos hempty, hnone, List.append_nil]
    exact h.written
  · have hone : filled frame [pending] = [pending] := by
      rw [filled, List.filter_cons_of_pos, List.filter_nil]
      simp [← h.current, hempty]
    rw [if_neg hempty, hone]
    refine List.rel_append h.written (.cons ⟨h.current, ?_⟩ .nil)
    intro x hx
    rw [h.stamped x hx]

theorem flush_keeps (m : HLSMuxer) :
    m.flushCurrentAULocked.firstPTS = m.firstPTS ∧
    m.flushCurrentAULocked.firstPTSSet = m.firstPTSSet ∧
    m.flushCurrentAULocked.currentAU = [] := by
  unfold HLSMuxer.flushCurrentAULocked
  split
  · exact ⟨rfl,rfl,‹_›⟩
  · exact ⟨rfl,rfl,rfl⟩

/-- A change of the timestamp flushes, since flushing nothing does nothing. -/
theorem flushDue_changed (m : HLSMuxer) (f : VideoFrame) (h : f.timestamp ≠ m.currentPTS) :
    m.flushDue f = m.flushCurrentAULocked := by
  unfold HLSMuxer.flushDue
  by_cases hempty : m.currentAU = []
  · rw [if_neg (by simp [hempty]), HLSMuxer.flushCurrentAULocked, if_pos hempty]
  · rw [if_pos ⟨h,List.length_pos_iff.mpr hempty⟩]

theorem flushDue_unchanged (m : HLSMuxer) (f : VideoFrame) (h : f.timestamp = m.currentPTS) :
    m.flushDue f = m := by
  unfold HLSMuxer.flushDue
  rw [if_neg (fun hdue => hdue.1 h)]

theorem Assembled.joined (m : HLSMuxer) (closed : List (List ξ)) (pending : List ξ) (x : ξ)
    (h : Assembled frame m closed pending) (hx : stamp frame x = m.currentPTS) :
    Assembled frame ((m.flushDue (frame x)).append (frame x)) closed (pending++[x]) := by
  rw [flushDue_unchanged m (frame x) hx]
  refine ⟨h.written, ?_, ?_⟩
  · show m.currentAU++splitAnnexBNALs (frame x).nal = _
    rw [h.current, nalsOf, nalsOf, List.flatMap_append, List.flatMap_singleton]
    rfl
  · intro y hy
    show stamp frame y = (frame x).timestamp
    rcases List.mem_append.mp hy with hy | hy
    · rw [h.stamped y hy, ← hx]
      rfl
    · rw [List.mem_singleton.mp hy]
      rfl

theorem Assembled.begun (m : HLSMuxer) (closed : List (List ξ)) (pending : List ξ) (x : ξ)
    (h : Assembled frame m closed pending) (hx : stamp frame x ≠ m.currentPTS) :
    Assembled frame ((m.flushDue (frame x)).append (frame x)) (closed++[pending]) [x] := by
  obtain ⟨hfirst, -, hempty⟩ := flush_keeps m
  rw [flushDue_changed m (frame x) hx]
  refine ⟨?_, ?_, ?_⟩
  · show List.Forall₂ (Delivers264 frame m.flushCurrentAULocked.firstPTS)
      m.flushCurrentAULocked.mux.written _
    rw [hfirst]
    exact flush_written frame m closed pending h
  · show m.flushCurrentAULocked.currentAU++splitAnnexBNALs (frame x).nal = _
    rw [hempty, List.nil_append, nalsOf, List.flatMap_singleton]
    rfl
  · intro y hy
    rw [List.mem_singleton.mp hy]
    rfl

theorem flushDue_keeps (m : HLSMuxer) (f : VideoFrame) :
    (m.flushDue f).firstPTSSet = m.firstPTSSet ∧ (m.flushDue f).firstPTS = m.firstPTS := by
  unfold HLSMuxer.flushDue
  obtain ⟨hfirst, hset, -⟩ := flush_keeps m
  split
  · exact ⟨hset,hfirst⟩
  · exact ⟨rfl,rfl⟩

theorem onVideoFrame_first (m : HLSMuxer) (x : ξ) (h : Follows frame m []) :
    Follows frame (m.onVideoFrame (frame x)) [x] := by
  obtain ⟨hset, hempty, hwritten⟩ := h.unset rfl
  have hstart : m.start (frame x) = { m with
      firstPTS := stamp frame x, currentPTS := stamp frame x, firstPTSSet := true } := by
    unfold HLSMuxer.start
    rw [if_neg (by simp [hset])]
    rfl
  have hnothing : Assembled frame (m.start (frame x)) [] [] := by
    rw [hstart]
    exact ⟨by rw [hwritten]; exact .nil,hempty,fun z hz => (List.not_mem_nil hz).elim⟩
  have hstamp : stamp frame x = (m.start (frame x)).currentPTS := by rw [hstart]
  have hone := hnothing.joined frame _ _ _ x hstamp
  refine ⟨?_, fun hnil => by simp at hnil, ?_⟩
  · intro z hz
    obtain rfl : x = z := by simpa using hz
    rw [HLSMuxer.onVideoFrame, flushDue_unchanged _ _ hstamp, hstart]
    exact ⟨rfl,rfl⟩
  · intro closed pending hruns
    have hsplit : closed = [] ∧ pending = [x] := by
      have heq : []++[[x]] = closed++[pending] := hruns
      obtain ⟨hnil, hlast⟩ := List.append_inj' heq rfl
      exact ⟨hnil.symm,(List.singleton_inj.mp hlast).symm⟩
    rw [hsplit.1, hsplit.2]
    exact hone

theorem onVideoFrame_later (m : HLSMuxer) (front : List ξ) (y x : ξ)
    (h : Follows frame m (front++[y])) :
    Follows frame (m.onVideoFrame (frame x)) (front++[y]++[x]) := by
  obtain ⟨z, hz⟩ : ∃ z, z ∈ (front++[y]).head? := by
    cases front <;> exact ⟨_,rfl⟩
  have hset := (h.first z hz).1
  have hstart : m.start (frame x) = m := by
    unfold HLSMuxer.start
    rw [if_pos hset]
  obtain ⟨rs, r, hrs⟩ := runs_concat (stamp frame) front y
  have hassembled := h.assembled rs (r++[y]) hrs
  have hy : stamp frame y = m.currentPTS :=
    hassembled.stamped y (List.mem_append_right _ (List.mem_singleton_self y))
  rw [HLSMuxer.onVideoFrame, hstart]
  refine ⟨?_, fun hnil => by simp at hnil, ?_⟩
  · intro w hw
    have hw' : w ∈ (front++[y]).head? := by
      cases front <;> exact hw
    obtain ⟨hkeptSet, hkeptFirst⟩ := flushDue_keeps m (frame x)
    exact ⟨hkeptSet.trans hset,hkeptFirst.trans (h.first w hw').2⟩
  · intro closed pending hruns
    by_cases hx : stamp frame x = m.currentPTS
    · rw [runs_concat_same (stamp frame) _ x rs r y hrs (hy.trans hx.symm)] at hruns
      obtain ⟨rfl, hlast⟩ := List.append_inj' hruns rfl
      rw [← List.singleton_inj.mp hlast]
      exact hassembled.joined frame m _ _ x hx
    · have hnew := runs_concat_new (stamp frame) (front++[y]) x (by
        intro b hb
        obtain rfl : y = b := by simpa using hb
        rw [hy]
        exact Ne.symm hx)
      rw [hnew, hrs] at hruns
      obtain ⟨rfl, hlast⟩ := List.append_inj' hruns rfl
      rw [← List.singleton_inj.mp hlast]
      exact hassembled.begun frame m _ _ x hx

theorem onVideoFrame_follows (m : HLSMuxer) (xs : List ξ) (x : ξ) (h : Follows frame m xs) :
    Follows frame (m.onVideoFrame (frame x)) (xs++[x]) := by
  rcases List.eq_nil_or_concat xs with rfl | ⟨front, y, rfl⟩
  · exact onVideoFrame_first frame m x h
  · rw [List.concat_eq_append] at h ⊢
    exact onVideoFrame_later frame m front y x h

theorem newHLSMuxer_follows (startTime : ℤ) (sps pps : Bytes) :
    Follows frame (newHLSMuxer startTime sps pps) ([] : List ξ) where
  first := fun _ h => by cases h
  unset := fun _ => ⟨rfl,rfl,rfl⟩
  assembled := by
    intro closed pending h
    rw [runs_nil] at h
    exact absurd h.symm (by simp)

theorem run_follows (m : HLSMuxer) (xs ys : List ξ) (h : Follows frame m xs) :
    Follows frame (run HLSMuxer.onVideoFrame m (ys.map frame)) (xs++ys) := by
  induction ys generalizing m xs with
  | nil => rwa [List.append_nil]
  | cons y ys ih =>
    have hnext := ih _ _ (onVideoFrame_follows frame m xs y h)
    rwa [List.append_assoc] at hnext

theorem written_runs (startTime : ℤ) (sps pps : Bytes) (xs : List ξ) :
    List.Forall₂ (Delivers264 frame ((xs.head?.map (stamp frame)).getD 0))
      (run HLSMuxer.onVideoFrame (newHLSMuxer startTime sps pps) (xs.map frame)).close.mux.written
      (filled frame (runs (stamp frame) xs)) := by
  have h := run_follows frame _ _ xs (newHLSMuxer_follows frame startTime sps pps)
  rw [List.nil_append] at h
  rcases List.eq_nil_or_concat xs with rfl | ⟨front, y, rfl⟩
  · exact .nil
  · rw [List.concat_eq_append] at h ⊢
    obtain ⟨rs, r, hrs⟩ := runs_concat (stamp frame) front y
    obtain ⟨z, hz⟩ : ∃ z, z ∈ (front++[y]).head? := by
      cases front <;> exact ⟨_,rfl⟩
    have hflushed := flush_written frame _ rs (r++[y]) (h.assembled _ _ hrs)
    rw [hrs, Option.mem_def.mp hz, Option.map_some, Option.getD_some, ← (h.first z hz).2]
    exact hflushed

end Assembly

/-- What frames make of access units: the NALs of each maximal run of one timestamp,
where there are any. -/
def accessUnits (frames : List VideoFrame) : List (List Bytes) :=
  ((runs VideoFrame.timestamp frames).map (fun r => r.flatMap VideoFrame.nals)).filter (· ≠ [])

theorem filled_map (frames : List VideoFrame) :
    (filled id (runs VideoFrame.timestamp frames)).map (nalsOf id) = accessUnits frames := by
  rw [accessUnits, filled, List.filter_map]
  rfl

theorem accessUnits_flatten (frames : List VideoFrame) :
    (accessUnits frames).flatten = frames.flatMap VideoFrame.nals := by
  have hempty : ∀ us : List (List Bytes), (us.filter (· ≠ [])).flatten = us.flatten := by
    intro us
    induction us with
    | nil => rfl
    | cons u us ih =>
      by_cases hu : u = []
      · rw [List.filter_cons_of_neg (by simp [hu]), ih, hu]
        rfl
      · rw [List.filter_cons_of_pos (by simp [hu]), List.flatten_cons, List.flatten_cons, ih]
  have hruns := @List.flatMap_assoc _ _ _ (runs VideoFrame.timestamp frames) id VideoFrame.nals
  rw [List.flatMap_id, flatten_runs] at hruns
  rw [accessUnits, hempty, hruns]
  rfl

def writtenOf (startTime : ℤ) (sps pps : Bytes) (frames : List VideoFrame) : List Write :=
  (run HLSMuxer.onVideoFrame (newHLSMuxer startTime sps pps) frames).close.mux.written

theorem writtenOf_ops (startTime : ℤ) (sps pps : Bytes) (frames : List VideoFrame) :
    writtenOf startTime sps pps frames = (run HLSMuxer.next (newHLSMuxer startTime sps pps)
      (frames.map .onVideoFrame++[.close])).mux.written := by
  have hframes : ∀ m : HLSMuxer, run HLSMuxer.next m (frames.map .onVideoFrame) =
      run HLSMuxer.onVideoFrame m frames := by
    induction frames with
    | nil => exact fun _ => rfl
    | cons f frames ih => exact fun m => ih _
  rw [run_append, hframes]
  rfl

theorem written_nals (startTime : ℤ) (sps pps : Bytes) (frames : List VideoFrame) :
    (writtenOf startTime sps pps frames).map Write.nals = accessUnits frames := by
  have h := written_runs id startTime sps pps frames
  rw [List.map_id] at h
  rw [← filled_map]
  refine List.forall₂_eq_eq_eq ▸ List.forall₂_map_left_iff.mpr (List.forall₂_map_right_iff.mpr ?_)
  exact h.imp (fun _ _ hw => hw.nals)

/-- With the injected parameter sets removed, the access units are the NALs of the
maximal runs of frames of one timestamp, for the runs that have any, and so all NALs
of the frames in order. What is injected is at most an SPS and a PPS that were
supplied or are among the NALs. -/
theorem access_units_exact (startTime : ℤ) (sps pps : Bytes) (frames : List VideoFrame) :
    let written := writtenOf startTime sps pps frames
    written.map (fun w => w.au.drop w.prepended.length) = accessUnits frames ∧
    (written.map (fun w => w.au.drop w.prepended.length)).flatten =
      frames.flatMap VideoFrame.nals ∧
    ∀ w ∈ written, w.prepended.length ≤ 2 ∧ ∀ nal ∈ w.prepended,
      nal ∈ supplied sps++ofType 7 (frames.flatMap VideoFrame.nals) ∨
      nal ∈ supplied pps++ofType 8 (frames.flatMap VideoFrame.nals) := by
  intro written
  have hdrop : written.map (fun w => w.au.drop w.prepended.length) = written.map Write.nals :=
    List.map_congr_left (fun w _ => List.drop_left)
  have hnals := written_nals startTime sps pps frames
  rw [hdrop, hnals]
  refine ⟨rfl, accessUnits_flatten frames, fun w hw => ?_⟩
  obtain ⟨before, after, hsplit⟩ := List.append_of_mem hw
  have hpre : before++[w] <+: written := ⟨after,by rw [hsplit]; simp⟩
  have hcaching := run_caching sps pps startTime (frames.map .onVideoFrame++[.close])
  have hprepended := hcaching.written before w (by rwa [← writtenOf_ops])
  have hseen : ∀ set kind, ∀ nal ∈ seen set kind (before++[w]),
      nal ∈ supplied set++ofType kind (frames.flatMap VideoFrame.nals) := by
    intro set kind nal hnal
    have hsub : ((before++[w]).flatMap Write.nals).Sublist (frames.flatMap VideoFrame.nals) := by
      rw [← accessUnits_flatten, ← hnals, List.flatMap_def]
      exact (hpre.sublist.map Write.nals).flatten
    exact ((List.Sublist.refl _).append (hsub.filter _)).mem hnal
  rw [hprepended]
  refine ⟨(injected_seen _ _ _).1, fun nal hnal => ?_⟩
  exact ((injected_seen _ _ _).2 nal hnal).imp (hseen sps 7 nal) (hseen pps 8 nal)

end Aevia.Whip
