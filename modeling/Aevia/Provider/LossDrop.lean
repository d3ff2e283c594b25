import Aevia.Provider.Probes

/-!
# Drops for consecutive losses

The count of consecutive losses is kept apart from the map of outstanding
probes. What a sweep removes is counted some time after, and what an echo
removes resets the count some time after. Losses that an echo has ended are
counted all the same if it comes in between.
-/

set_option autoImplicit false

namespace Aevia.Mirror.Probes
open Aevia.Run

abbrev Call := ℕ × Action

def call (s : StreamSink) (c : Call) : StreamSink := (step c.1 s c.2).1

def callNotes (s : StreamSink) (c : Call) : List Note := (step c.1 s c.2).2

def newSinkHistory : Logged StreamSink Note := ⟨newStreamSink, []⟩

section Losses

def tally (n : ℕ) : Note → ℕ
  | .expired _ => n+1
  | .echoed _ => 0
  | _ => n

/-- How many probes have been removed as expired after the last that was
removed by an echo. -/
def expiredSinceEcho (log : List Note) : ℕ := log.foldl tally 0

def lastRemoval (echo : Bool) : Note → Bool
  | .expired _ => false
  | .echoed _ => true
  | _ => echo

def echoSinceSweep (log : List Note) : Bool := log.foldl lastRemoval false

theorem expiredSinceEcho_append (log : List Note) (note : Note) :
    expiredSinceEcho (log++[note]) = tally (expiredSinceEcho log) note := by
  rw [expiredSinceEcho, List.foldl_append]
  rfl

theorem echoSinceSweep_append (log : List Note) (note : Note) :
    echoSinceSweep (log++[note]) = lastRemoval (echoSinceSweep log) note := by
  rw [echoSinceSweep, List.foldl_append]
  rfl

theorem expiredSinceEcho_sweep (log : List Note) (ids : List ℕ) :
    expiredSinceEcho (log++ids.map .expired) = expiredSinceEcho log+ids.length := by
  induction ids generalizing log with
  | nil => rw [List.map_nil, List.append_nil, List.length_nil, Nat.add_zero]
  | cons id ids ih =>
    rw [List.map_cons, List.append_cons, ih, expiredSinceEcho_append, tally, List.length_cons]
    omega

end Losses

/-- A drop is requested after as many losses as it takes. -/
def Justified (s : Logged StreamSink Note) (c : Call) : Prop :=
  .dropRequested ∈ callNotes s.state c → consecutiveLossThreshold.toNat ≤ expiredSinceEcho s.log

def Writer.counting : Writer → Option UInt32
  | losing left lost => if left = 0 then some lost else none
  | _ => none

/-- A sweep does not count its losses after an echo has ended them and reset the
count, and not up to the threshold while an echo has still to reset it. -/
def Timely (s : Logged StreamSink Note) (c : Call) : Prop :=
  c.2 = .addConsecutiveLoss → ∀ lost ∈ s.state.writer.counting,
    if s.state.reader = .idle then echoSinceSweep s.log = false
    else s.state.consecutiveLoss+lost < consecutiveLossThreshold

instance (s : Logged StreamSink Note) (c : Call) : Decidable (Justified s c) :=
  inferInstanceAs (Decidable (_ → _))

instance (s : Logged StreamSink Note) (c : Call) : Decidable (Timely s c) :=
  have : Decidable (∀ lost ∈ s.state.writer.counting,
      if s.state.reader = .idle then echoSinceSweep s.log = false
      else s.state.consecutiveLoss+lost < consecutiveLossThreshold) := Option.decidableForallMem _
  inferInstanceAs (Decidable (_ → _))

section Invariant

def Writer.lost : Writer → ℕ
  | losing _ lost => lost.toNat
  | _ => 0

def StreamSink.settledLoss (s : StreamSink) : ℕ :=
  if s.reader = .idle then s.consecutiveLoss.toNat else 0

/-- The losses that are counted or will be are losses since the last echo. -/
def Uninterrupted (s : StreamSink) (log : List Note) : Prop :=
  s.settledLoss+(if echoSinceSweep log then 0 else s.writer.lost) ≤ expiredSinceEcho log

section Steps
variable (nextID : ℕ) (s : StreamSink) (log : List Note) (h : Uninterrupted s log)

include h in
theorem uninterrupted_still (t : StreamSink) (note : Note) (hnote : ∀ n, tally n note = n)
    (hlast : ∀ b, lastRemoval b note = b) (hsettled : t.settledLoss = s.settledLoss)
    (hlost : t.writer.lost = s.writer.lost) : Uninterrupted t (log++[note]) := by
  unfold Uninterrupted
  rw [expiredSinceEcho_append, echoSinceSweep_append, hnote, hlast, hsettled, hlost]
  exact h

include h in
theorem sweep_uninterrupted (t : StreamSink) (ids : List ℕ)
    (hsettled : t.settledLoss = s.settledLoss) (hlost : t.writer.lost ≤ ids.length) :
    Uninterrupted t (log++ids.map .expired) := by
  have hbefore : s.settledLoss ≤ expiredSinceEcho log := (Nat.le_add_right _ _).trans h
  unfold Uninterrupted
  rw [expiredSinceEcho_sweep, hsettled]
  split_ifs <;> omega

include h in
/-- Losses that are counted in time are losses since the last echo. -/
theorem add_uninterrupted (lost : UInt32) (hw : s.writer = .losing 0 lost)
    (htimely : if s.reader = .idle then echoSinceSweep log = false
      else s.consecutiveLoss+lost < consecutiveLossThreshold) :
    (s.reader = .idle → (s.consecutiveLoss+lost).toNat ≤ expiredSinceEcho log) ∧
    (consecutiveLossThreshold ≤ s.consecutiveLoss+lost →
      consecutiveLossThreshold.toNat ≤ expiredSinceEcho log) := by
  have hidle : s.reader = .idle → (s.consecutiveLoss+lost).toNat ≤ expiredSinceEcho log := by
    intro hr
    rw [if_pos hr] at htimely
    unfold Uninterrupted StreamSink.settledLoss at h
    rw [if_pos hr, htimely, hw] at h
    have hsum : (s.consecutiveLoss+lost).toNat ≤ s.consecutiveLoss.toNat+lost.toNat := by
      rw [UInt32.toNat_add]
      exact Nat.mod_le _ _
    exact hsum.trans h
  refine ⟨hidle, ?_⟩
  intro hthreshold
  by_cases hr : s.reader = .idle
  · exact (UInt32.le_iff_toNat_le.mp hthreshold).trans (hidle hr)
  · rw [if_neg hr] at htimely
    exact absurd hthreshold (UInt32.not_le.mpr htimely)

omit h in
/-- Nothing is left to count once a sweep's losses are. -/
theorem counted_uninterrupted (t : StreamSink) (notes : List Note)
    (htally : expiredSinceEcho (log++notes) = expiredSinceEcho log) (hw : t.writer = .idle)
    (hidle : t.reader = .idle → t.consecutiveLoss.toNat ≤ expiredSinceEcho log) :
    Uninterrupted t (log++notes) := by
  unfold Uninterrupted StreamSink.settledLoss
  rw [htally, hw]
  show (if t.reader = .idle then t.consecutiveLoss.toNat else 0)+(if _ then 0 else 0) ≤ _
  rw [ite_self, Nat.add_zero]
  split_ifs with hr
  · exact hidle hr
  · exact Nat.zero_le _

include h in
theorem step_uninterrupted (a : Action)
    (htimely : a = .addConsecutiveLoss → ∀ lost ∈ s.writer.counting,
      if s.reader = .idle then echoSinceSweep log = false
      else s.consecutiveLoss+lost < consecutiveLossThreshold) :
    Uninterrupted (step nextID s a).1 (log++(step nextID s a).2) ∧
    (.dropRequested ∈ (step nextID s a).2 →
      consecutiveLossThreshold.toNat ≤ expiredSinceEcho log) := by
  have hstay : Uninterrupted s (log++[]) := by rwa [List.append_nil]
  fun_cases step nextID s a
  case case1 hw =>
    exact ⟨uninterrupted_still s log h _ _ (fun _ => rfl) (fun _ => rfl) rfl (by rw [hw]; rfl),by simp⟩
  case case3 now id hw =>
    exact ⟨uninterrupted_still s log h _ _ (fun _ => rfl) (fun _ => rfl) rfl (by rw [hw]; rfl),by simp⟩
  case case5 now hw expired lost =>
    refine ⟨sweep_uninterrupted s log h _ expired rfl ?_, by simp⟩
    have hlost : lost.toNat ≤ expired.length := by
      rw [UInt32.toNat_ofNat']
      exact Nat.mod_le _ _
    show (if lost = 0 then Writer.idle else Writer.losing lost lost).lost ≤ expired.length
    split_ifs
    · exact Nat.zero_le _
    · exact hlost
  case case8 left lost hw hleft =>
    exact ⟨uninterrupted_still s log h _ _ (fun _ => rfl) (fun _ => rfl) rfl (by rw [hw]; rfl),by simp⟩
  case case10 lost cl hdrop hw =>
    obtain ⟨hidle, hthreshold⟩ := add_uninterrupted s log h lost hw (htimely rfl lost (by rw [hw]; rfl))
    refine ⟨?_, fun _ => hthreshold hdrop.1⟩
    exact counted_uninterrupted log _ [.dropRequested] (expiredSinceEcho_append log _) rfl hidle
  case case11 lost cl hdrop hw =>
    obtain ⟨hidle, -⟩ := add_uninterrupted s log h lost hw (htimely rfl lost (by rw [hw]; rfl))
    refine ⟨?_, by simp⟩
    exact counted_uninterrupted log _ [] (by rw [List.append_nil]) rfl hidle
  case case14 hw => exact ⟨hstay,by simp⟩
  case case16 id sentAt hid hr =>
    refine ⟨?_, by simp⟩
    unfold Uninterrupted
    rw [expiredSinceEcho_append, echoSinceSweep_append]
    exact Nat.le_refl 0
  case case18 hr =>
    refine ⟨?_, by simp⟩
    refine uninterrupted_still s log h _ _ (fun _ => rfl) (fun _ => rfl) ?_ rfl
    unfold StreamSink.settledLoss
    rw [hr]
    rfl
  case case20 hr =>
    refine ⟨?_, by simp⟩
    rw [List.append_nil]
    have hzero : s.settledLoss = 0 := by
      unfold StreamSink.settledLoss
      rw [hr]
      rfl
    unfold Uninterrupted at h ⊢
    rw [hzero] at h
    exact h
  all_goals exact ⟨hstay,by simp⟩

end Steps

theorem call_uninterrupted (s : Logged StreamSink Note) (c : Call)
    (hs : Uninterrupted s.state s.log) (hc : Timely s c) :
    Uninterrupted (logged call callNotes s c).state (logged call callNotes s c).log :=
  (step_uninterrupted c.1 s.state s.log hs c.2 hc).1

theorem newSinkHistory_uninterrupted : Uninterrupted newSinkHistory.state newSinkHistory.log :=
  Nat.le_refl 0

end Invariant

/-- Whatever the two do in which order, a sink whose sweeps count in time is
dropped only after enough losses since the last echo. -/
theorem drops_justified (calls : List Call)
    (htimely : Along (logged call callNotes) Timely newSinkHistory calls) :
    Along (logged call callNotes) Justified newSinkHistory calls :=
  along_imp (logged call callNotes) Timely Justified (fun s => Uninterrupted s.state s.log)
    call_uninterrupted (fun s c hs hc => (step_uninterrupted c.1 s.state s.log hs c.2 hc).2)
    newSinkHistory calls newSinkHistory_uninterrupted htimely

def unansweredProbes : List Call :=
  [(0,.draw),(1,.insert 0),(1,.draw),(2,.insert 0),(2,.draw),(3,.insert 0),(3,.draw),(4,.insert 0),
    (4,.draw),(5,.insert 0),(5,.sweep (6*second)),(5,.incProbeLoss),(5,.incProbeLoss),
    (5,.incProbeLoss),(5,.incProbeLoss),(5,.incProbeLoss)]

theorem unanswered_justified :
    Along (logged call callNotes) Justified newSinkHistory (unansweredProbes++[(5,.addConsecutiveLoss)]) :=
  drops_justified _ (by decide +kernel)

def answeredProbes : List Call :=
  [(0,.draw),(1,.insert 0),(1,.draw),(2,.insert 0),(2,.draw),(3,.insert 0),(3,.draw),(4,.insert 0),
    (4,.draw),(5,.insert 0),(5,.draw),(6,.insert (5*second)),(6,.sweep (6*second)),(6,.incProbeLoss),
    (6,.incProbeLoss),(6,.incProbeLoss),(6,.incProbeLoss),(6,.incProbeLoss),(6,.echo 5),
    (6,.recordEcho),(6,.resetConsecutiveLoss),(6,.addConsecutiveLoss)]

theorem answered_unjustified :
    ¬Along (logged call callNotes) Justified newSinkHistory answeredProbes := by
  decide +kernel

end Aevia.Mirror.Probes
