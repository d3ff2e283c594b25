import Aevia.Video.FailoverDials
import Aevia.Video.FailoverSessions

/-!
# After `stop()`

State changes are suppressed from the call of `stop()` on. A stream is handed over
without a look at `stopped`, so a dial that was pending when the promise of `stop()`
resolved still calls back.
-/

set_option autoImplicit false

namespace Aevia.Failover
open Aevia.Bytes Aevia.Run

variable {Stream : Type*} (opts : FailoverOptions)

/-- No callback comes once a promise of `stop()` has resolved. -/
def Quiet (log : List (Call Stream)) : Prop :=
  log.Pairwise fun call later => call.isStopResolved = true → later.isCallback = false

structure StopsCleanly (s : Player Stream) : Prop where
  dials : dialled s.log <+: opts.candidates
  oneSession : ∀ j k, Unstopped s.attempts j → Unstopped s.attempts k → j = k
  failedOnce : s.log.countP Call.isFailedAll ≤ 1
  failedLast : ∀ before ctx, before++[.onStateChange .failedAll ctx] <+: s.log →
    dialled before = opts.candidates
  failedFinal : s.log.Pairwise fun call later => call.isFailedAll = true → later.isStream = false
  quiet : Quiet s.log

/-- A dial hands over a stream once a promise of `stop()` has resolved. -/
def LateStream (s : Player Stream) (e : Event Stream) : Prop :=
  (∃ call ∈ s.log, call.isStopResolved = true) ∧
    ∃ i candidate stream, s.loop = .dialling i candidate ∧ e = .played (some stream)

section Quiet
variable (s : Player Stream) (e : Event Stream)

theorem quiet_say (log : List (Call Stream)) (later : Call Stream) :
    Quiet (log++[later]) ↔
      Quiet log ∧ ∀ call ∈ log, call.isStopResolved = true → later.isCallback = false := by
  simp [Quiet, List.pairwise_append]

def Told : Prop := ∀ call ∈ s.log, call.isStopResolved = true → s.stopped = true

theorem next_told (hs : Orderly s) (h : Told s) : Told (next opts s e) := by
  intro call hcall hresolved
  have hsay : ∀ said, (next opts s e).log = s.log++[said] → said.isStopResolved = false →
      s.stopped = true := by
    intro said hlog hsaid
    rw [hlog] at hcall
    rcases List.mem_append.mp hcall with hcall | hcall
    · exact h call hcall hresolved
    · cases List.mem_singleton.mp hcall
      cases hsaid.symm.trans hresolved
  cases next_moves opts s e with
  | silent hkeep hlog => exact hkeep.stopped (h call (hlog ▸ hcall) hresolved)
  | stateChange state ctx hkeep hstate hstopped hlog => exact hkeep.stopped (hsay _ hlog rfl)
  | stream stream i candidate hkeep he hloop hlog => exact hkeep.stopped (hsay _ hlog rfl)
  | stopResolved call hkeep hstops hlog => exact hkeep.stopped (hs.stopped hstops)
  | dial i candidate hloop hattempts hloop' hstopped hlog =>
    exact hstopped.trans (hsay _ hlog rfl)
  | failedAll ctx hloop hlast hloop' hattempts hstopped hgo hlog =>
    exact hstopped.trans (hsay _ hlog rfl)

theorem next_quiet (h : Told s) (hquiet : Quiet s.log) (hlate : ¬ LateStream s e) :
    Quiet (next opts s e).log := by
  cases next_moves opts s e with
  | silent hkeep hlog =>
    rw [hlog]
    exact hquiet
  | stateChange state ctx hkeep hstate hstopped hlog =>
    rw [hlog, quiet_say]
    exact ⟨hquiet,fun call hcall hresolved => by cases hstopped.symm.trans (h call hcall hresolved)⟩
  | stream stream i candidate hkeep he hloop hlog =>
    rw [hlog, quiet_say]
    refine ⟨hquiet, fun call hcall hresolved => ?_⟩
    exact (hlate ⟨⟨call,hcall,hresolved⟩,i,candidate,stream,hloop,he⟩).elim
  | stopResolved call hkeep hstops hlog =>
    rw [hlog, quiet_say]
    exact ⟨hquiet,fun _ _ _ => rfl⟩
  | dial i candidate hloop hattempts hloop' hstopped hlog =>
    rw [hlog, quiet_say]
    exact ⟨hquiet,fun _ _ _ => rfl⟩
  | failedAll ctx hloop hlast hloop' hattempts hstopped hgo hlog =>
    rw [hlog, quiet_say]
    exact ⟨hquiet,fun call hcall hresolved => by cases hgo.symm.trans (h call hcall hresolved)⟩

theorem lateStream_not_quiet (h : LateStream s e) : ¬ Quiet (next opts s e).log := by
  obtain ⟨⟨call, hcall, hresolved⟩, i, candidate, stream, hloop, rfl⟩ := h
  have hlog : (next opts s (.played (some stream))).log = s.log++[.onStream stream candidate] := by
    simp only [next, played, hloop]
    rfl
  rw [hlog, quiet_say]
  rintro ⟨-, hquiet⟩
  cases hquiet call hcall hresolved

theorem next_log_grows : s.log <+: (next opts s e).log := by
  cases next_moves opts s e with
  | silent hkeep hlog => rw [hlog]
  | stateChange state ctx hkeep hstate hstopped hlog => exact ⟨_,hlog.symm⟩
  | stream stream i candidate hkeep he hloop hlog => exact ⟨_,hlog.symm⟩
  | stopResolved call hkeep hstops hlog => exact ⟨_,hlog.symm⟩
  | dial i candidate hloop hattempts hloop' hstopped hlog => exact ⟨_,hlog.symm⟩
  | failedAll ctx hloop hlast hloop' hattempts hstopped hgo hlog => exact ⟨_,hlog.symm⟩

theorem run_log_grows (events : List (Event Stream)) :
    s.log <+: (run (next opts) s events).log :=
  run_invariant (next opts) (fun s' => s.log <+: s'.log)
    (fun s' e h => h.trans (next_log_grows opts s' e)) s events (List.prefix_refl _)

theorem start_log : ∀ call ∈ (playWhepWithFailover opts : Player Stream).log,
    call.isStopResolved = false := by
  unfold playWhepWithFailover startLoop iterate
  split_ifs
  · simp [callbackReturns, emit, Player.say, Call.isStopResolved]
  · split <;> simp [callbackReturns, emit, dial, Player.say, Call.isStopResolved]

theorem start_told : Told (playWhepWithFailover opts : Player Stream) := by
  intro call hcall hresolved
  cases (start_log opts call hcall).symm.trans hresolved

theorem start_quiet : Quiet (playWhepWithFailover opts : Player Stream).log := by
  refine List.Pairwise.imp_of_mem ?_ (List.pairwise_of_forall fun _ _ => trivial)
  intro call _ hcall _ _ hresolved
  cases (start_log opts call hcall).symm.trans hresolved

/-- A run is quiet after `stop()` unless a dial comes late. -/
theorem run_quiet (events : List (Event Stream)) (hs : Orderly s) (htold : Told s)
    (hquiet : Quiet s.log) :
    Quiet (run (next opts) s events).log ↔
      Along (next opts) (fun s e => ¬ LateStream s e) s events := by
  constructor
  · rw [along_iff]
    rintro hrun before e ⟨after, rfl⟩ hlate
    rw [List.append_assoc, run_append] at hrun
    refine lateStream_not_quiet opts _ e hlate ?_
    exact hrun.sublist (run_log_grows opts _ after).sublist
  · intro halong
    refine (along_invariant (next opts) (fun s e => ¬ LateStream s e)
      (fun s => Orderly s ∧ Told s ∧ Quiet s.log) ?_ s events ⟨hs,htold,hquiet⟩ halong).2.2
    rintro s e ⟨hs, htold, hquiet⟩ hlate
    exact ⟨next_orderly opts s hs e,next_told opts s e hs htold,
      next_quiet opts s e htold hquiet hlate⟩

end Quiet

/-- A run stops cleanly exactly if no dial hands over a stream once a promise of `stop()`
has resolved; all but the quiet holds of every run. -/
theorem stops_cleanly_exact (events : List (Event Stream)) :
    StopsCleanly opts (run (next opts) (playWhepWithFailover opts) events) ↔
      Along (next opts) (fun s e => ¬ LateStream s e) (playWhepWithFailover opts) events := by
  rw [← run_quiet opts _ events (start_orderly opts) (start_told opts) (start_quiet opts)]
  constructor
  · exact fun h => h.quiet
  · intro hquiet
    have horder := run_inOrder opts events
    have hsessions := run_orderly opts events
    exact ⟨horder.dials ▸ List.take_prefix _ _,hsessions.one _,horder.once,horder.last,horder.final,
      hquiet⟩

def oneCandidate : FailoverOptions :=
  ⟨ascii "session", [⟨ascii "12D3KooW", ascii "https://mirror.example"⟩]⟩

theorem stops_cleanly_fails :
    ¬ StopsCleanly oneCandidate (run (next oneCandidate) (playWhepWithFailover oneCandidate)
      [.stop, .stopResolves 0, .played (some ())]) := by
  intro h
  exact absurd h.quiet (by unfold Quiet; decide)

end Aevia.Failover
