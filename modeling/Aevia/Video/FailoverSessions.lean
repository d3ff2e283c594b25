import Aevia.Video.WhepFailover

/-!
# One session at a time

A session that is not stopped is the active one, and every cleanup in progress
waits on the active session or finds it gone. The loop dials only with no active
session, and never once `stop()` was called before the head of the loop.
-/

set_option autoImplicit false

namespace Aevia.Failover
open Aevia.Run

section Unstopped

def Attempt.Unstopped (a : Attempt) : Prop :=
  ∃ status, a.session = some status ∧ status ≠ .stopped

def Unstopped (attempts : List Attempt) (k : ℕ) : Prop :=
  ∃ a, attempts[k]? = some a ∧ a.Unstopped

variable (attempts : List Attempt) (i k : ℕ)

theorem unstopped_modify (f : Attempt → Attempt) :
    Unstopped (attempts.modify i f) k ↔
      ∃ a, attempts[k]? = some a ∧ (if i = k then f a else a).Unstopped := by
  unfold Unstopped
  rw [List.getElem?_modify]
  by_cases hik : i = k <;> simp [hik]

theorem unstopped_keeps (f : Attempt → Attempt) (hf : ∀ a, (f a).Unstopped → a.Unstopped)
    (h : Unstopped (attempts.modify i f) k) : Unstopped attempts k := by
  obtain ⟨a, ha, hunstopped⟩ := (unstopped_modify attempts i k f).mp h
  split_ifs at hunstopped
  · exact ⟨a,ha,hf a hunstopped⟩
  · exact ⟨a,ha,hunstopped⟩

theorem stopSession_unstopped (a : Attempt) (h : a.stopSession.Unstopped) : a.Unstopped := by
  obtain ⟨status, hsession, hstatus⟩ := h
  obtain ⟨before, hbefore, rfl⟩ := Option.map_eq_some_iff.mp hsession
  refine ⟨before, hbefore, ?_⟩
  rintro rfl
  exact hstatus rfl

theorem unstopped_settled
    (h : Unstopped (attempts.modify i fun a => { a with session := some .stopped }) k) :
    k ≠ i ∧ Unstopped attempts k := by
  obtain ⟨a, ha, hunstopped⟩ := (unstopped_modify attempts i k _).mp h
  split_ifs at hunstopped with hik
  · obtain ⟨status, hsession, hstatus⟩ := hunstopped
    exact absurd (Option.some.inj hsession).symm hstatus
  · exact ⟨Ne.symm hik,a,ha,hunstopped⟩

theorem unstopped_opened
    (h : Unstopped (attempts.modify i fun a => { a with session := some .active }) k) :
    k = i ∨ Unstopped attempts k := by
  obtain ⟨a, ha, hunstopped⟩ := (unstopped_modify attempts i k _).mp h
  split_ifs at hunstopped with hik
  · exact .inl hik.symm
  · exact .inr ⟨a,ha,hunstopped⟩

theorem unstopped_dialled (h : Unstopped (attempts++[Attempt.dialled]) k) :
    Unstopped attempts k := by
  obtain ⟨a, ha, status, hsession, hstatus⟩ := h
  rw [List.getElem?_append] at ha
  split_ifs at ha with hk
  · exact ⟨a,ha,status,hsession,hstatus⟩
  · obtain rfl := List.mem_singleton.mp (List.mem_of_getElem? ha)
    cases hsession

end Unstopped

section Invariant
variable {Stream : Type*} (opts : FailoverOptions)

/-- The session that the loop waits to be stopped. -/
def Loop.stopping : Loop → Option ℕ
  | .cleaning _ (.stopping k) _ => some k
  | _ => none

def Loop.Idle : Loop → Prop
  | .connecting _ _ => True
  | .dialling _ _ => True
  | .cleaning _ .cleared _ => True
  | .returned => True
  | _ => False

def Loop.Opening : Loop → Prop
  | .connecting _ _ => True
  | .dialling _ _ => True
  | _ => False

theorem Loop.Opening.idle (l : Loop) (h : l.Opening) : l.Idle := by
  cases l <;> trivial

structure Orderly (s : Player Stream) : Prop where
  unstopped : ∀ k, Unstopped s.attempts k → s.activeSession = some k
  loop : ∀ k, s.loop.stopping = some k → ∀ j, s.activeSession = some j → j = k
  stops : ∀ k, .cleaning (.stopping k) ∈ s.stops → ∀ j, s.activeSession = some j → j = k
  idle : s.loop.Idle → s.activeSession = none
  opening : s.loop.Opening → ∀ k, .cleaning (.stopping k) ∉ s.stops
  stopped : s.stops ≠ [] → s.stopped = true

theorem Orderly.keep (s s' : Player Stream) (h : Orderly s)
    (hunstopped : ∀ k, Unstopped s'.attempts k → Unstopped s.attempts k)
    (hactive : s'.activeSession = s.activeSession) (hstops : s'.stops = s.stops)
    (hstopped : s'.stopped = s.stopped)
    (hstopping : ∀ k, s'.loop.stopping = some k → s.loop.stopping = some k)
    (hidle : s'.loop.Idle → s.loop.Idle) (hopening : s'.loop.Opening → s.loop.Opening) :
    Orderly s' where
  unstopped k hk := hactive ▸ h.unstopped k (hunstopped k hk)
  loop k hk := hactive ▸ h.loop k (hstopping k hk)
  stops := by rw [hactive, hstops]; exact h.stops
  idle hk := hactive ▸ h.idle (hidle hk)
  opening hk := by rw [hstops]; exact h.opening (hopening hk)
  stopped := by rw [hstops, hstopped]; exact h.stopped

variable (s : Player Stream) (h : Orderly s)

include h in
theorem stop_orderly : Orderly (stop s) := by
  unfold stop
  rcases cleanupActive_cases { s with stopped := true } with ⟨hnone, hclean⟩ | ⟨k, hactive, hclean⟩
  all_goals rw [hclean]
  · refine ⟨h.unstopped, h.loop, ?_, h.idle, ?_, fun _ => rfl⟩
    · intro k hk
      rw [List.mem_append, List.mem_singleton] at hk
      exact h.stops k (hk.resolve_right (by simp))
    · intro hopening k hk
      rw [List.mem_append, List.mem_singleton] at hk
      exact h.opening hopening k (hk.resolve_right (by simp))
  · -- the loop has opened a session, so it is not about to dial
    refine ⟨?_, h.loop, ?_, h.idle, ?_, fun _ => rfl⟩
    · intro j hj
      exact h.unstopped j (unstopped_keeps _ _ _ _ stopSession_unstopped hj)
    · intro j hj i hi
      rcases List.mem_append.mp hj with hj | hj
      · exact h.stops j hj i hi
      · cases List.mem_singleton.mp hj
        exact Option.some.inj (hi.symm.trans hactive)
    · intro hopening
      cases hactive.symm.trans (h.idle hopening.idle)

include h in
theorem cleanThen_orderly (i : ℕ) (after : After) :
    Orderly (cleanThen s i after) := by
  unfold cleanThen
  rcases cleanupActive_cases s with ⟨hnone, hclean⟩ | ⟨k, hactive, hclean⟩
  all_goals rw [hclean]
  · exact ⟨h.unstopped,nofun,h.stops,fun _ => hnone,nofun,h.stopped⟩
  · refine ⟨?_, ?_, h.stops, nofun, nofun, h.stopped⟩
    · intro j hj
      exact h.unstopped j (unstopped_keeps _ _ _ _ stopSession_unstopped hj)
    · intro j hj i hi
      cases hj
      exact Option.some.inj (hi.symm.trans hactive)

include h in
theorem clearActive_stopped (k : ℕ) (hk : ∀ j, s.activeSession = some j → j = k) (j : ℕ) :
    ¬ Unstopped (clearActive s k).attempts j := by
  intro hj
  obtain ⟨hne, hunstopped⟩ := unstopped_settled _ _ _ hj
  exact hne (hk j (h.unstopped j hunstopped))

include h in
theorem cleanupSettled_orderly : Orderly (cleanupSettled s) := by
  unfold cleanupSettled
  split
  · next i k after hloop =>
    have hk := h.loop k (by rw [hloop]; rfl)
    exact ⟨fun j hj => (clearActive_stopped s h k hk j hj).elim,nofun,nofun,fun _ => rfl,nofun,
      h.stopped⟩
  · exact h

include h in
theorem stopSettled_orderly (call : ℕ) : Orderly (stopSettled s call) := by
  unfold stopSettled
  split
  · next k hcall =>
    have hmem := List.mem_of_getElem? hcall
    refine ⟨fun j hj => (clearActive_stopped s h k (h.stops k hmem) j hj).elim, nofun, nofun,
      fun _ => rfl, ?_, ?_⟩
    · intro hopening
      exact (h.opening hopening k hmem).elim
    · intro hstops
      exact h.stopped (List.ne_nil_of_mem hmem)
  · exact h

include h in
theorem stopResolves_orderly (call : ℕ) : Orderly (stopResolves s call) := by
  unfold stopResolves
  split
  · next hcall =>
    have hstops : ∀ k, .cleaning (.stopping k) ∈ s.stops.set call .resolved →
        .cleaning (.stopping k) ∈ s.stops := by
      intro k hk
      exact (List.mem_or_eq_of_mem_set hk).resolve_right nofun
    refine ⟨h.unstopped, h.loop, fun k hk => h.stops k (hstops k hk), h.idle, ?_, ?_⟩
    · intro hopening k hk
      exact h.opening hopening k (hstops k hk)
    · intro _
      exact h.stopped (List.ne_nil_of_mem (List.mem_of_getElem? hcall))
  · exact h

include h in
theorem iterate_orderly (i : ℕ) (hidle : s.loop.Idle) : Orderly (iterate opts s i) := by
  have hactive := h.idle hidle
  have hunstopped : ∀ k, ¬ Unstopped s.attempts k := by
    intro k hk
    cases hactive.symm.trans (h.unstopped k hk)
  unfold iterate
  split
  · next candidate _ hgo =>
    -- the loop goes on, so `stop()` was not called
    have hstops : s.stops = [] := by
      by_contra hne
      cases hgo.symm.trans (h.stopped hne)
    refine ⟨?_, nofun, ?_, ?_, ?_, ?_⟩ <;> simp [hactive, hstops, hunstopped]
  · refine ⟨?_, nofun, ?_, ?_, nofun, ?_⟩ <;> simp [hactive, hunstopped]
    exact fun hne => h.stopped hne

include h in
theorem resume_orderly : Orderly (resume opts s) := by
  unfold resume
  split
  · next i hloop =>
    split
    · exact h
    · split_ifs
      · exact cleanThen_orderly s h i .leave
      · exact h.keep s _ (fun k hk => hk) rfl rfl rfl nofun nofun nofun
      · exact cleanThen_orderly s h i .advance
  · split_ifs
    · exact cleanThen_orderly s h _ .leave
    · refine h.keep s _ ?_ ?_ ?_ ?_ nofun nofun nofun <;> simp
  · next i hloop => exact iterate_orderly opts s h (i+1) (by rw [hloop]; trivial)
  · next i hloop =>
    exact h.keep s _ (fun k hk => hk) rfl rfl rfl nofun (fun _ => by rw [hloop]; trivial) nofun
  · exact h

include h in
theorem played_orderly (stream : Option Stream) : Orderly (played s stream) := by
  unfold played
  split
  · next i candidate hloop =>
    have hactive := h.idle (by rw [hloop]; trivial)
    have hstops := h.opening (by rw [hloop]; trivial)
    have hopened : ∀ k, Unstopped
        (s.attempts.modify i fun a => { a with session := some .active }) k → some i = some k := by
      intro k hk
      rcases unstopped_opened _ _ _ hk with rfl | hk
      · rfl
      · cases hactive.symm.trans (h.unstopped k hk)
    cases stream with
    | none => exact ⟨hopened,nofun,fun k hk => (hstops k hk).elim,nofun,nofun,h.stopped⟩
    | some stream => exact ⟨hopened,nofun,fun k hk => (hstops k hk).elim,nofun,nofun,h.stopped⟩
  · exact h

include h in
theorem callbackReturns_orderly : Orderly (callbackReturns opts s) := by
  unfold callbackReturns
  split
  · next i candidate hloop =>
    exact h.keep s _ (fun k hk => unstopped_dialled _ _ hk) rfl rfl rfl nofun
      (fun _ => by rw [hloop]; trivial) (fun _ => by rw [hloop]; trivial)
  · exact cleanThen_orderly s h _ .advance
  · exact h

include h in
theorem rejected_orderly : Orderly (rejected s) := by
  unfold rejected
  split
  · exact cleanThen_orderly s h _ .advance
  · exact h

include h in
theorem check_orderly : Orderly (check s) := by
  unfold check
  split
  · split_ifs
    · exact h.keep s _ (fun k hk => hk) rfl rfl rfl nofun nofun nofun
    · exact h
  · exact h

include h in
theorem modify_orderly (i : ℕ) (f : Attempt → Attempt) (hf : ∀ a, (f a).session = a.session) :
    Orderly { s with attempts := s.attempts.modify i f } := by
  refine h.keep s _ ?_ rfl rfl rfl (fun _ hk => hk) id id
  intro k
  refine unstopped_keeps _ _ _ _ ?_
  intro a ha
  rwa [Attempt.Unstopped, hf] at ha

include h in
theorem emit_orderly (state : FailoverState) : Orderly (emit opts s state) := by
  refine h.keep s _ ?_ ?_ ?_ ?_ ?_ ?_ ?_ <;> simp

include h in
theorem onConnectionStateChange_orderly (i : ℕ) (state : ConnectionState) :
    Orderly (onConnectionStateChange opts s i state) := by
  unfold onConnectionStateChange
  split
  · exact h
  · split_ifs
    · exact h
    · refine emit_orderly opts _ ?_ .connected
      exact modify_orderly s h i _ fun a => rfl
    · exact modify_orderly s h i _ fun a => rfl
    · exact h

include h in
theorem next_orderly (e : Event Stream) : Orderly (next opts s e) := by
  cases e with
  | callbackReturns => exact callbackReturns_orderly opts s h
  | stop => exact stop_orderly s h
  | resume => exact unless_inCallback s Orderly _ h (resume_orderly opts s h)
  | played stream => exact unless_inCallback s Orderly _ h (played_orderly s h stream)
  | rejected => exact unless_inCallback s Orderly _ h (rejected_orderly s h)
  | connectionState i state =>
    exact unless_inCallback s Orderly _ h (onConnectionStateChange_orderly opts s h i state)
  | connectTimer i =>
    refine unless_inCallback s Orderly _ h (modify_orderly s h i _ ?_)
    exact fun a => a.connectTimeout_session
  | poll i =>
    refine unless_inCallback s Orderly _ h (modify_orderly s h i _ ?_)
    exact fun a => a.polled_session s.stopped
  | check => exact unless_inCallback s Orderly _ h (check_orderly s h)
  | cleanupSettled => exact unless_inCallback s Orderly _ h (cleanupSettled_orderly s h)
  | stopSettled call => exact unless_inCallback s Orderly _ h (stopSettled_orderly s h call)
  | stopResolves call => exact unless_inCallback s Orderly _ h (stopResolves_orderly s h call)

theorem start_orderly : Orderly (playWhepWithFailover opts : Player Stream) := by
  refine callbackReturns_orderly opts _ ?_
  have hinitial : Orderly (⟨false,none,none,0,[],.returned,[],[]⟩ : Player Stream) := by
    refine ⟨?_, nofun, nofun, fun _ => rfl, nofun, fun hne => (hne rfl).elim⟩
    rintro k ⟨a, ha, -⟩
    cases ha
  unfold startLoop
  split_ifs
  · exact emit_orderly opts _ hinitial .failedAll
  · exact iterate_orderly opts _ hinitial 0 trivial

theorem run_orderly (events : List (Event Stream)) :
    Orderly (run (next opts) (playWhepWithFailover opts) events) :=
  run_invariant (next opts) Orderly (fun s e h => next_orderly opts s h e) _ events
    (start_orderly opts)

include h in
theorem Orderly.one (j k : ℕ) (hj : Unstopped s.attempts j) (hk : Unstopped s.attempts k) :
    j = k :=
  Option.some.inj ((h.unstopped j hj).symm.trans (h.unstopped k hk))

include h in
theorem Orderly.returned (hloop : s.loop = .returned) (k : ℕ) : ¬ Unstopped s.attempts k := by
  intro hk
  cases (h.idle (by rw [hloop]; trivial)).symm.trans (h.unstopped k hk)

end Invariant

end Aevia.Failover
