import Aevia.Video.WhepFailover

/-!
# What a step of the player says

A step appends at most one call to the log. The attempts are the first candidates
of the list, and so are the dials; `failed-all` comes past the last candidate, when
the loop is over.
-/

set_option autoImplicit false

namespace Aevia.Failover
open Aevia.Run

section Log
variable {Stream : Type*}

def Call.dialled : Call Stream → Option FailoverCandidate
  | .playWhep _ candidate => some candidate
  | _ => none

/-- The candidates that were dialled, in this order. -/
def dialled (log : List (Call Stream)) : List FailoverCandidate := log.filterMap Call.dialled

def Call.isFailedAll : Call Stream → Bool
  | .onStateChange .failedAll _ => true
  | _ => false

def Call.isStream : Call Stream → Bool
  | .onStream _ _ => true
  | _ => false

def Call.isStopResolved : Call Stream → Bool
  | .stopResolved _ => true
  | _ => false

def Call.isCallback : Call Stream → Bool
  | .onStateChange _ _ => true
  | .onStream _ _ => true
  | _ => false

end Log

section Moves
variable {Stream : Type*} (opts : FailoverOptions)

/-- The loop is where it is with the first `n` candidates dialled. -/
def Loop.At (n : ℕ) : Loop → Prop
  | .connecting i candidate => i = n ∧ opts.candidates[i]? = some candidate
  | .dialling i _ => i+1 = n
  | .awaiting i => i+1 = n
  | .watching i => i+1 = n
  | .watched i => i+1 = n
  | .failingOver i => i+1 = n
  | .cleaning i _ _ => i+1 = n
  | .returned => True

def Loop.index : Loop → Option ℕ
  | .connecting _ _ => none
  | .dialling i _ => some i
  | .awaiting i => some i
  | .watching i => some i
  | .watched i => some i
  | .failingOver i => some i
  | .cleaning i _ _ => some i
  | .returned => none

theorem Loop.at_index (l : Loop) (i n : ℕ) (hi : l.index = some i) : l.At opts n ↔ i+1 = n := by
  cases l <;> cases hi <;> rfl

structure Keeps (s s' : Player Stream) : Prop where
  attempts : s'.attempts.length = s.attempts.length
  place : ∀ n, s.loop.At opts n → s'.loop.At opts n
  returned : s.loop = .returned → s'.loop = .returned
  stopped : s.stopped = true → s'.stopped = true

inductive Moves (s : Player Stream) (e : Event Stream) (s' : Player Stream) : Prop
  | silent (h : Keeps opts s s') (hlog : s'.log = s.log)
  | stateChange (state : FailoverState) (ctx : FailoverStateContext) (h : Keeps opts s s')
    (hstate : state ≠ .failedAll) (hstopped : s.stopped = false)
    (hlog : s'.log = s.log++[.onStateChange state ctx])
  | stream (stream : Stream) (i : ℕ) (candidate : FailoverCandidate) (h : Keeps opts s s')
    (he : e = .played (some stream)) (hloop : s.loop = .dialling i candidate)
    (hlog : s'.log = s.log++[.onStream stream candidate])
  | stopResolved (call : ℕ) (h : Keeps opts s s') (hstops : s.stops ≠ [])
    (hlog : s'.log = s.log++[.stopResolved call])
  | dial (i : ℕ) (candidate : FailoverCandidate) (hloop : s.loop = .connecting i candidate)
    (hattempts : s'.attempts.length = s.attempts.length+1)
    (hloop' : s'.loop = .dialling i candidate) (hstopped : s'.stopped = s.stopped)
    (hlog : s'.log = s.log++[.playWhep (whepUrl opts candidate) candidate])
  | failedAll (ctx : FailoverStateContext) (hloop : s.loop ≠ .returned)
    (hlast : ∀ n, s.loop.At opts n → opts.candidates.length ≤ n) (hloop' : s'.loop = .returned)
    (hattempts : s'.attempts = s.attempts) (hstopped : s'.stopped = s.stopped)
    (hgo : s.stopped = false) (hlog : s'.log = s.log++[.onStateChange .failedAll ctx])

variable (s : Player Stream) (e : Event Stream)

theorem Keeps.refl : Keeps opts s s := ⟨rfl,fun _ => id,id,id⟩

theorem Keeps.within (s' : Player Stream) (i : ℕ) (hi : s.loop.index = some i)
    (hi' : s'.loop.index = some i) (hattempts : s'.attempts.length = s.attempts.length)
    (hstopped : s.stopped = true → s'.stopped = true) : Keeps opts s s' := by
  refine ⟨hattempts, ?_, ?_, hstopped⟩
  · intro n hn
    exact (Loop.at_index opts _ i n hi').mpr ((Loop.at_index opts _ i n hi).mp hn)
  · intro hloop
    rw [hloop] at hi
    cases hi

theorem Moves.refl : Moves opts s e s := .silent (Keeps.refl opts s) rfl

/-- A state change is emitted, unless `stop()` was called. -/
theorem emit_moves (before s' : Player Stream) (state : FailoverState)
    (hstate : state ≠ .failedAll) (hbefore : before.log = s.log)
    (hstopped : before.stopped = s.stopped) (h : Keeps opts s s')
    (hlog : s'.log = (emit opts before state).log) : Moves opts s e s' := by
  rcases emit_cases opts before state with ⟨hstop, hemit⟩ | ⟨hstop, hemit⟩
  · exact .silent h (by rw [hlog, hemit, hbefore])
  · refine .stateChange state ⟨before.activeCand, before.attempt, opts.candidates.length⟩ h hstate
      (hstopped ▸ hstop) ?_
    rw [hlog, hemit, ← hbefore]
    rfl

theorem cleanupActive_keeps :
    Keeps opts s (cleanupActive s).1 ∧ (cleanupActive s).1.log = s.log := by
  rcases cleanupActive_cases s with ⟨-, hclean⟩ | ⟨k, -, hclean⟩ <;> rw [hclean]
  · exact ⟨⟨rfl,fun _ => id,id,id⟩,rfl⟩
  · exact ⟨⟨List.length_modify _ _ _,fun _ => id,id,id⟩,rfl⟩

theorem cleanThen_moves (i : ℕ) (after : After) (hi : s.loop.index = some i) :
    Moves opts s e (cleanThen s i after) := by
  obtain ⟨h, hlog⟩ := cleanupActive_keeps opts s
  exact .silent (.within opts s _ i hi rfl h.attempts h.stopped) hlog

theorem stop_moves : Moves opts s e (stop s) := by
  obtain ⟨h, hlog⟩ := cleanupActive_keeps opts { s with stopped := true }
  exact .silent ⟨h.attempts,h.place,h.returned,fun _ => h.stopped rfl⟩ hlog

theorem callbackReturns_moves : Moves opts s e (callbackReturns opts s) := by
  unfold callbackReturns
  split
  · next i candidate hloop =>
    exact .dial i candidate hloop (List.length_append) rfl rfl rfl
  · next i hloop => exact cleanThen_moves opts s e i .advance (by rw [hloop]; rfl)
  · exact .refl opts s e

theorem iterate_moves (i : ℕ) (hi : s.loop.index = some i) :
    Moves opts s e (iterate opts s (i+1)) := by
  have hloop : s.loop ≠ .returned := by
    intro hloop
    rw [hloop] at hi
    cases hi
  unfold iterate
  split
  · next candidate hcandidate hgo =>
    refine emit_moves opts s e { s with attempt := i+1+1, activeCand := some candidate } _
      .connecting nofun rfl rfl ⟨?_, ?_, fun h => (hloop h).elim, ?_⟩ rfl
    · simp
    · intro n hn
      exact ⟨(Loop.at_index opts _ i n hi).mp hn,hcandidate⟩
    · simp
  · next hend =>
    rcases emit_cases opts s .failedAll with ⟨hstop, hemit⟩ | ⟨hgo, hemit⟩ <;> rw [hemit]
    · exact .silent ⟨rfl,fun _ _ => trivial,fun _ => rfl,id⟩ rfl
    · refine .failedAll ⟨s.activeCand, s.attempt, opts.candidates.length⟩ hloop ?_ rfl
        rfl rfl hgo rfl
      intro n hn
      rw [← (Loop.at_index opts _ i n hi).mp hn, ← List.getElem?_eq_none_iff]
      cases hcandidate : opts.candidates[i+1]? with
      | none => rfl
      | some candidate => exact (hend candidate hcandidate hgo).elim

theorem resume_moves : Moves opts s e (resume opts s) := by
  unfold resume
  split
  · next i hloop =>
    have hi : s.loop.index = some i := by rw [hloop]; rfl
    split
    · exact .refl opts s e
    · split_ifs
      · exact cleanThen_moves opts s e i .leave hi
      · exact .silent (.within opts s _ i hi rfl rfl id) rfl
      · exact cleanThen_moves opts s e i .advance hi
  · next i hloop =>
    have hi : s.loop.index = some i := by rw [hloop]; rfl
    split_ifs
    · exact cleanThen_moves opts s e i .leave hi
    · have hkeeps : Keeps opts s
          { emit opts s .failingOver with loop := .failingOver i } := by
        refine .within opts s _ i hi rfl ?_ ?_ <;> simp
      exact emit_moves opts s e s _ .failingOver nofun rfl rfl hkeeps rfl
  · next i hloop => exact iterate_moves opts s e i (by rw [hloop]; rfl)
  · exact .silent ⟨rfl,fun _ _ => trivial,fun _ => rfl,id⟩ rfl
  · exact .refl opts s e

theorem played_moves (stream : Option Stream) (he : e = .played stream) :
    Moves opts s e (played s stream) := by
  unfold played
  split
  · next i candidate hloop =>
    have hi : s.loop.index = some i := by rw [hloop]; rfl
    cases stream with
    | none => exact .silent (.within opts s _ i hi rfl (List.length_modify _ _ _) id) rfl
    | some stream =>
      exact .stream stream i candidate (.within opts s _ i hi rfl (List.length_modify _ _ _) id) he
        hloop rfl
  · exact .refl opts s e

theorem rejected_moves : Moves opts s e (rejected s) := by
  unfold rejected
  split
  · next i candidate hloop => exact cleanThen_moves opts s e i .advance (by rw [hloop]; rfl)
  · exact .refl opts s e

theorem modify_moves (i : ℕ) (f : Attempt → Attempt) :
    Moves opts s e { s with attempts := s.attempts.modify i f } :=
  .silent ⟨List.length_modify _ _ _,fun _ => id,id,id⟩ rfl

theorem onConnectionStateChange_moves (i : ℕ) (state : ConnectionState) :
    Moves opts s e (onConnectionStateChange opts s i state) := by
  unfold onConnectionStateChange
  split
  · exact .refl opts s e
  · split_ifs
    · exact .refl opts s e
    · refine emit_moves opts s e { s with
        attempts := s.attempts.modify i fun a => { a with connected := true } } _
        .connected nofun rfl rfl ⟨?_, ?_, ?_, ?_⟩ rfl <;> simp
    · exact modify_moves opts s e i _
    · exact .refl opts s e

theorem check_moves : Moves opts s e (check s) := by
  unfold check
  split
  · next i hloop =>
    split_ifs
    · exact .silent (.within opts s _ i (by rw [hloop]; rfl) rfl rfl id) rfl
    · exact .refl opts s e
  · exact .refl opts s e

theorem cleanupSettled_moves : Moves opts s e (cleanupSettled s) := by
  unfold cleanupSettled
  split
  · next i k after hloop =>
    exact .silent (.within opts s _ i (by rw [hloop]; rfl) rfl (List.length_modify _ _ _) id) rfl
  · exact .refl opts s e

theorem stopSettled_moves (call : ℕ) : Moves opts s e (stopSettled s call) := by
  unfold stopSettled
  split
  · exact .silent ⟨List.length_modify _ _ _,fun _ => id,id,id⟩ rfl
  · exact .refl opts s e

theorem stopResolves_moves (call : ℕ) : Moves opts s e (stopResolves s call) := by
  unfold stopResolves
  split
  · next hcall =>
    exact .stopResolved call ⟨rfl,fun _ => id,id,id⟩
      (List.ne_nil_of_mem (List.mem_of_getElem? hcall)) rfl
  · exact .refl opts s e

theorem next_moves : Moves opts s e (next opts s e) := by
  cases e with
  | callbackReturns => exact callbackReturns_moves opts s _
  | stop => exact stop_moves opts s _
  | resume => exact unless_inCallback s _ _ (.refl opts s _) (resume_moves opts s _)
  | played stream =>
    exact unless_inCallback s _ _ (.refl opts s _) (played_moves opts s _ stream rfl)
  | rejected => exact unless_inCallback s _ _ (.refl opts s _) (rejected_moves opts s _)
  | connectionState i state =>
    exact unless_inCallback s _ _ (.refl opts s _) (onConnectionStateChange_moves opts s _ i state)
  | connectTimer i => exact unless_inCallback s _ _ (.refl opts s _) (modify_moves opts s _ i _)
  | poll i => exact unless_inCallback s _ _ (.refl opts s _) (modify_moves opts s _ i _)
  | check => exact unless_inCallback s _ _ (.refl opts s _) (check_moves opts s _)
  | cleanupSettled => exact unless_inCallback s _ _ (.refl opts s _) (cleanupSettled_moves opts s _)
  | stopSettled call =>
    exact unless_inCallback s _ _ (.refl opts s _) (stopSettled_moves opts s _ call)
  | stopResolves call =>
    exact unless_inCallback s _ _ (.refl opts s _) (stopResolves_moves opts s _ call)

/-- The dials so far, and what follows once the last of them has failed. -/
structure InOrder (s : Player Stream) : Prop where
  dials : dialled s.log = opts.candidates.take s.attempts.length
  place : s.loop.At opts s.attempts.length
  once : s.log.countP Call.isFailedAll ≤ 1
  last : ∀ before ctx, before++[.onStateChange .failedAll ctx] <+: s.log →
    dialled before = opts.candidates
  final : s.log.Pairwise fun call later => call.isFailedAll = true → later.isStream = false
  finished : ∀ call ∈ s.log, call.isFailedAll = true → s.loop = .returned

theorem dialled_say (log : List (Call Stream)) (call : Call Stream) :
    dialled (log++[call]) = dialled log++call.dialled.toList := by
  rw [dialled, List.filterMap_append]
  cases h : call.dialled <;> simp [dialled, h]

/-- A call other than `failed-all` leaves what there is to say about it. -/
theorem InOrder.say (h : InOrder opts s) (s' : Player Stream) (call : Call Stream)
    (hlog : s'.log = s.log++[call]) (hcall : call.isFailedAll = false)
    (hstream : call.isStream = true → s.loop ≠ .returned)
    (hdials : dialled s'.log = opts.candidates.take s'.attempts.length)
    (hplace : s'.loop.At opts s'.attempts.length)
    (hreturned : s.loop = .returned → s'.loop = .returned) :
    InOrder opts s' where
  dials := hdials
  place := hplace
  once := by
    rw [hlog, List.countP_append, List.countP_singleton, hcall]
    exact h.once
  last before ctx hbefore := by
    rw [hlog] at hbefore
    rcases List.prefix_concat_iff.mp hbefore with heq | hbefore
    · cases (List.append_inj_right' heq rfl)
      cases hcall
    · exact h.last before ctx hbefore
  final := by
    rw [hlog, List.pairwise_append]
    refine ⟨h.final, List.pairwise_singleton _ _, ?_⟩
    intro c hc later hlater hfailed
    cases List.mem_singleton.mp hlater
    cases hstream' : call.isStream with
    | false => rfl
    | true => exact (hstream hstream' (h.finished c hc hfailed)).elim
  finished c hc hfailed := by
    rw [hlog] at hc
    rcases List.mem_append.mp hc with hc | hc
    · exact hreturned (h.finished c hc hfailed)
    · cases List.mem_singleton.mp hc
      cases hcall.symm.trans hfailed

theorem InOrder.keep (h : InOrder opts s) (s' : Player Stream) (call : Call Stream)
    (hkeep : Keeps opts s s') (hlog : s'.log = s.log++[call]) (hcall : call.isFailedAll = false)
    (hstream : call.isStream = true → s.loop ≠ .returned) (hdialled : call.dialled = none) :
    InOrder opts s' := by
  refine h.say opts s s' call hlog hcall hstream ?_ ?_ hkeep.returned
  · rw [hlog, dialled_say, hdialled, hkeep.attempts, ← h.dials]
    exact List.append_nil _
  · rw [hkeep.attempts]
    exact hkeep.place _ h.place

theorem InOrder.silent (h : InOrder opts s) (s' : Player Stream) (hkeep : Keeps opts s s')
    (hlog : s'.log = s.log) : InOrder opts s' where
  dials := by
    rw [hlog, hkeep.attempts]
    exact h.dials
  place := by
    rw [hkeep.attempts]
    exact hkeep.place _ h.place
  once := hlog ▸ h.once
  last := hlog ▸ h.last
  final := hlog ▸ h.final
  finished c hc hfailed := hkeep.returned (h.finished c (hlog ▸ hc) hfailed)

/-- Past the last candidate all are dialled, and `failed-all` is said for the first time. -/
theorem InOrder.failed (h : InOrder opts s) (s' : Player Stream) (ctx : FailoverStateContext)
    (hloop : s.loop ≠ .returned) (hlast : ∀ n, s.loop.At opts n → opts.candidates.length ≤ n)
    (hloop' : s'.loop = .returned) (hattempts : s'.attempts = s.attempts)
    (hlog : s'.log = s.log++[.onStateChange .failedAll ctx]) : InOrder opts s' := by
  have hnone : ∀ c ∈ s.log, ¬ c.isFailedAll = true :=
    fun c hc hfailed => hloop (h.finished c hc hfailed)
  have hall : dialled s.log = opts.candidates := by
    rw [h.dials, List.take_of_length_le (hlast _ h.place)]
  refine ⟨?_, ?_, ?_, ?_, ?_, fun _ _ _ => hloop'⟩
  · rw [hlog, dialled_say, hattempts, ← h.dials]
    exact List.append_nil _
  · rw [hloop']
    trivial
  · rw [hlog, List.countP_append, List.countP_eq_zero.mpr hnone]
    exact le_refl 1
  · intro before ctx' hbefore
    rw [hlog] at hbefore
    rcases List.prefix_concat_iff.mp hbefore with heq | hbefore
    · rw [List.append_inj_left' heq rfl, hall]
    · exact h.last before ctx' hbefore
  · rw [hlog, List.pairwise_append]
    exact ⟨h.final,List.pairwise_singleton _ _,fun c hc _ _ hfailed => (hnone c hc hfailed).elim⟩

theorem next_inOrder (h : InOrder opts s) : InOrder opts (next opts s e) := by
  cases next_moves opts s e with
  | silent hkeep hlog => exact h.silent opts s _ hkeep hlog
  | stateChange state ctx hkeep hstate hstopped hlog =>
    refine h.keep opts s _ _ hkeep hlog ?_ nofun rfl
    cases state with
    | failedAll => exact (hstate rfl).elim
    | _ => rfl
  | stream stream i candidate hkeep he hloop hlog =>
    exact h.keep opts s _ _ hkeep hlog rfl (fun _ => by rw [hloop]; nofun) rfl
  | stopResolved call hkeep hstops hlog => exact h.keep opts s _ _ hkeep hlog rfl nofun rfl
  | dial i candidate hloop hattempts hloop' hstopped hlog =>
    have hplace := h.place
    rw [hloop] at hplace
    refine h.say opts s _ _ hlog rfl nofun ?_ ?_ (by rw [hloop]; nofun)
    · rw [hlog, dialled_say, h.dials, hattempts, List.take_add_one, ← hplace.1, hplace.2]
      rfl
    · rw [hloop', hattempts, ← hplace.1]
      rfl
  | failedAll ctx hloop hlast hloop' hattempts hstopped hgo hlog =>
    exact h.failed opts s _ ctx hloop hlast hloop' hattempts hlog

theorem inOrder_nil (hlog : s.log = []) (hattempts : s.attempts = []) (hplace : s.loop.At opts 0) :
    InOrder opts s := by
  refine ⟨?_, ?_, ?_, ?_, ?_, ?_⟩ <;> simp [hlog, hattempts, hplace, dialled]

theorem start_inOrder : InOrder opts (playWhepWithFailover opts : Player Stream) := by
  refine next_inOrder opts _ .callbackReturns ?_
  unfold startLoop
  split_ifs with hempty
  · have hcandidates := List.length_eq_zero_iff.mp hempty
    refine ⟨?_, trivial, le_refl 1, ?_, List.pairwise_singleton _ _, fun _ _ _ => rfl⟩
    · rw [hcandidates]
      rfl
    · intro before ctx hbefore
      rcases List.prefix_concat_iff.mp (hbefore : _ <+: []++[_]) with heq | hbefore
      · rw [List.append_inj_left' heq rfl, hcandidates]
        rfl
      · cases before <;> cases List.prefix_nil.mp hbefore
  · have hfirst := List.getElem?_eq_getElem (Nat.pos_of_ne_zero hempty)
    unfold iterate
    rw [hfirst]
    refine InOrder.keep opts ⟨false,none,none,0,[],.connecting 0 _,[],[]⟩ ?_ _ _
      ⟨rfl,fun _ => id,id,id⟩ rfl rfl nofun rfl
    exact inOrder_nil opts _ rfl rfl ⟨rfl,hfirst⟩

theorem run_inOrder (events : List (Event Stream)) :
    InOrder opts (run (next opts) (playWhepWithFailover opts) events) :=
  run_invariant (next opts) (InOrder opts) (next_inOrder opts) _ events (start_inOrder opts)

end Moves

end Aevia.Failover
