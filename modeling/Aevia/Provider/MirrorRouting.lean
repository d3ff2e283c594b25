import Aevia.Foundation.Fallible
import Aevia.Foundation.GoError
import Aevia.Foundation.Run
import Aevia.Foundation.Tracking

/-!
# Routing of mirrored live sessions

Every mirror stream brings a session under an id of the sender's choice, with a
sink and a muxer of its own. The router finds both by the id, refuses an id that
is taken, and is told to forget a muxer by the id alone, some time after the
session is gone. No stream detaches a sink.
-/

set_option autoImplicit false

namespace Aevia.Mirror
open Aevia.Fallible Aevia.Run Aevia.Tracking

section Router
variable {σ μ : Type}

structure LiveRouter (σ μ : Type) where
  pins : Bytes → Option σ
  muxers : Bytes → Option μ

def newLiveRouter : LiveRouter σ μ := ⟨fun _ => none, fun _ => none⟩

namespace LiveRouter

def attachMuxer (r : LiveRouter σ μ) (sessionID : Bytes) (mux : Option μ) :
    Except GoError (LiveRouter σ μ) :=
  if sessionID = [] then .error (.new "live: empty sessionID")
  else match mux with
    | none => .error (.new "live: nil muxer")
    | some mux =>
      if (r.muxers sessionID).isSome then
        .error (.errorf "live: muxer for session %q already attached" [.text sessionID])
      else .ok { r with muxers := Function.update r.muxers sessionID (some mux) }

def detachMuxer (r : LiveRouter σ μ) (sessionID : Bytes) : LiveRouter σ μ :=
  { r with muxers := Function.update r.muxers sessionID none }

def attachSession (r : LiveRouter σ μ) (sessionID : Bytes) (sink : Option σ) :
    Except GoError (LiveRouter σ μ) :=
  if sessionID = [] then .error (.new "live: empty sessionID")
  else match sink with
    | none => .error (.new "live: nil sink")
    | some sink =>
      if (r.pins sessionID).isSome then
        .error (.errorf "live: session %q already attached" [.text sessionID])
      else .ok { r with pins := Function.update r.pins sessionID (some sink) }

def detachSession (r : LiveRouter σ μ) (sessionID : Bytes) : LiveRouter σ μ :=
  { r with pins := Function.update r.pins sessionID none }

/-- What `/live/{sessionID}/hls/{file}` is served from, `404` if there is none. -/
def muxer (r : LiveRouter σ μ) (id : Bytes) : Option μ := r.muxers id

/-- What the other routes are served from, `404` if there is none. -/
def sink (r : LiveRouter σ μ) (id : Bytes) : Option σ := r.pins id

theorem attachMuxer_free (r : LiveRouter σ μ) (id : Bytes) (mux : μ) (hid : id ≠ [])
    (hfree : r.muxers id = none) :
    r.attachMuxer id (some mux) = .ok { r with muxers := Function.update r.muxers id (some mux) } := by
  rw [attachMuxer, if_neg hid]
  simp [hfree]

theorem attachSession_free (r : LiveRouter σ μ) (id : Bytes) (sink : σ) (hid : id ≠ [])
    (hfree : r.pins id = none) :
    r.attachSession id (some sink) = .ok { r with pins := Function.update r.pins id (some sink) } := by
  rw [attachSession, if_neg hid]
  simp [hfree]

end LiveRouter

end Router

/-- How far a stream is: in its `OnSession` callback up to `returned`, and in
the teardown that its session's end starts from `removed` on. A callback that
gets no muxer returns early. -/
inductive Phase where
  | opened
  | refused
  | injected
  | built
  | sinkAttached
  | muxerAttached
  | returned
  | returnedEarly
  | removed
  | closed
  | detached
  deriving DecidableEq

abbrev Stream := Agent Bytes Phase

/-- Sessions, sinks and muxers go by the number of the stream they were made
for. -/
structure Node where
  sessions : Bytes → Option ℕ
  router : LiveRouter ℕ ℕ
  streams : List Stream

def Node.start : Node := ⟨fun _ => none, newLiveRouter, []⟩

def injectSession (sessions : Bytes → Option ℕ) (id : Bytes) (sess : ℕ) :
    Except GoError (Bytes → Option ℕ) :=
  if (sessions id).isSome then .error (.errorf "whip: session %s already registered" [.text id])
  else .ok (Function.update sessions id (some sess))

def removeSession (sessions : Bytes → Option ℕ) (id : Bytes) : Bytes → Option ℕ :=
  Function.update sessions id none

inductive Step where
  | inject
  | build (muxerStarted : Bool)
  | attachSession
  | attachMuxer
  | attachVideoFrameSink
  | removeSession
  | closePipeline
  | detachMuxer
  deriving DecidableEq

def Node.proceed (s : Node) (k : ℕ) (t : Stream) (phase : Phase) : Node :=
  { s with streams := move s.streams k t phase }

/-- A refused attachment is only logged. -/
def streamStep (s : Node) (k : ℕ) (t : Stream) (step : Step) : Node :=
  match t.phase, step with
  | .opened, .inject => match injectSession s.sessions t.name k with
    | .error _ => s.proceed k t .refused
    | .ok sessions => { s with sessions := sessions }.proceed k t .injected
  | .injected, .build muxerStarted => s.proceed k t (if muxerStarted then .built else .returnedEarly)
  | .built, .attachSession =>
    { s with router := commit s.router (s.router.attachSession t.name (some k)) }.proceed k t .sinkAttached
  | .sinkAttached, .attachMuxer =>
    { s with router := commit s.router (s.router.attachMuxer t.name (some k)) }.proceed k t .muxerAttached
  | .muxerAttached, .attachVideoFrameSink => s.proceed k t .returned
  | .returned, .removeSession =>
    { s with sessions := removeSession s.sessions t.name }.proceed k t .removed
  | .returnedEarly, .removeSession =>
    { s with sessions := removeSession s.sessions t.name }.proceed k t .refused
  | .removed, .closePipeline => s.proceed k t .closed
  | .closed, .detachMuxer =>
    { s with router := s.router.detachMuxer t.name }.proceed k t .detached
  | _, _ => s

inductive Event where
  | arrives (sessionID : Bytes)
  | stream (k : ℕ) (step : Step)
  deriving DecidableEq

/-- `NewMirrorSession` takes no empty id. -/
def next (s : Node) : Event → Node
  | .arrives sessionID =>
    if sessionID = [] then s else { s with streams := s.streams++[⟨sessionID, .opened⟩] }
  | .stream k step => (s.streams[k]?).elim s (fun t => streamStep s k t step)

section Invariant

def Phase.registered : Phase → Bool
  | .injected | .built | .sinkAttached | .muxerAttached | .returned | .returnedEarly => true
  | _ => false

def Phase.pinned : Phase → Bool
  | .sinkAttached | .muxerAttached | .returned | .removed | .closed | .detached => true
  | _ => false

def Phase.muxed : Phase → Bool
  | .muxerAttached | .returned | .removed | .closed => true
  | _ => false

def Phase.callbackReturned : Phase → Bool
  | .returned | .returnedEarly => true
  | _ => false

theorem muxed_pinned (phase : Phase) (h : phase.muxed = true) : phase.pinned = true := by
  cases phase <;> first | rfl | cases h

/-- The router serves, under the ids that are registered, what was made for the
very session. -/
def ServesOwn (s : Node) : Prop :=
  ∀ id k t, s.sessions id = some k → s.streams[k]? = some t → t.phase.callbackReturned = true →
    s.router.muxer id = some k ∧ s.router.sink id = some k

/-- A stream that attaches its sink finds none under its id, and a muxer that
is asked for starts. -/
def Unshadowed (s : Node) : Event → Prop
  | .stream k .attachSession => ∀ t ∈ s.streams[k]?, t.phase = .built → s.router.pins t.name = none
  | .stream k (.build muxerStarted) => ∀ t ∈ s.streams[k]?, t.phase = .injected → muxerStarted = true
  | _ => True

instance (s : Node) : ∀ e, Decidable (Unshadowed s e)
  | .stream k .attachSession =>
    inferInstanceAs (Decidable (∀ t ∈ s.streams[k]?, t.phase = .built → s.router.pins t.name = none))
  | .stream k (.build muxerStarted) =>
    inferInstanceAs (Decidable (∀ t ∈ s.streams[k]?, t.phase = .injected → muxerStarted = true))
  | .arrives _ | .stream _ .inject | .stream _ .attachMuxer | .stream _ .attachVideoFrameSink
  | .stream _ .removeSession | .stream _ .closePipeline | .stream _ .detachMuxer => .isTrue trivial

/-- Each of the three tables holds the streams that it should hold. -/
structure Routed (s : Node) : Prop where
  sessions : Tracks Phase.registered s.sessions s.streams
  pins : Tracks Phase.pinned s.router.pins s.streams
  muxers : Tracks Phase.muxed s.router.muxers s.streams
  named : ∀ t ∈ s.streams, t.name ≠ []
  complete : ∀ t ∈ s.streams, t.phase ≠ .returnedEarly

theorem start_routed : Routed Node.start where
  sessions := tracks_nil Phase.registered
  pins := tracks_nil Phase.pinned
  muxers := tracks_nil Phase.muxed
  named := fun _ h => nomatch h
  complete := fun _ h => nomatch h

theorem routed_serves (s : Node) (hs : Routed s) : ServesOwn s := by
  intro id k t hsession ht hreturned
  obtain ⟨t', ht', rfl, -⟩ := (hs.sessions id k).mp hsession
  obtain rfl : t' = t := Option.some.inj (ht'.symm.trans ht)
  have hphase : t'.phase = .returned := by
    have hcomplete := hs.complete t' (List.mem_of_getElem? ht)
    cases hp : t'.phase with
    | returned => rfl
    | returnedEarly => exact absurd hp hcomplete
    | _ =>
      rw [hp] at hreturned
      cases hreturned
  constructor
  · exact (hs.muxers t'.name k).mpr ⟨t',ht,rfl,by rw [hphase]; rfl⟩
  · exact (hs.pins t'.name k).mpr ⟨t',ht,rfl,by rw [hphase]; rfl⟩

theorem arrive_routed (s : Node) (id : Bytes) (hid : id ≠ []) (hs : Routed s) :
    Routed { s with streams := s.streams++[⟨id,.opened⟩] } where
  sessions := tracks_arrive _ _ _ hs.sessions _ rfl
  pins := tracks_arrive _ _ _ hs.pins _ rfl
  muxers := tracks_arrive _ _ _ hs.muxers _ rfl
  named := by
    intro t ht
    rcases List.mem_append.mp ht with ht | ht
    · exact hs.named t ht
    · rw [List.mem_singleton.mp ht]
      exact hid
  complete := by
    intro t ht
    rcases List.mem_append.mp ht with ht | ht
    · exact hs.complete t ht
    · rw [List.mem_singleton.mp ht]
      exact fun h => nomatch h

section Steps
variable (s : Node) (k : ℕ) (t : Stream) (ht : s.streams[k]? = some t) (hs : Routed s)

include ht hs in
theorem move_named (phase : Phase) : ∀ t' ∈ move s.streams k t phase, t'.name ≠ [] := by
  intro t' ht'
  rcases List.mem_or_eq_of_mem_set ht' with ht' | rfl
  · exact hs.named t' ht'
  · exact hs.named t (List.mem_of_getElem? ht)

include hs in
theorem move_complete (phase : Phase) (hphase : phase ≠ .returnedEarly) :
    ∀ t' ∈ move s.streams k t phase, t'.phase ≠ .returnedEarly := by
  intro t' ht'
  rcases List.mem_or_eq_of_mem_set ht' with ht' | rfl
  · exact hs.complete t' ht'
  · exact hphase

include ht hs in
theorem proceed_routed (before phase : Phase) (hbefore : t.phase = before)
    (hsame : phase ≠ .returnedEarly ∧ phase.registered = before.registered ∧
      phase.pinned = before.pinned ∧ phase.muxed = before.muxed) :
    Routed (s.proceed k t phase) := by
  subst hbefore
  obtain ⟨hphase, hregistered, hpinned, hmuxed⟩ := hsame
  exact {
    sessions := tracks_move _ _ _ k t phase ht hs.sessions hregistered
    pins := tracks_move _ _ _ k t phase ht hs.pins hpinned
    muxers := tracks_move _ _ _ k t phase ht hs.muxers hmuxed
    named := move_named s k t ht hs phase
    complete := move_complete s k t hs phase hphase }

include ht hs in
/-- No muxer is attached under the id of a stream whose own sink is attached
and whose muxer is not. -/
theorem muxers_free (hpinned : t.phase.pinned = true) (hmuxed : t.phase.muxed = false) :
    s.router.muxers t.name = none := by
  by_contra hbound
  obtain ⟨j, hj⟩ := Option.ne_none_iff_exists'.mp hbound
  have hother : s.router.pins t.name = some j :=
    tracks_narrower _ _ _ _ _ hs.pins hs.muxers muxed_pinned t.name j hj
  have hown : s.router.pins t.name = some k := (hs.pins t.name k).mpr ⟨t,ht,rfl,hpinned⟩
  obtain rfl : j = k := Option.some.inj (hother.symm.trans hown)
  obtain ⟨t', ht', -, hphase⟩ := (hs.muxers t.name j).mp hj
  obtain rfl : t' = t := Option.some.inj (ht'.symm.trans ht)
  rw [hmuxed] at hphase
  cases hphase

include ht hs in
theorem streamStep_routed (step : Step) (hguard : Unshadowed s (.stream k step)) :
    Routed (streamStep s k t step) := by
  have hid : t.name ≠ [] := hs.named t (List.mem_of_getElem? ht)
  fun_cases streamStep
  case case1 hphase error hinject =>
    exact proceed_routed s k t ht hs .opened .refused hphase (by decide)
  case case2 hphase sessions hinject =>
    simp only [injectSession, guard_ok, Except.ok.injEq] at hinject
    obtain ⟨hfree, rfl⟩ := hinject
    have hfree : s.sessions t.name = none := Option.not_isSome_iff_eq_none.mp hfree
    exact {
      sessions := tracks_bind _ _ _ k t .injected ht hs.sessions rfl hfree
      pins := tracks_move _ _ _ k t .injected ht hs.pins (by rw [hphase]; rfl)
      muxers := tracks_move _ _ _ k t .injected ht hs.muxers (by rw [hphase]; rfl)
      named := move_named s k t ht hs .injected
      complete := move_complete s k t hs .injected (by decide) }
  case case3 muxerStarted hphase =>
    have hstarted : muxerStarted = true := hguard t ht hphase
    rw [if_pos hstarted]
    exact proceed_routed s k t ht hs .injected .built hphase (by decide)
  case case4 hphase =>
    have hfree : s.router.pins t.name = none := hguard t ht hphase
    rw [s.router.attachSession_free t.name k hid hfree]
    exact {
      sessions := tracks_move _ _ _ k t .sinkAttached ht hs.sessions (by rw [hphase]; rfl)
      pins := tracks_bind _ _ _ k t .sinkAttached ht hs.pins rfl hfree
      muxers := tracks_move _ _ _ k t .sinkAttached ht hs.muxers (by rw [hphase]; rfl)
      named := move_named s k t ht hs .sinkAttached
      complete := move_complete s k t hs .sinkAttached (by decide) }
  case case5 hphase =>
    have hfree : s.router.muxers t.name = none :=
      muxers_free s k t ht hs (by rw [hphase]; rfl) (by rw [hphase]; rfl)
    rw [s.router.attachMuxer_free t.name k hid hfree]
    exact {
      sessions := tracks_move _ _ _ k t .muxerAttached ht hs.sessions (by rw [hphase]; rfl)
      pins := tracks_move _ _ _ k t .muxerAttached ht hs.pins (by rw [hphase]; rfl)
      muxers := tracks_bind _ _ _ k t .muxerAttached ht hs.muxers rfl hfree
      named := move_named s k t ht hs .muxerAttached
      complete := move_complete s k t hs .muxerAttached (by decide) }
  case case6 hphase => exact proceed_routed s k t ht hs .muxerAttached .returned hphase (by decide)
  case case7 hphase =>
    exact {
      sessions := tracks_unbind _ _ _ k t .removed ht hs.sessions (by rw [hphase]; rfl) rfl
      pins := tracks_move _ _ _ k t .removed ht hs.pins (by rw [hphase]; rfl)
      muxers := tracks_move _ _ _ k t .removed ht hs.muxers (by rw [hphase]; rfl)
      named := move_named s k t ht hs .removed
      complete := move_complete s k t hs .removed (by decide) }
  case case8 hphase => exact absurd hphase (hs.complete t (List.mem_of_getElem? ht))
  case case9 hphase => exact proceed_routed s k t ht hs .removed .closed hphase (by decide)
  case case10 hphase =>
    exact {
      sessions := tracks_move _ _ _ k t .detached ht hs.sessions (by rw [hphase]; rfl)
      pins := tracks_move _ _ _ k t .detached ht hs.pins (by rw [hphase]; rfl)
      muxers := tracks_unbind _ _ _ k t .detached ht hs.muxers (by rw [hphase]; rfl) rfl
      named := move_named s k t ht hs .detached
      complete := move_complete s k t hs .detached (by decide) }
  case case11 => exact hs

end Steps

theorem next_routed (s : Node) (e : Event) (hs : Routed s) (hguard : Unshadowed s e) :
    Routed (next s e) := by
  cases e with
  | arrives id =>
    by_cases hid : id = []
    · rw [next, if_pos hid]
      exact hs
    · rw [next, if_neg hid]
      exact arrive_routed s id hid hs
  | stream k step =>
    apply attempted Routed s _ _ hs
    intro t ht
    exact streamStep_routed s k t ht hs step hguard

end Invariant

/-- As long as a stream that attaches its sink finds none under its id, the
router serves for every session that is registered, from when its callback has
returned, the sink and the muxer that were made for it. -/
theorem routes_follow_sessions (events : List Event)
    (h : Along next Unshadowed Node.start events) : ServesOwn (run next Node.start events) := by
  have hrouted : Routed (run next Node.start events) :=
    along_invariant next Unshadowed Routed next_routed _ events start_routed h
  exact routed_serves _ hrouted

section Samples

def opens (k : ℕ) (id : String) : List Event :=
  [.arrives (Bytes.ascii id), .stream k .inject, .stream k (.build true), .stream k .attachSession,
    .stream k .attachMuxer, .stream k .attachVideoFrameSink]

def tearsDown (k : ℕ) : List Event := [.stream k .closePipeline, .stream k .detachMuxer]

def twoSessions : List Event := opens 0 "s0"++[.stream 0 .removeSession]++opens 1 "s1"++tearsDown 0

theorem two_sessions_routed :
    Along next Unshadowed Node.start twoSessions ∧
    (run next Node.start twoSessions).sessions (Bytes.ascii "s1") = some 1 ∧
    ServesOwn (run next Node.start twoSessions) := by
  have h : Along next Unshadowed Node.start twoSessions := by decide
  exact ⟨h,by decide,routes_follow_sessions twoSessions h⟩

def reusedId : List Event := opens 0 "s0"++[.stream 0 .removeSession]++opens 1 "s0"++tearsDown 0

/-- The second session is served no muxer, and the sink of the first. -/
theorem reused_id_misrouted :
    let s := run next Node.start reusedId
    let id := Bytes.ascii "s0"
    s.sessions id = some 1 ∧ s.streams[1]? = some ⟨id,.returned⟩ ∧
    s.router.muxer id = none ∧ s.router.sink id = some 0 ∧ ¬ ServesOwn s := by
  intro s id
  have hsession : s.sessions id = some 1 := by decide
  have hstream : s.streams[1]? = some ⟨id,.returned⟩ := by decide
  have hmuxer : s.router.muxer id = none := by decide
  refine ⟨hsession, hstream, hmuxer, by decide, ?_⟩
  intro h
  have hserved := (h id 1 _ hsession hstream rfl).1
  rw [hmuxer] at hserved
  cases hserved

end Samples

end Aevia.Mirror
