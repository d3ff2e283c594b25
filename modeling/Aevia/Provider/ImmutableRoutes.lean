import Aevia.Provider.MirrorRouting
import Aevia.Provider.VodManifest

/-!
# Live routes that are cached for good

Init segments, segments, parts and the manifest of an ended session go out with headers
that let caches keep them. The router is asked while sinks are made, attached, detached, fed
and finalised, also more than one under the same id; what it has once answered with 200 it
answers the same way until the session of that id is detached.
-/

set_option autoImplicit false

namespace Aevia.Whip
open Aevia.Bytes Aevia.Content Aevia.Fallible Aevia.Manifests Aevia.PinStore Aevia.Run Aevia.Storage

structure Recording where
  session : LiveSession
  startedAt : UtcTime
  endedAt : UtcTime

def zeroTime : UtcTime := ⟨1, 1, 1, 0, 0, 0, 0⟩

namespace Recording
variable (r : Recording)

def initBytes : Except GoError Bytes :=
  if r.session.pipeline.sink.initSeg = [] then .error (.new "livepin: init segment not yet emitted")
  else .ok r.session.pipeline.sink.initSeg

/-- A call of the sink; the time of the end is set with the manifest. -/
def next (q : Quota) (now : UtcTime) (e : SinkEvent) : Recording :=
  let session := sinkNext q r.session e
  { r with
    session := session
    endedAt := if r.session.finalized.isNone && session.finalized.isSome then now else r.endedAt }

end Recording

/-- The sinks that were made, and the router with their numbers. -/
structure LiveNode where
  sinks : List Recording
  router : Mirror.LiveRouter ℕ Unit

def LiveNode.start : LiveNode := ⟨[], Mirror.newLiveRouter⟩

inductive LiveEvent where
  | newLivePinSink (sessionID : Bytes) (store : Database) (now : UtcTime)
  | attachSession (k : ℕ)
  | detachSession (sessionID : Bytes)
  | call (k : ℕ) (now : UtcTime) (e : SinkEvent)

variable (q : Quota)

/-- A sink is attached under the id it was made for. -/
def LiveNode.next (s : LiveNode) : LiveEvent → LiveNode
  | .newLivePinSink sessionID store now =>
    if sessionID = [] then s
    else { s with sinks := s.sinks++[⟨newLiveSession sessionID store, now, zeroTime⟩] }
  | .attachSession k =>
    match s.sinks[k]? with
    | none => s
    | some r => { s with router := commit s.router (s.router.attachSession r.session.sessionID (some k)) }
  | .detachSession sessionID => { s with router := s.router.detachSession sessionID }
  | .call k now e =>
    match s.sinks[k]? with
    | none => s
    | some r => { s with sinks := s.sinks.set k (r.next q now e) }

def LiveNode.sink (s : LiveNode) (id : Bytes) : Option Recording :=
  match s.router.sink id with
  | none => none
  | some k => s.sinks[k]?

inductive LiveRequest where
  | init (id : Bytes)
  | media (uri : LiveURI)
  | manifest (id : Bytes)

def LiveURI.sessionID : LiveURI → Bytes
  | segment sessionID _ => sessionID
  | part sessionID _ _ => sessionID

def LiveRequest.sessionID : LiveRequest → Bytes
  | init id => id
  | media uri => uri.sessionID
  | manifest id => id

section Routes
variable (s : LiveNode)

def immutable : String := "public, max-age=86400, immutable"

def unknownSession : Reply := .httpError (.new "live: unknown session") statusNotFound

def serveInit (id : Bytes) : Reply :=
  match s.sink id with
  | none => unknownSession
  | some r => match r.initBytes with
    | .error _ => .httpError (.new "live: init not ready") statusNotFound
    | .ok init => mediaReply "video/mp4" immutable init

def serveManifest (id : Bytes) : Reply :=
  match s.sink id with
  | none => unknownSession
  | some r => match r.session.finalized with
    | none => .httpError (.new "live: session still in progress") statusNotFound
    | some m => match buildVODManifest id (some m) r.startedAt r.endedAt with
      | .error e => .httpError (.wrap "live: build manifest: %w" [] e) statusInternalServerError
      | .ok vod => match vod.canonicalJSON with
        | .error e => .httpError (.wrap "live: encode manifest: %w" [] e) statusInternalServerError
        | .ok body => mediaReply "application/json" immutable body

/-- The path values are read before the session is looked up. -/
def serveUnknown : LiveURI → Reply
  | .segment _ n =>
    if parseUint32 n = none then .httpError (.new "live: invalid segment index") statusBadRequest
    else unknownSession
  | .part _ n p =>
    if parseUint32 n = none then .httpError (.new "live: invalid segment index") statusBadRequest
    else if parseUint32 p = none then .httpError (.new "live: invalid part index") statusBadRequest
    else unknownSession

def serveMedia (uri : LiveURI) : Reply :=
  match s.sink uri.sessionID with
  | none => serveUnknown uri
  | some r => serveLive r.session uri

def LiveNode.serve : LiveRequest → Reply
  | .init id => serveInit s id
  | .media uri => serveMedia s uri
  | .manifest id => serveManifest s id

end Routes

section Growth

/-- What a caller could have been given stays as it was. -/
structure Lasting (r r' : Recording) : Prop where
  grown : Grown r.session r'.session
  started : r'.startedAt = r.startedAt
  init : r.session.pipeline.sink.initSeg ≠ [] →
    r'.session.pipeline.sink.initSeg = r.session.pipeline.sink.initSeg
  ended : ∀ m, r.session.finalized = some m →
    r'.session.finalized = some m ∧ r'.endedAt = r.endedAt

theorem Lasting.refl (r : Recording) : Lasting r r :=
  ⟨Grown.refl _,rfl,fun _ => rfl,fun _ hm => ⟨hm,rfl⟩⟩

theorem Lasting.trans (r r' r'' : Recording) (h : Lasting r r') (g : Lasting r' r'') :
    Lasting r r'' where
  grown := h.grown.trans _ _ _ g.grown
  started := g.started.trans h.started
  init := by
    intro hne
    have hfirst := h.init hne
    have hsecond := g.init (by rw [hfirst]; exact hne)
    exact hsecond.trans hfirst
  ended := by
    intro m hm
    obtain ⟨hm', hend'⟩ := h.ended m hm
    obtain ⟨hm'', hend''⟩ := g.ended m hm'
    exact ⟨hm'',hend''.trans hend'⟩

theorem sinkNext_init (l : LiveSession) (e : SinkEvent)
    (h : l.pipeline.sink.initSeg ≠ []) :
    (sinkNext q l e).pipeline.sink.initSeg = l.pipeline.sink.initSeg := by
  cases e with
  | stored store => rfl
  | finalize d fault => rw [sinkNext, finalize_pipeline]
  | onInitSegment bytes =>
    rw [sinkNext, LivePinSink.onInitSegment, if_pos h]
    rfl
  | onMediaSegment index bytes =>
    rw [sinkNext, onMediaSegment_taken]
    split_ifs <;> rfl
  | onMediaPart segIdx partIdx bytes durationT independent =>
    rw [sinkNext, onMediaPart_taken]
    split_ifs <;> rfl

theorem next_lasting (r : Recording) (now : UtcTime) (e : SinkEvent) :
    Lasting r (r.next q now e) where
  grown := next_grown q r.session e
  started := rfl
  init := sinkNext_init q r.session e
  ended := by
    intro m hm
    refine ⟨next_finalized q r.session e m hm, ?_⟩
    rw [Recording.next, hm]
    rfl

/-- The id keeps its sink, and the sinks what they have. -/
structure Continues (id : Bytes) (s s' : LiveNode) : Prop where
  attached : ∀ k, s.router.sink id = some k → s'.router.sink id = some k
  sinks : ∀ (k : ℕ) r, s.sinks[k]? = some r → ∃ r', s'.sinks[k]? = some r' ∧ Lasting r r'

theorem Continues.trans (id : Bytes) (s s' s'' : LiveNode) (h : Continues id s s')
    (g : Continues id s' s'') : Continues id s s'' where
  attached := fun k hk => g.attached k (h.attached k hk)
  sinks := by
    intro k r hr
    obtain ⟨r', hr', hlasting⟩ := h.sinks k r hr
    obtain ⟨r'', hr'', hlasting'⟩ := g.sinks k r' hr'
    exact ⟨r'',hr'',hlasting.trans _ _ _ hlasting'⟩

theorem Continues.refl (id : Bytes) (s : LiveNode) : Continues id s s :=
  ⟨fun _ h => h,fun _ r hr => ⟨r,hr,Lasting.refl r⟩⟩

theorem attachSession_keeps (router : Mirror.LiveRouter ℕ Unit) (sessionID id : Bytes) (k j : ℕ)
    (h : router.sink id = some k) :
    (commit router (router.attachSession sessionID (some j))).sink id = some k := by
  unfold Mirror.LiveRouter.attachSession
  by_cases hempty : sessionID = []
  · rw [if_pos hempty]
    exact h
  · rw [if_neg hempty]
    dsimp only
    by_cases htaken : (router.pins sessionID).isSome = true
    · rw [if_pos htaken]
      exact h
    · rw [if_neg htaken]
      have hne : id ≠ sessionID := by
        rintro rfl
        change router.pins id = some k at h
        rw [h] at htaken
        exact htaken rfl
      show Function.update router.pins sessionID (some j) id = some k
      rw [Function.update_of_ne hne]
      exact h

theorem next_continues (id : Bytes) (s : LiveNode) (e : LiveEvent) (h : e ≠ .detachSession id) :
    Continues id s (s.next q e) := by
  have hsame := Continues.refl id s
  cases e with
  | newLivePinSink sessionID store now =>
    unfold LiveNode.next
    dsimp only
    split_ifs
    · exact hsame
    · refine ⟨hsame.attached, fun k r hr => ⟨r,?_,Lasting.refl r⟩⟩
      obtain ⟨hlt, -⟩ := List.getElem?_eq_some_iff.mp hr
      rw [List.getElem?_append_left hlt]
      exact hr
  | attachSession k =>
    simp only [LiveNode.next]
    cases s.sinks[k]? with
    | none => exact hsame
    | some r => exact ⟨fun j hj => attachSession_keeps s.router _ id j k hj,hsame.sinks⟩
  | detachSession sessionID =>
    have hne : id ≠ sessionID := fun heq => h (by rw [heq])
    refine ⟨fun k hk => ?_, hsame.sinks⟩
    show Function.update s.router.pins sessionID none id = some k
    rw [Function.update_of_ne hne]
    exact hk
  | call k now e =>
    simp only [LiveNode.next]
    cases hk : s.sinks[k]? with
    | none => exact hsame
    | some r =>
      refine ⟨hsame.attached, fun j r' hr' => ?_⟩
      obtain ⟨hlt, -⟩ := List.getElem?_eq_some_iff.mp hr'
      by_cases hj : k = j
      · subst hj
        rw [hk] at hr'
        cases hr'
        exact ⟨_,List.getElem?_set_self hlt,next_lasting q r now e⟩
      · exact ⟨r',by rw [List.getElem?_set_ne hj]; exact hr',Lasting.refl r'⟩

theorem run_continues (id : Bytes) (s : LiveNode) (events : List LiveEvent)
    (h : .detachSession id ∉ events) : Continues id s (run (LiveNode.next q) s events) := by
  induction events generalizing s with
  | nil => exact Continues.refl id s
  | cons e events ih =>
    obtain ⟨hne, hrest⟩ := List.ne_and_not_mem_of_not_mem_cons h
    exact (next_continues q id s e (Ne.symm hne)).trans _ _ _ _ (ih _ hrest)

end Growth

section Replies
variable {r r' : Recording} (h : Lasting r r')

include h in
theorem Lasting.segment (hlen : r'.session.pipeline.sink.segments.length < 2^63) (index : UInt32)
    (bytes : Bytes) (hbytes : r.session.segmentBytes index = .ok bytes) :
    r'.session.segmentBytes index = .ok bytes := by
  have hle := h.grown.segments.length_le
  obtain ⟨hlt, hget⟩ := (segmentBytes_ok r.session index bytes).mp hbytes
  have hindex : index.toNat < r.session.pipeline.sink.segments.length := index_lt index _ hlt
  apply (segmentBytes_ok r'.session index bytes).mpr
  constructor
  · rw [Int64.lt_iff_toInt_lt, toInt_index, Int64.toInt_ofNat_of_lt hlen]
    omega
  · obtain ⟨more, hmore⟩ := h.grown.segments
    rw [← hmore, List.getD_append _ _ _ _ hindex]
    exact hget

include h in
theorem Lasting.part (segIdx partIdx : UInt32) (bytes : Bytes)
    (hbytes : r.session.partBytes segIdx partIdx = .ok bytes) :
    r'.session.partBytes segIdx partIdx = .ok bytes := by
  simp only [LiveSession.partBytes] at hbytes ⊢
  cases hpart : (r.session.pipeline.sink.parts segIdx)[partIdx.toNat]? with
  | none =>
    rw [hpart] at hbytes
    cases hbytes
  | some part =>
    obtain ⟨hlt, -⟩ := List.getElem?_eq_some_iff.mp hpart
    obtain ⟨more, hmore⟩ := h.grown.parts segIdx
    rw [hpart] at hbytes
    rw [← hmore, List.getElem?_append_left hlt, hpart]
    exact hbytes

include h in
theorem Lasting.live (hlen : r'.session.pipeline.sink.segments.length < 2^63) (uri : LiveURI)
    (hok : (serveLive r.session uri).status = statusOK) :
    serveLive r'.session uri = serveLive r.session uri := by
  have hid := h.grown.sessionID
  cases uri with
  | segment id n =>
    simp only [serveLive, serveSegment, hid] at hok ⊢
    cases hn : parseUint32 n with
    | none => rfl
    | some index =>
      rw [hn] at hok
      dsimp only at hok ⊢
      split_ifs with hsame
      · rfl
      · rw [if_neg hsame, served_iff] at hok
        obtain ⟨bytes, hbytes⟩ := hok
        rw [hbytes, h.segment hlen index bytes hbytes]
  | part id n p =>
    simp only [serveLive, servePart, hid] at hok ⊢
    cases hn : parseUint32 n with
    | none => rfl
    | some segIdx =>
      cases hp : parseUint32 p with
      | none => rfl
      | some partIdx =>
        rw [hn, hp] at hok
        dsimp only at hok ⊢
        split_ifs with hsame
        · rfl
        · rw [if_neg hsame, served_iff] at hok
          obtain ⟨bytes, hbytes⟩ := hok
          rw [hbytes, h.part segIdx partIdx bytes hbytes]

theorem notFound_ne_ok : statusNotFound ≠ statusOK := by decide

theorem serveUnknown_status (uri : LiveURI) : (serveUnknown uri).status ≠ statusOK := by
  cases uri with
  | segment id n =>
    simp only [serveUnknown]
    split_ifs <;> exact fun hok => absurd hok (by decide)
  | part id n p =>
    simp only [serveUnknown]
    split_ifs <;> exact fun hok => absurd hok (by decide)

end Replies

section Caching
variable {s s' : LiveNode}

theorem Continues.sink (id : Bytes) (h : Continues id s s') (r : Recording)
    (hr : s.sink id = some r) : ∃ r', s'.sink id = some r' ∧ r' ∈ s'.sinks ∧ Lasting r r' := by
  unfold LiveNode.sink at hr ⊢
  cases hk : s.router.sink id with
  | none =>
    rw [hk] at hr
    cases hr
  | some k =>
    rw [hk] at hr
    obtain ⟨r', hr', hlasting⟩ := h.sinks k r hr
    rw [h.attached k hk]
    exact ⟨r',hr',List.mem_of_getElem? hr',hlasting⟩

theorem Continues.serve (request : LiveRequest) (h : Continues request.sessionID s s')
    (hlen : ∀ r ∈ s'.sinks, r.session.pipeline.sink.segments.length < 2^63)
    (hok : (s.serve request).status = statusOK) :
    s'.serve request = s.serve request := by
  cases request with
  | init id =>
    simp only [LiveNode.serve, serveInit] at hok ⊢
    cases hr : s.sink id with
    | none =>
      rw [hr] at hok
      exact absurd hok notFound_ne_ok
    | some r =>
      obtain ⟨r', hr', -, hlasting⟩ := Continues.sink id h r hr
      rw [hr] at hok
      rw [hr']
      dsimp only at hok ⊢
      unfold Recording.initBytes at hok ⊢
      by_cases hinit : r.session.pipeline.sink.initSeg = []
      · rw [if_pos hinit] at hok
        exact absurd hok notFound_ne_ok
      · rw [hlasting.init hinit]
  | media uri =>
    simp only [LiveNode.serve, serveMedia] at hok ⊢
    cases hr : s.sink uri.sessionID with
    | none =>
      rw [hr] at hok
      exact absurd hok (serveUnknown_status uri)
    | some r =>
      obtain ⟨r', hr', hmem, hlasting⟩ := Continues.sink uri.sessionID h r hr
      rw [hr] at hok
      rw [hr']
      exact hlasting.live (hlen r' hmem) uri hok
  | manifest id =>
    simp only [LiveNode.serve, serveManifest] at hok ⊢
    cases hr : s.sink id with
    | none =>
      rw [hr] at hok
      exact absurd hok notFound_ne_ok
    | some r =>
      obtain ⟨r', hr', -, hlasting⟩ := Continues.sink id h r hr
      rw [hr] at hok
      rw [hr']
      dsimp only at hok ⊢
      cases hm : r.session.finalized with
      | none =>
        rw [hm] at hok
        exact absurd hok notFound_ne_ok
      | some m =>
        obtain ⟨hm', hended⟩ := hlasting.ended m hm
        rw [hm', hended, hlasting.started]

end Caching

/-- Whatever happens at the node, also under the same session id, a GET that was answered
with 200 is answered with the same headers and the same body as long as the session it
names is not detached. -/
theorem served_for_good (before after : List LiveEvent) (request : LiveRequest)
    (hkept : .detachSession request.sessionID ∉ after)
    (hok : ((run (LiveNode.next q) LiveNode.start before).serve request).status = statusOK)
    (hlen : ∀ r ∈ (run (LiveNode.next q) LiveNode.start (before++after)).sinks,
      r.session.pipeline.sink.segments.length < 2^63) :
    (run (LiveNode.next q) LiveNode.start (before++after)).serve request =
      (run (LiveNode.next q) LiveNode.start before).serve request := by
  rw [run_append] at hlen ⊢
  exact (run_continues q _ _ after hkept).serve request hlen hok

section Samples

def endedSession : List LiveEvent :=
  [.newLivePinSink (ascii "s1") KeyValue.Map.empty zeroTime, .attachSession 0,
    .call 0 zeroTime (.onInitSegment [1]), .call 0 zeroTime (.onMediaSegment 0 [2]),
    .call 0 ⟨2026, 4, 17, 9, 5, 0, 0⟩ (.finalize 6 none)]

def sessionAgain : List LiveEvent :=
  [.newLivePinSink (ascii "s1") KeyValue.Map.empty zeroTime, .attachSession 1,
    .call 1 zeroTime (.onInitSegment [3]), .call 1 zeroTime (.onMediaSegment 0 [4]),
    .detachSession (ascii "s2"), .call 0 zeroTime (.onMediaSegment 1 [5]), .call 0 zeroTime (.finalize 6 none)]

theorem served_for_good_again :
    (run (LiveNode.next ⟨0, 0⟩) LiveNode.start (endedSession++sessionAgain)).serve
        (.manifest (ascii "s1")) =
      (run (LiveNode.next ⟨0, 0⟩) LiveNode.start endedSession).serve (.manifest (ascii "s1")) :=
  served_for_good ⟨0, 0⟩ endedSession sessionAgain (.manifest (ascii "s1"))
    (by simp [sessionAgain, LiveRequest.sessionID, ascii]) (by decide +kernel) (by decide +kernel)

end Samples

end Aevia.Whip
