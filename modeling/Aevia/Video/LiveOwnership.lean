import Aevia.Foundation.TextFields
import Aevia.Video.RegistrationRequests

/-!
# Whose live inputs they are

Requests that change a live input first read it to see whether it is their caller's, and
change it some awaits later; an update reads it once more and writes it back whole. In
between others do the same. What makes a live input somebody's is written once, when it is
created.
-/

set_option autoImplicit false

namespace Aevia.Ownership
open Aevia.Bytes Aevia.TextFields Aevia.Lives Aevia.MergeWrite Aevia.Run

section Created

def isSlugByte (c : UInt8) : Bool :=
  48 ≤ c && c ≤ 57 || 65 ≤ c && c ≤ 90 || 97 ≤ c && c ≤ 122 || c == 45

/-- `replace(/[^a-zA-Z0-9-]/g, '').slice(0, 16) || 'aevia'`. -/
def nameSlug (displayName : Bytes) : Bytes :=
  let slug := (displayName.filter isSlugByte).take 16
  if slug = [] then ascii "aevia" else slug

structure NewLive where
  creatorAddress : Bytes
  creatorDisplayName : Bytes
  creatorDid : Bytes
  title : Option Bytes
  now : ℕ

def keyName : Bytes := ascii "name"
def keyCreator : Bytes := ascii "creator"
def keyCreatorDid : Bytes := ascii "creatorDid"

def recordingSettings : Bytes :=
  ascii "\x7b\"mode\":\"automatic\",\"timeoutSeconds\":30,\"requireSignedURLs\":false\x7d"

/-- The live input that is made of it. The service keeps the field of the creator or drops it. -/
def createLiveInput (opts : NewLive) (keeps : Bool) : LiveInput where
  metaRecord := some (object ([
    (keyName, opts.title.getD (ascii "aevia-"++nameSlug opts.creatorDisplayName++ascii "-"++decimal opts.now)),
    (keyCreator, opts.creatorDisplayName),
    (keyCreatorAddress, toLowerCase opts.creatorAddress)]++
    if opts.creatorDid = [] then [] else [(keyCreatorDid, opts.creatorDid)]))
  defaultCreator := if keeps then some opts.creatorAddress else none
  recording := recordingSettings

end Created

section Requests

def jsSpaces : List Bytes := [0xEF, 0xBB, 0xBF]::whiteSpaces.filter (· ≠ [0xC2, 0x85])

/-- The length in JavaScript of a text that is given in UTF-8. -/
def jsLength (text : Bytes) : ℕ :=
  (text.map fun c => if c < 0x80 then 1 else if c < 0xC0 then 0 else if c < 0xF0 then 1 else 2).sum

def newName (field : Bytes) : Option Bytes :=
  let name := trimRight jsSpaces (trimLeft jsSpaces field)
  if name = [] ∨ 120 < jsLength name then none else some name

def renamePatch (name : Bytes) : LivePatch where
  metaRecord := some (object [(keyName, name)])
  defaultCreator := none

/-- What callers ask for: the two actions of the dashboard, the route that links a recording,
what the two routes of a registration record, and the route that deletes. -/
inductive Request where
  | renameLive (field : Bytes)
  | linkRecording (videoUid : Bytes)
  | register (registration : RegistrationMeta)
  | deleteLive
  | deleteRoute

def Request.complete : Request → Bool
  | .renameLive field => (newName field).isSome
  | .linkRecording videoUid => videoUid ≠ []
  | _ => true

inductive Phase where
  | received (request : Request)
  | confirming (videoUid : Bytes)
  | reading (patch : LivePatch)
  | writing (patch : LivePatch) (current : LiveInput)
  | clearing (videoUid : Bytes)
  | removing
  | answered

def recordingOf (live : LiveInput) : Option Bytes := live.metaOf keyRecordingVideoUid

def remove (live : LiveInput) : Phase :=
  match (recordingOf live).filter (· ≠ []) with
  | some videoUid => .clearing videoUid
  | none => .removing

/-- What becomes of a request when it has read the live input. The route that deletes looks at
the field of the creator alone, letter by letter. -/
def resolve (request : Request) (session : Bytes) (live : LiveInput) : Phase :=
  match request with
  | .renameLive field =>
    if owned live session then (newName field).elim .answered fun name => .reading (renamePatch name)
    else .answered
  | .linkRecording videoUid =>
    if owned live session = false then .answered
    else if recordingOf live = some videoUid then .answered
    else .confirming videoUid
  | .register registration =>
    if owned live session = false then .answered
    else if conflicting live registration.manifestCid then .answered
    else .reading (registrationPatch registration)
  | .deleteLive => if owned live session then remove live else .answered
  | .deleteRoute => if live.defaultCreator = some session then remove live else .answered

end Requests

section Steps

structure Call where
  session : Bytes
  id : Bytes
  phase : Phase

inductive Effect where
  | put (patch : LivePatch)
  | deleteVideo (videoUid : Bytes)
  | deleteLive

structure Change where
  id : Bytes
  session : Bytes
  effect : Effect

structure History where
  first : Bytes → Option LiveInput
  changes : List Change

structure Service where
  lives : Bytes → Option LiveInput
  videos : Bytes → Bool
  calls : List Call
  history : History

def Service.start (lives : Bytes → Option LiveInput) (videos : Bytes → Bool) : Service :=
  ⟨lives,videos,[],⟨lives,[]⟩⟩

/-- A live input is created, a video is uploaded, a request arrives, and an await of a request
ends well or badly. -/
inductive Event where
  | create (opts : NewLive) (uid : Bytes) (keeps : Bool)
  | upload (videoUid : Bytes)
  | arrive (session : Option Bytes) (id : Bytes) (request : Request)
  | proceed (call : ℕ)
  | fail (call : ℕ)

def Service.move (s : Service) (i : ℕ) (c : Call) (phase : Phase) : Service :=
  { s with calls := s.calls.set i { c with phase := phase } }

def Service.changed (s : Service) (c : Call) (effect : Effect) : Service :=
  { s with history := { s.history with changes := s.history.changes++[⟨c.id,c.session,effect⟩] } }

def Service.putLive (s : Service) (c : Call) (patch : LivePatch) (current live : LiveInput) : Service :=
  ({ s with lives := Function.update s.lives c.id (some (live.put (putBody current patch))) } : Service).changed
    c (.put patch)

def Service.clearVideo (s : Service) (c : Call) (videoUid : Bytes) : Service :=
  ({ s with videos := Function.update s.videos videoUid false } : Service).changed c (.deleteVideo videoUid)

def Service.removeLive (s : Service) (c : Call) : Service :=
  ({ s with lives := Function.update s.lives c.id none } : Service).changed c .deleteLive

def Service.proceed (s : Service) (i : ℕ) (c : Call) : Service :=
  match c.phase with
  | .received request => match s.lives c.id with
    | none => s.move i c .answered
    | some live => s.move i c (resolve request c.session live)
  | .confirming videoUid =>
    s.move i c (if s.videos videoUid then .reading (recordingPatch videoUid) else .answered)
  | .reading patch => match s.lives c.id with
    | none => s.move i c .answered
    | some current => s.move i c (.writing patch current)
  | .writing patch current => match s.lives c.id with
    | none => s.move i c .answered
    | some live => (s.putLive c patch current live).move i c .answered
  | .clearing videoUid => (s.clearVideo c videoUid).move i c .removing
  | .removing => (s.removeLive c).move i c .answered
  | .answered => s

/-- A recording that cannot be deleted is left behind. -/
def Service.fail (s : Service) (i : ℕ) (c : Call) : Service :=
  match c.phase with
  | .clearing _ => s.move i c .removing
  | _ => s.move i c .answered

def Service.create (s : Service) (uid : Bytes) (live : LiveInput) : Service :=
  { s with
    lives := Function.update s.lives uid (some live)
    history := { s.history with first := Function.update s.history.first uid (some live) } }

def Service.next (s : Service) : Event → Service
  | .create opts uid keeps => s.create uid (createLiveInput opts keeps)
  | .upload videoUid => { s with videos := Function.update s.videos videoUid true }
  | .arrive session id request => match session with
    | none => s
    | some session =>
      if request.complete then { s with calls := s.calls++[⟨session,id,.received request⟩] } else s
  | .proceed i => (s.calls[i]?).elim s fun c => s.proceed i c
  | .fail i => (s.calls[i]?).elim s fun c => s.fail i c

/-- The service never gives an identifier twice. -/
def Fresh (s : Service) : Event → Prop
  | .create _ uid _ => s.history.first uid = none
  | _ => True

end Steps

section History

structure History.Extends (later earlier : History) : Prop where
  first : ∀ id live, earlier.first id = some live → later.first id = some live
  changes : ∀ c ∈ earlier.changes, c ∈ later.changes

/-- The live input was the session's from the start. -/
def Rightful (h : History) (id session : Bytes) : Prop :=
  ∃ live, h.first id = some live ∧ owned live session = true

/-- The recording was linked at the start or by a request. -/
def Linked (h : History) (id videoUid : Bytes) : Prop :=
  (∃ live, h.first id = some live ∧ recordingOf live = some videoUid) ∨
    ∃ c ∈ h.changes, c.id = id ∧ c.effect = .put (recordingPatch videoUid)

/-- What is known of every version of a live input: whose it is, and where its recording is from. -/
structure Known (h : History) (id : Bytes) (live : LiveInput) : Prop where
  owner : ∃ first, h.first id = some first ∧ live.metaOf keyCreatorAddress = first.metaOf keyCreatorAddress ∧
    live.defaultCreator = first.defaultCreator
  recording : ∀ videoUid, recordingOf live = some videoUid → Linked h id videoUid

/-- A patch that leaves alone what makes the live input somebody's. -/
structure Harmless (patch : LivePatch) : Prop where
  creatorAddress : patch.metaOf keyCreatorAddress = none
  defaultCreator : patch.defaultCreator = none
  recording : ∀ videoUid, patch.metaOf keyRecordingVideoUid = some videoUid → patch = recordingPatch videoUid

variable {h later : History}

theorem Rightful.extended {id session : Bytes} (hr : Rightful h id session) (hext : later.Extends h) :
    Rightful later id session := by
  obtain ⟨live, hfirst, howned⟩ := hr
  exact ⟨live,hext.first id live hfirst,howned⟩

theorem Linked.extended {id videoUid : Bytes} (hl : Linked h id videoUid) (hext : later.Extends h) :
    Linked later id videoUid := by
  rcases hl with ⟨live, hfirst, hrec⟩ | ⟨c, hc, hlink⟩
  · exact .inl ⟨live,hext.first id live hfirst,hrec⟩
  · exact .inr ⟨c,hext.changes c hc,hlink⟩

theorem Known.extended {id : Bytes} {live : LiveInput} (hk : Known h id live) (hext : later.Extends h) :
    Known later id live := by
  obtain ⟨first, hfirst, howner⟩ := hk.owner
  exact ⟨⟨first,hext.first id first hfirst,howner⟩,fun v hv => (hk.recording v hv).extended hext⟩

theorem Known.owned_first {id : Bytes} {live : LiveInput} (hk : Known h id live) :
    ∃ first, h.first id = some first ∧ ∀ address, owned live address = owned first address := by
  obtain ⟨first, hfirst, hmeta, hdefault⟩ := hk.owner
  refine ⟨first, hfirst, ?_⟩
  intro address
  rw [owned, owned, hmeta, hdefault]

theorem Known.rightful {id session : Bytes} {live : LiveInput} (hk : Known h id live)
    (howned : owned live session = true) : Rightful h id session := by
  obtain ⟨first, hfirst, hsame⟩ := hk.owned_first
  exact ⟨first,hfirst,by rw [← hsame, howned]⟩

theorem harmless_rename (name : Bytes) : Harmless (renamePatch name) where
  creatorAddress := by simp [renamePatch, LivePatch.metaOf, object, keyName, keyCreatorAddress, ascii]
  defaultCreator := rfl
  recording := by
    intro videoUid h
    simp [renamePatch, LivePatch.metaOf, object, keyName, keyRecordingVideoUid, ascii] at h

theorem harmless_recording (videoUid : Bytes) : Harmless (recordingPatch videoUid) where
  creatorAddress := by
    simp [recordingPatch, LivePatch.metaOf, object, keyRecordingVideoUid, keyCreatorAddress, ascii]
  defaultCreator := rfl
  recording := by
    intro other h
    simp only [recordingPatch, LivePatch.metaOf, object, Option.getD_some, List.lookup_cons_self,
      Option.some.injEq] at h
    rw [h]

theorem registrationPatch_other (registration : RegistrationMeta) (k : Bytes)
    (hk : k ∉ [keyManifestCid, keyRegisterTxHash, keyRegisterBlock, keySponsored]) :
    (registrationPatch registration).metaOf k = none := by
  simp only [List.mem_cons, List.not_mem_nil, or_false, not_or] at hk
  obtain ⟨hcid, hhash, hblock, hsponsored⟩ := hk
  by_cases hs : registration.sponsored = true
  · simp [registrationPatch, LivePatch.metaOf, object, hs, List.lookup_cons, beq_false_of_ne hcid,
      beq_false_of_ne hhash, beq_false_of_ne hblock, beq_false_of_ne hsponsored]
  · simp [registrationPatch, LivePatch.metaOf, object, hs, List.lookup_cons, beq_false_of_ne hcid,
      beq_false_of_ne hhash, beq_false_of_ne hblock]

theorem harmless_registration (registration : RegistrationMeta) :
    Harmless (registrationPatch registration) where
  creatorAddress := registrationPatch_other registration keyCreatorAddress (by decide)
  defaultCreator := rfl
  recording := by
    intro videoUid h
    rw [registrationPatch_other registration keyRecordingVideoUid (by decide)] at h
    cases h

theorem Known.put {id session : Bytes} {live current : LiveInput} {patch : LivePatch}
    (hlive : Known h id live) (hcurrent : Known h id current) (hpatch : Harmless patch)
    (hext : later.Extends h) (hput : (⟨id,session,.put patch⟩ : Change) ∈ later.changes) :
    Known later id (live.put (putBody current patch)) := by
  obtain ⟨first, hfirst, hmeta, -⟩ := hcurrent.owner
  obtain ⟨first', hfirst', -, hdefault⟩ := hlive.owner
  obtain rfl : first = first' := Option.some.inj (hfirst.symm.trans hfirst')
  have hmerged : ∀ k, (live.put (putBody current patch)).metaOf k = merge current.metaOf patch.metaOf k :=
    fun k => rfl
  constructor
  · refine ⟨first, hext.first id first hfirst, ?_, ?_⟩
    · rw [hmerged, merge_unpatched _ _ _ hpatch.creatorAddress, hmeta]
    · show patch.defaultCreator.or live.defaultCreator = _
      rw [hpatch.defaultCreator, Option.none_or, hdefault]
  · intro videoUid hrecording
    rw [recordingOf, hmerged] at hrecording
    cases hpatched : patch.metaOf keyRecordingVideoUid with
    | none =>
      rw [merge_unpatched _ _ _ hpatched] at hrecording
      exact Linked.extended (hcurrent.recording videoUid hrecording) hext
    | some patched =>
      rw [merge_patched _ _ _ _ hpatched, Option.some.injEq] at hrecording
      rw [hrecording] at hpatched
      rw [hpatch.recording videoUid hpatched] at hput
      exact .inr ⟨_,hput,rfl,rfl⟩

end History

section Invariant

def Call.Sound (h : History) (c : Call) : Prop :=
  match c.phase with
  | .received _ => True
  | .confirming _ => Rightful h c.id c.session
  | .reading patch => Rightful h c.id c.session ∧ Harmless patch
  | .writing patch current => Rightful h c.id c.session ∧ Harmless patch ∧ Known h c.id current
  | .clearing videoUid => Rightful h c.id c.session ∧ Linked h c.id videoUid
  | .removing => Rightful h c.id c.session
  | .answered => True

structure Change.Sound (h : History) (c : Change) : Prop where
  rightful : Rightful h c.id c.session
  linked : ∀ videoUid, c.effect = .deleteVideo videoUid → Linked h c.id videoUid

structure Sound (s : Service) : Prop where
  lives : ∀ id live, s.lives id = some live → Known s.history id live
  calls : ∀ c ∈ s.calls, c.Sound s.history
  changes : ∀ c ∈ s.history.changes, c.Sound s.history

theorem sound_start (lives : Bytes → Option LiveInput) (videos : Bytes → Bool) :
    Sound (Service.start lives videos) where
  lives id live hlive := ⟨⟨live,hlive,rfl,rfl⟩,fun _ hv => .inl ⟨live,hlive,hv⟩⟩
  calls := by simp [Service.start]
  changes := by simp [Service.start]

theorem Call.Sound.extended {h later : History} {c : Call} (hc : c.Sound h) (hext : later.Extends h) :
    c.Sound later := by
  obtain ⟨session, id, phase⟩ := c
  cases phase with
  | received => trivial
  | confirming => exact Rightful.extended hc hext
  | reading => exact ⟨Rightful.extended hc.1 hext,hc.2⟩
  | writing => exact ⟨Rightful.extended hc.1 hext,hc.2.1,Known.extended hc.2.2 hext⟩
  | clearing => exact ⟨Rightful.extended hc.1 hext,Linked.extended hc.2 hext⟩
  | removing => exact Rightful.extended hc hext
  | answered => trivial

theorem Change.Sound.extended {h later : History} {c : Change} (hc : c.Sound h)
    (hext : later.Extends h) : c.Sound later :=
  ⟨hc.rightful.extended hext,fun v hv => (hc.linked v hv).extended hext⟩

theorem sound_move (s : Service) (i : ℕ) (c : Call) (phase : Phase) (hs : Sound s)
    (hphase : Call.Sound s.history { c with phase := phase }) : Sound (s.move i c phase) := by
  refine ⟨hs.lives, ?_, hs.changes⟩
  intro c' hc'
  rcases List.mem_or_eq_of_mem_set hc' with hc' | rfl
  · exact hs.calls c' hc'
  · exact hphase

theorem extends_changed (s : Service) (c : Call) (effect : Effect) :
    (s.changed c effect).history.Extends s.history :=
  ⟨fun _ _ h => h,fun _ h => List.mem_append_left _ h⟩

theorem mem_changed (s : Service) (c : Call) (effect : Effect) :
    (⟨c.id,c.session,effect⟩ : Change) ∈ (s.changed c effect).history.changes :=
  List.mem_append_right _ (List.mem_singleton_self _)

theorem sound_changed (s : Service) (c : Call) (effect : Effect) (lives : Bytes → Option LiveInput)
    (videos : Bytes → Bool) (hs : Sound s) (hrightful : Rightful s.history c.id c.session)
    (hlinked : ∀ videoUid, effect = .deleteVideo videoUid → Linked s.history c.id videoUid)
    (hlives : ∀ id live, lives id = some live → Known (s.changed c effect).history id live) :
    Sound (({ s with lives := lives, videos := videos } : Service).changed c effect) := by
  have hext := extends_changed s c effect
  refine ⟨hlives, fun c' hc' => (hs.calls c' hc').extended hext, ?_⟩
  intro change hchange
  rcases List.mem_append.mp hchange with hchange | hchange
  · exact (hs.changes change hchange).extended hext
  · obtain rfl := List.mem_singleton.mp hchange
    exact ⟨hrightful.extended hext,fun v hv => (hlinked v hv).extended hext⟩

theorem sound_remove (h : History) (session id : Bytes) (live : LiveInput) (hk : Known h id live)
    (hr : Rightful h id session) : Call.Sound h ⟨session,id,remove live⟩ := by
  unfold remove
  cases hrec : (recordingOf live).filter (· ≠ []) with
  | none => exact hr
  | some videoUid => exact ⟨hr,hk.recording videoUid (Option.filter_eq_some_iff.mp hrec).1⟩

theorem sound_resolve (h : History) (request : Request) (session id : Bytes) (live : LiveInput)
    (hk : Known h id live) : Call.Sound h ⟨session,id,resolve request session live⟩ := by
  cases request with
  | renameLive field =>
    by_cases howned : owned live session = true
    · rw [resolve, if_pos howned]
      cases newName field with
      | none => trivial
      | some name => exact ⟨hk.rightful howned,harmless_rename name⟩
    · rw [resolve, if_neg howned]
      trivial
  | linkRecording videoUid =>
    by_cases howned : owned live session = true
    · rw [resolve, if_neg (by simp [howned])]
      by_cases hlinked : recordingOf live = some videoUid
      · rw [if_pos hlinked]
        trivial
      · rw [if_neg hlinked]
        exact hk.rightful howned
    · rw [resolve, if_pos (by simpa using howned)]
      trivial
  | register registration =>
    by_cases howned : owned live session = true
    · rw [resolve, if_neg (by simp [howned])]
      by_cases hconflict : conflicting live registration.manifestCid = true
      · rw [if_pos hconflict]
        trivial
      · rw [if_neg hconflict]
        exact ⟨hk.rightful howned,harmless_registration registration⟩
    · rw [resolve, if_pos (by simpa using howned)]
      trivial
  | deleteLive =>
    by_cases howned : owned live session = true
    · rw [resolve, if_pos howned]
      exact sound_remove h session id live hk (hk.rightful howned)
    · rw [resolve, if_neg howned]
      trivial
  | deleteRoute =>
    by_cases hcreator : live.defaultCreator = some session
    · rw [resolve, if_pos hcreator]
      exact sound_remove h session id live hk (hk.rightful (by simp [owned, hcreator]))
    · rw [resolve, if_neg hcreator]
      trivial

theorem sound_proceed (s : Service) (i : ℕ) (c : Call) (hs : Sound s) (hc : c.Sound s.history) :
    Sound (s.proceed i c) := by
  obtain ⟨session, id, phase⟩ := c
  cases phase with
  | received request =>
    show Sound (match s.lives id with
      | none => s.move i ⟨session,id,.received request⟩ .answered
      | some live => s.move i ⟨session,id,.received request⟩ (resolve request session live))
    cases hlive : s.lives id with
    | none => exact sound_move _ _ _ _ hs trivial
    | some live => exact sound_move _ _ _ _ hs (sound_resolve _ _ _ _ _ (hs.lives id live hlive))
  | confirming videoUid =>
    apply sound_move _ _ _ _ hs
    by_cases hvideo : s.videos videoUid = true
    · rw [if_pos hvideo]
      exact ⟨hc,harmless_recording videoUid⟩
    · rw [if_neg hvideo]
      trivial
  | reading patch =>
    show Sound (match s.lives id with
      | none => s.move i ⟨session,id,.reading patch⟩ .answered
      | some current => s.move i ⟨session,id,.reading patch⟩ (.writing patch current))
    cases hlive : s.lives id with
    | none => exact sound_move _ _ _ _ hs trivial
    | some current => exact sound_move _ _ _ _ hs ⟨hc.1,hc.2,hs.lives id current hlive⟩
  | writing patch current =>
    obtain ⟨hrightful, hpatch, hcurrent⟩ := hc
    show Sound (match s.lives id with
      | none => s.move i ⟨session,id,.writing patch current⟩ .answered
      | some live => (s.putLive ⟨session,id,.writing patch current⟩ patch current live).move i
          ⟨session,id,.writing patch current⟩ .answered)
    cases hlive : s.lives id with
    | none => exact sound_move _ _ _ _ hs trivial
    | some live =>
      refine sound_move _ _ _ _ ?_ trivial
      apply sound_changed s _ _ _ s.videos hs hrightful (by nofun)
      intro id' live' hlive'
      have hext := extends_changed s ⟨session,id,.writing patch current⟩ (.put patch)
      by_cases hid : id' = id
      · subst hid
        rw [Function.update_self, Option.some.injEq] at hlive'
        rw [← hlive']
        exact (hs.lives id' live hlive).put hcurrent hpatch hext (mem_changed s _ _)
      · rw [Function.update_of_ne hid] at hlive'
        exact (hs.lives id' live' hlive').extended hext
  | clearing videoUid =>
    have hext := extends_changed s ⟨session,id,.clearing videoUid⟩ (.deleteVideo videoUid)
    refine sound_move _ _ _ _ ?_ (Rightful.extended hc.1 hext)
    apply sound_changed s _ _ s.lives _ hs hc.1
    · rintro _ ⟨⟩
      exact hc.2
    · intro id' live' hlive'
      exact (hs.lives id' live' hlive').extended hext
  | removing =>
    refine sound_move _ _ _ _ ?_ trivial
    apply sound_changed s _ _ _ s.videos hs hc (by nofun)
    intro id' live' hlive'
    by_cases hid : id' = id
    · rw [hid, Function.update_self] at hlive'
      cases hlive'
    · rw [Function.update_of_ne hid] at hlive'
      exact (hs.lives id' live' hlive').extended (extends_changed s _ _)
  | answered => exact hs

theorem sound_fail (s : Service) (i : ℕ) (c : Call) (hs : Sound s) (hc : c.Sound s.history) :
    Sound (s.fail i c) := by
  obtain ⟨session, id, phase⟩ := c
  cases phase with
  | clearing videoUid => exact sound_move _ _ _ _ hs hc.1
  | _ => exact sound_move _ _ _ _ hs trivial

theorem extends_create (s : Service) (uid : Bytes) (live : LiveInput)
    (hfresh : s.history.first uid = none) : (s.create uid live).history.Extends s.history := by
  refine ⟨?_, fun _ h => h⟩
  intro id live' hfirst
  have hne : id ≠ uid := by
    rintro rfl
    rw [hfresh] at hfirst
    cases hfirst
  show Function.update s.history.first uid (some live) id = some live'
  rw [Function.update_of_ne hne, hfirst]

theorem sound_create (s : Service) (uid : Bytes) (live : LiveInput) (hs : Sound s)
    (hfresh : s.history.first uid = none) : Sound (s.create uid live) := by
  have hext := extends_create s uid live hfresh
  refine ⟨?_, fun c hc => (hs.calls c hc).extended hext, fun c hc => (hs.changes c hc).extended hext⟩
  intro id live' hlive
  have hlive : Function.update s.lives uid (some live) id = some live' := hlive
  by_cases hid : id = uid
  · subst hid
    have hfirst : (s.create id live).history.first id = some live := Function.update_self ..
    rw [Function.update_self, Option.some.injEq] at hlive
    rw [← hlive]
    exact ⟨⟨live,hfirst,rfl,rfl⟩,fun _ hv => .inl ⟨live,hfirst,hv⟩⟩
  · rw [Function.update_of_ne hid] at hlive
    exact (hs.lives id live' hlive).extended hext

theorem sound_next (s : Service) (e : Event) (hs : Sound s) (hfresh : Fresh s e) :
    Sound (s.next e) := by
  cases e with
  | create opts uid keeps => exact sound_create s uid _ hs hfresh
  | upload videoUid => exact ⟨hs.lives,hs.calls,hs.changes⟩
  | arrive session id request =>
    cases session with
    | none => exact hs
    | some session =>
      show Sound (if request.complete then
        { s with calls := s.calls++[⟨session,id,.received request⟩] } else s)
      by_cases hcomplete : request.complete = true
      · rw [if_pos hcomplete]
        refine ⟨hs.lives, ?_, hs.changes⟩
        intro c hc
        rcases List.mem_append.mp hc with hc | hc
        · exact hs.calls c hc
        · obtain rfl := List.mem_singleton.mp hc
          trivial
      · rw [if_neg hcomplete]
        exact hs
  | proceed i =>
    show Sound ((s.calls[i]?).elim s fun c => s.proceed i c)
    cases hcall : s.calls[i]? with
    | none => exact hs
    | some c => exact sound_proceed s i c hs (hs.calls c (List.mem_of_getElem? hcall))
  | fail i =>
    show Sound ((s.calls[i]?).elim s fun c => s.fail i c)
    cases hcall : s.calls[i]? with
    | none => exact hs
    | some c => exact sound_fail s i c hs (hs.calls c (List.mem_of_getElem? hcall))

end Invariant

section Runs

theorem History.Extends.refl (h : History) : h.Extends h := ⟨fun _ _ h => h,fun _ h => h⟩

theorem History.Extends.trans {a b c : History} (hab : b.Extends a) (hbc : c.Extends b) : c.Extends a :=
  ⟨fun id live h => hbc.first id live (hab.first id live h),fun x h => hbc.changes x (hab.changes x h)⟩

section Samples

def sampleOpts : NewLive := ⟨ascii "0xAB",ascii "ann",[],none,7⟩

/-- A caller and its creator's address in another case; somebody else's request overlaps. -/
def sampleEvents : List Event := [
  .create sampleOpts (ascii "l") false,
  .arrive (some (ascii "0xab")) (ascii "l") (.renameLive (ascii " show ")),
  .arrive (some (ascii "0xcd")) (ascii "l") .deleteLive,
  .proceed 0, .proceed 1, .proceed 0, .proceed 0, .proceed 1]

end Samples

end Runs

end Aevia.Ownership
