import Aevia.Video.RegistrationInvariant

/-!
# One manifest for each live input

Both routes refuse a live input that another manifest is recorded on, as they
have read it. A manifest that is sent or recorded after that, or was sent and
never recorded, is not seen.
-/

set_option autoImplicit false

namespace Aevia.Lives
open Aevia.Bytes Aevia.Run

def recorded (s : World) (id : Bytes) : Bytes := ((s.lives id).map LiveInput.manifestCid).getD []

/-- The transactions of a live input that are mined or may still be. -/
def anchors (s : World) (id : Bytes) : List Tx :=
  s.txs.filter (fun t => t.id = id ∧ t.status.mayBeMined)

/-- A request that writes to the live input has read the manifest that is still
recorded, or writes the one that is; and one that sends a transaction knows the
manifests of the others, as its own or the one it has read. -/
def Informed (id : Bytes) (s : World) (e : Event) : Prop :=
  (∀ x ∈ writing s e, x.id = id →
    recorded s id = x.live.manifestCid ∨ recorded s id = x.registration.manifestCid) ∧
  ∀ x ∈ sending s e, x.r.id = id → ∀ t ∈ anchors s id,
    t.request.manifestCid = x.live.manifestCid ∨ t.request.manifestCid = x.r.request.manifestCid

instance (id : Bytes) (s : World) (e : Event) : Decidable (Informed id s e) :=
  inferInstanceAs (Decidable ((∀ x ∈ writing s e, x.id = id → _ ∨ _) ∧
    ∀ x ∈ sending s e, x.r.id = id → ∀ t ∈ anchors s id, _ ∨ _))

theorem recorded_persist (s : World) (id id' : Bytes) (registration : RegistrationMeta) :
    recorded (s.persist id' registration) id =
      if id' = id then (if (s.lives id).isSome then registration.manifestCid else [])
      else recorded s id := by
  unfold recorded World.persist
  by_cases hid : id' = id
  · subst hid
    cases hlive : s.lives id' with
    | none => simp
    | some live => simp
  · simp [hid, Function.update_of_ne (Ne.symm hid)]

theorem next_recorded (relay : Relay) (id c : Bytes) (s : World) (e : Event) (hs : Sound s)
    (hinformed : Informed id s e) (hc : c ≠ []) (hrecorded : recorded s id = c) :
    recorded (next relay s e) id = c := by
  rcases next_lives relay s e with hsame | ⟨x, hwriting, hwrite⟩
  · rw [recorded, hsame]
    exact hrecorded
  · have hafter : recorded (next relay s e) id = recorded (s.persist x.id x.registration) id := by
      rw [recorded, recorded, hwrite]
    rw [hafter, recorded_persist]
    by_cases hid : x.id = id
    · have hlive : (s.lives id).isSome = true := by
        by_contra hnone
        rw [Option.not_isSome_iff_eq_none] at hnone
        rw [recorded, hnone] at hrecorded
        exact hc hrecorded.symm
      rw [if_pos hid, if_pos hlive]
      obtain ⟨-, hagrees⟩ := writing_passed s e x hs hwriting
      rcases hinformed.1 x hwriting hid with hread | hown
      · rw [hrecorded] at hread
        rcases (agrees_iff _ _).mp hagrees with hempty | hequal
        · exact absurd (hread.trans hempty) hc
        · rw [← hequal, ← hread]
      · rw [← hown, hrecorded]
    · rw [if_neg hid]
      exact hrecorded

/-- All transactions of a live input that are mined or may still be are for one
manifest. -/
structure Single (id : Bytes) (s : World) : Prop where
  sound : Sound s
  single : ∀ t ∈ anchors s id, ∀ t' ∈ anchors s id, t.request.manifestCid = t'.request.manifestCid

theorem start_single (id : Bytes) (lives : Bytes → Option LiveInput)
    (registry : ContentRegistry.Registry) : Single id (World.start lives registry) where
  sound := start_sound lives registry
  single := fun _ h => nomatch h

theorem anchors_settled (s : World) (id : Bytes) (i : ℕ) (t : Tx) (status : TxStatus)
    (ht : s.pendingTx i = some t) (s' : World)
    (hset : s'.txs = s.txs.set i { t with status := status }) :
    ∀ t' ∈ anchors s' id, ∃ t'' ∈ anchors s id, t''.request = t'.request := by
  intro t' ht'
  rw [anchors, hset, List.mem_filter, decide_eq_true_eq] at ht'
  obtain ⟨hmem, hid, hstatus⟩ := ht'
  rcases List.mem_or_eq_of_mem_set hmem with hmem | rfl
  · refine ⟨t', ?_, rfl⟩
    rw [anchors, List.mem_filter, decide_eq_true_eq]
    exact ⟨hmem,hid,hstatus⟩
  · obtain ⟨hget, hpending⟩ := (pendingTx_some s i t).mp ht
    refine ⟨t, ?_, rfl⟩
    rw [anchors, List.mem_filter, decide_eq_true_eq, hpending]
    exact ⟨List.mem_of_getElem? hget,hid,rfl⟩

theorem next_single (relay : Relay) (id : Bytes) (s : World) (e : Event) (hs : Single id s)
    (hinformed : Informed id s e) : Single id (next relay s e) := by
  refine ⟨next_sound relay s e hs.sound, ?_⟩
  rcases next_txs relay s e with hsame | ⟨x, hsending, hsend⟩ | ⟨i, t, status, ht, hset⟩
  · rw [anchors, hsame]
    exact hs.single
  · obtain ⟨hnamed, hagrees, -, hrequest, hid⟩ := sending_passed s e x hs.sound hsending
    -- whatever is there already is for the manifest that is sent
    have hknown : x.t.id = id → ∀ t ∈ anchors s id, t.request.manifestCid = x.t.request.manifestCid := by
      intro hxid t ht
      rw [hrequest]
      rcases hinformed.2 x hsending (hid.symm.trans hxid) t ht with hread | hown
      · rcases (agrees_iff _ _).mp hagrees with hempty | hequal
        · exact absurd (hread.trans hempty) (hs.sound.txs t (List.mem_filter.mp ht).1)
        · exact hread.trans hequal
      · exact hown
    have hcases : ∀ t ∈ anchors (next relay s e) id, t ∈ anchors s id ∨ t = x.t ∧ x.t.id = id := by
      intro t ht
      rw [anchors, hsend, List.filter_append, List.mem_append] at ht
      rcases ht with ht | ht
      · exact .inl ht
      · rw [List.mem_filter, List.mem_singleton, decide_eq_true_eq] at ht
        obtain ⟨rfl, hxid, -⟩ := ht
        exact .inr ⟨rfl,hxid⟩
    intro t ht t' ht'
    rcases hcases t ht with hold | ⟨rfl, hxid⟩
    · rcases hcases t' ht' with hold' | ⟨rfl, hxid⟩
      · exact hs.single t hold t' hold'
      · exact hknown hxid t hold
    · rcases hcases t' ht' with hold' | ⟨rfl, -⟩
      · exact (hknown hxid t' hold').symm
      · rfl
  · intro t₁ ht₁ t₂ ht₂
    obtain ⟨t₁', hmem₁, hrequest₁⟩ := anchors_settled s id i t status ht _ hset t₁ ht₁
    obtain ⟨t₂', hmem₂, hrequest₂⟩ := anchors_settled s id i t status ht _ hset t₂ ht₂
    rw [← hrequest₁, ← hrequest₂]
    exact hs.single t₁' hmem₁ t₂' hmem₂

def minedFor (s : World) (id : Bytes) : List Tx :=
  s.txs.filter (fun t => t.id = id ∧ t.status.isMined)

theorem minedFor_anchors (s : World) (id : Bytes) : ∀ t ∈ minedFor s id, t ∈ anchors s id := by
  intro t ht
  rw [minedFor, List.mem_filter, decide_eq_true_eq] at ht
  rw [anchors, List.mem_filter, decide_eq_true_eq]
  exact ⟨ht.1,ht.2.1,isMined_mayBeMined t.status ht.2.2⟩

theorem run_single (relay : Relay) (id : Bytes) (s : World) (events : List Event)
    (hs : Single id s) (h : Along (next relay) (Informed id) s events) :
    Single id (run (next relay) s events) :=
  along_invariant (next relay) (Informed id) (Single id) (next_single relay id) s events hs h

theorem run_recorded (relay : Relay) (id c : Bytes) (s : World) (events : List Event)
    (hs : Sound s) (h : Along (next relay) (Informed id) s events) (hc : c ≠ [])
    (hrecorded : recorded s id = c) : recorded (run (next relay) s events) id = c := by
  have hboth := along_invariant (next relay) (Informed id)
    (fun s => Sound s ∧ recorded s id = c)
    (fun s e hs he => ⟨next_sound relay s e hs.1,next_recorded relay id c s e hs.1 he hc hs.2⟩)
    s events ⟨hs,hrecorded⟩ h
  exact hboth.2

/-- As long as the requests that write or send are informed, a manifest that is
recorded on a live input is never replaced, and the relayer's transactions for
it that succeed are for one manifest. -/
theorem one_manifest (relay : Relay) (lives : Bytes → Option LiveInput)
    (registry : ContentRegistry.Registry) (id : Bytes) (before after : List Event)
    (h : Along (next relay) (Informed id) (World.start lives registry) (before++after)) :
    let s := run (next relay) (World.start lives registry) before
    let s' := run (next relay) (World.start lives registry) (before++after)
    (recorded s id ≠ [] → recorded s' id = recorded s id) ∧
    ∀ t ∈ minedFor s' id, ∀ t' ∈ minedFor s' id, t.request.manifestCid = t'.request.manifestCid := by
  intro s s'
  obtain ⟨hbefore, hafter⟩ := (along_append _ _ _ before after).mp h
  constructor
  · intro hnamed
    have hsound : Sound s := run_sound relay _ before (start_sound lives registry)
    have hstays := run_recorded relay id _ s after hsound hafter hnamed rfl
    show recorded (run (next relay) _ (before++after)) id = _
    rw [run_append]
    exact hstays
  · have hsingle : Single id s' := run_single relay id _ _ (start_single id lives registry) h
    intro t ht t' ht'
    exact hsingle.single t (minedFor_anchors s' id t ht) t' (minedFor_anchors s' id t' ht')

section Samples

def liveId : Bytes := ascii "live"

/-- The second request finds the first one's manifest and is refused. -/
theorem second_manifest_refused :
    let before := reads 0 liveId++sends 0++finishes 0
    let after := reads 1 liveId++sends 1++finishes 1
    Along (next sampleRelay) (Informed liveId) sampleWorld (before++after) ∧
    recorded (run (next sampleRelay) sampleWorld before) liveId = sampleManifestCid 0 ∧
    (recorded (run (next sampleRelay) sampleWorld before) liveId ≠ [] →
      recorded (run (next sampleRelay) sampleWorld (before++after)) liveId =
        recorded (run (next sampleRelay) sampleWorld before) liveId) := by
  intro before after
  have hinformed : Along (next sampleRelay) (Informed liveId) sampleWorld (before++after) := by
    decide +kernel
  have hrecorded : recorded (run (next sampleRelay) sampleWorld before) liveId = sampleManifestCid 0 := by
    decide +kernel
  exact ⟨hinformed,hrecorded,(one_manifest sampleRelay sampleLives
    (ContentRegistry.deploy 3 84532) liveId before after hinformed).1⟩

/-- Two requests read the live input before either is recorded on it. -/
theorem overlapping_manifests :
    let before := reads 0 liveId++reads 1 liveId++sends 0++finishes 0
    let after := sends 1++finishes 1
    let s := run (next sampleRelay) sampleWorld before
    let s' := run (next sampleRelay) sampleWorld (before++after)
    recorded s liveId = sampleManifestCid 0 ∧ recorded s' liveId = sampleManifestCid 1 ∧
    (minedFor s' liveId).map (fun t => t.request.manifestCid) =
      [sampleManifestCid 0, sampleManifestCid 1] ∧
    ¬ ((recorded s liveId ≠ [] → recorded s' liveId = recorded s liveId) ∧
      ∀ t ∈ minedFor s' liveId, ∀ t' ∈ minedFor s' liveId,
        t.request.manifestCid = t'.request.manifestCid) := by
  decide +kernel

end Samples

end Aevia.Lives
