import Aevia.Provider.ContentRoutes
import Aevia.Provider.PinInvariant

/-!
# Served content is pinned content

What is pinned is what the batches that landed say. The store holds it in every
interleaving of pins and unpins, so a request for it is answered with it. What is
not pinned is answered too, with fixture content or with what an earlier pin of
the CID left behind.
-/

set_option autoImplicit false

namespace Aevia.Content
open Aevia.Bytes Aevia.KeyValue Aevia.Manifests Aevia.PinStore Aevia.Run Aevia.Storage
open Aevia.StoreProgram Aevia.StoreProgram.Program

/-- A pin with the manifest that is built from its payloads. -/
structure Pin where
  payloads : List Bytes
  segmentDuration : Int64
  manifest : Manifest
  built : buildFromPayloads payloads segmentDuration = .ok manifest

inductive PinCall where
  | pinPayloads (payloads : List Bytes) (segmentDuration : Int64)
  | unpin (cid : Bytes)

def PinCall.operation : PinCall → Operation
  | .pinPayloads payloads segmentDuration => .pinPayloads payloads segmentDuration
  | .unpin cid => .unpin cid

def pinCode (q : Quota) (call : PinCall) : Call Unit := code q call.operation

abbrev Pinned := Bytes → Option Pin

def PinCall.record : PinCall → Pinned → Pinned
  | .pinPayloads payloads segmentDuration, pinned =>
    match h : buildFromPayloads payloads segmentDuration with
    | .ok m => Function.update pinned m.cid (some ⟨payloads, segmentDuration, m, h⟩)
    | .error _ => pinned
  | .unpin cid, pinned => Function.update pinned cid none

abbrev PinSet := Recorded Bytes Bytes GoError Unit PinCall Pinned

def emptyPinSet : PinSet := ⟨⟨Map.empty, []⟩, fun _ => none⟩

def pinNext (q : Quota) : PinSet → Event GoError PinCall → PinSet :=
  recordedNext (pinCode q) PinCall.record

structure Names (pinned : Pinned) (cid n : Bytes) (p : Pin) (idx : Int64) : Prop where
  pinned : pinned cid = some p
  index : atoi n = some idx
  nonneg : 0 ≤ idx
  inRange : idx < p.manifest.segmentCount

def DescribesPin (cid : Bytes) (p : Pin) (body : Bytes) : Prop :=
  ∃ m, parseManifest body = .ok m ∧ m.cid = cid ∧
    m.segmentCount.toInt = p.payloads.length ∧
    m.leafList = p.payloads.map (fun b => hexEncode (hashLeaf b))

/-- Status 200 is for what is pinned, and comes with it. -/
def Truthful (pinned : Pinned) (h : Handlers) : Request → Prop
  | .segment cid n =>
    ((h.serveSegment cid n).status = statusOK ↔ ∃ p idx, Names pinned cid n p idx) ∧
    ∀ p idx, Names pinned cid n p idx → ∃ header body,
      h.serveSegment cid n = .ok header body ∧ p.payloads[idx.toInt.toNat]? = some body
  | .playlist cid =>
    ((h.servePlaylist cid).status = statusOK ↔ (pinned cid).isSome = true) ∧
    ∀ p, pinned cid = some p → ∃ header body,
      h.servePlaylist cid = .ok header body ∧
      uris body = (List.range p.payloads.length).map segmentURI
  | .manifest cid =>
    ((h.serveManifest cid).status = statusOK ↔ (pinned cid).isSome = true) ∧
    ∀ p, pinned cid = some p → ∃ header body,
      h.serveManifest cid = .ok header body ∧ DescribesPin cid p body

/-- The request is malformed or asks for something that is pinned. -/
def Answerable (pinned : Pinned) : Request → Prop
  | .segment cid n => cid = [] ∨ (∀ idx, atoi n = some idx → idx < 0) ∨
      ∃ p idx, Names pinned cid n p idx
  | .playlist cid => cid = [] ∨ (pinned cid).isSome = true
  | .manifest cid => cid = [] ∨ (pinned cid).isSome = true

section Batches

def Writes : PinCall → List (Write Bytes Bytes) → Prop
  | .pinPayloads payloads segmentDuration, ws => ∃ m count bytesUsed,
      buildFromPayloads payloads segmentDuration = .ok m ∧
      m.segmentCount.toInt = payloads.length ∧ ws = pinWrites m.cid m payloads count bytesUsed
  | .unpin cid, ws => ∃ m count bytesUsed, ws = unpinWrites cid m count bytesUsed

theorem pinCode_commits (q : Quota) (call : PinCall) : (pinCode q call).Commits (Writes call) := by
  cases call with
  | unpin cid => exact unpin_commits _ cid (fun m count bytesUsed => ⟨m,count,bytesUsed,rfl⟩)
  | pinPayloads payloads segmentDuration =>
    apply commits_bind (Writes (.pinPayloads payloads segmentDuration))
    · unfold pinPayloads
      split_ifs
      · trivial
      · split
        · trivial
        · rename_i m hbuilt
          apply commits_bind
          · apply pin_commits
            rintro m' ⟨⟩ - hcount count bytesUsed
            exact ⟨m,count,bytesUsed,hbuilt,hcount,rfl⟩
          · exact fun _ => trivial
    · exact fun _ => trivial

end Batches

structure Held (db : Database) (cid : Bytes) (p : Pin) : Prop where
  named : p.manifest.cid = cid
  counted : p.manifest.segmentCount.toInt = p.payloads.length
  manifest : db.get (manifestKey cid) = some (manifestJson p.manifest).print
  segments : ∀ i (hi : i < p.payloads.length), db.get (segmentKey cid i) = some p.payloads[i]

/-- The store has what is pinned, and no other manifest. -/
structure Holds (db : Database) (pinned : Pinned) : Prop where
  pins : ∀ cid p, pinned cid = some p → Held db cid p
  absent : ∀ cid, pinned cid = none → db.get (manifestKey cid) = none

theorem empty_holds : Holds Map.empty (fun _ => none) where
  pins := fun _ _ h => nomatch h
  absent := fun _ _ => rfl

section Preservation
variable (db : Database) (pinned : Pinned)

theorem Holds.update (h : Holds db pinned) (cid : Bytes) (n : ℕ) (ws : List (Write Bytes Bytes))
    (hkeys : ws.map Write.key = contentKeys cid n) (pin : Option Pin)
    (hpin : ∀ p, pin = some p → Held (applyBatch db ws) cid p)
    (hnone : pin = none → (applyBatch db ws).get (manifestKey cid) = none) :
    Holds (applyBatch db ws) (Function.update pinned cid pin) := by
  have hkept := otherContent_kept db cid ws n hkeys
  constructor
  · intro cid' p hp
    by_cases heq : cid' = cid
    · rw [heq, Function.update_self] at hp
      rw [heq]
      exact hpin p hp
    · rw [Function.update_of_ne heq] at hp
      obtain ⟨hnamed, hcounted, hstored, hsegments⟩ := h.pins cid' p hp
      refine ⟨hnamed, hcounted, ?_, ?_⟩
      · rw [(hkept cid' heq).1]
        exact hstored
      · intro i hi
        rw [(hkept cid' heq).2 i]
        exact hsegments i hi
  · intro cid' hp
    by_cases heq : cid' = cid
    · rw [heq, Function.update_self] at hp
      rw [heq]
      exact hnone hp
    · rw [Function.update_of_ne heq] at hp
      rw [(hkept cid' heq).1]
      exact h.absent cid' hp

theorem record_holds (call : PinCall) (ws : List (Write Bytes Bytes)) (hws : Writes call ws)
    (h : Holds db pinned) : Holds (applyBatch db ws) (call.record pinned) := by
  cases call with
  | unpin cid =>
    obtain ⟨m, count, bytesUsed, rfl⟩ := hws
    apply h.update db pinned cid _ _ (unpinWrites_keys cid m count bytesUsed) none
    · exact fun p hp => nomatch hp
    · exact fun _ => get_applyBatch db _ (unpinWrites_nodup cid m count bytesUsed)
        (.delete (manifestKey cid)) List.mem_cons_self
  | pinPayloads payloads segmentDuration =>
    obtain ⟨m, count, bytesUsed, hbuilt, hcount, rfl⟩ := hws
    have hrecord : PinCall.record (.pinPayloads payloads segmentDuration) pinned =
        Function.update pinned m.cid (some ⟨payloads,segmentDuration,m,hbuilt⟩) := by
      simp only [PinCall.record]
      split
      · rename_i m' hbuilt'
        rw [hbuilt] at hbuilt'
        cases hbuilt'
        rfl
      · rename_i e herror
        rw [hbuilt] at herror
        cases herror
    obtain ⟨hmanifest, hsegments⟩ := get_pinWrites db m.cid m payloads count bytesUsed
    rw [hrecord]
    apply h.update db pinned m.cid _ _ (pinWrites_keys m.cid m payloads count bytesUsed)
    · intro p hp
      cases hp
      exact ⟨rfl,hcount,hmanifest,hsegments⟩
    · exact fun hnone => nomatch hnone

end Preservation

theorem run_holds (q : Quota) (events : List (Event GoError PinCall)) :
    Holds (run (pinNext q) emptyPinSet events).shared.store
      (run (pinNext q) emptyPinSet events).entry := by
  apply run_recorded (pinCode q) PinCall.record Writes Holds (pinCode_commits q)
  · exact fun call ws db pinned hws h => record_holds db pinned call ws hws h
  · exact fun _ h => nomatch h
  · exact empty_holds

section Answers
variable (db : Database) (pinned : Pinned)

theorem isNotFound_errNotFound : isNotFound errNotFound = true := rfl

theorem serveSegment_answered (cid n : Bytes) (idx : Int64) (hcid : cid ≠ [])
    (hidx : atoi n = some idx) (hnonneg : 0 ≤ idx) :
    (providerHandlers db).serveSegment cid n = segmentReply
      ((db.get (segmentKey cid idx.toInt.toNat)).getD (fixtureBytes cid idx fixtureSegmentSize)) := by
  have hint : ((idx.toInt.toNat : ℕ) : ℤ) = idx.toInt := by
    rw [Int64.le_iff_toInt_le] at hnonneg
    exact Int.toNat_of_nonneg hnonneg
  have hread : (contentStore db).getSegment cid idx =
      (Storage.get (segmentKey cid idx.toInt.toNat)).read db := by
    show (getSegment cid idx.toInt).read db = _
    rw [← hint, Int.toNat_natCast, read_getSegment]
  simp only [Handlers.serveSegment, if_neg hcid, hidx, if_neg (Int64.not_lt.mpr hnonneg),
    Handlers.resolveSegment, Handlers.resolve, providerHandlers, Handlers.withSource, newHandlers,
    hread, read_get]
  cases db.get (segmentKey cid idx.toInt.toNat) with
  | some v => rfl
  | none =>
    simp only [isNotFound_errNotFound]
    rfl

theorem serveSegment_refused (cid n : Bytes)
    (h : cid = [] ∨ ∀ idx, atoi n = some idx → idx < 0) :
    ((providerHandlers db).serveSegment cid n).status = statusBadRequest := by
  unfold Handlers.serveSegment
  by_cases hcid : cid = []
  · rw [if_pos hcid]
    rfl
  · have hneg := h.resolve_left hcid
    rw [if_neg hcid]
    cases hidx : atoi n with
    | none => rfl
    | some idx =>
      dsimp only
      rw [if_pos (hneg idx hidx)]
      rfl

theorem buildFixtureManifest_ok (cid : Bytes) : ∃ m, buildFixtureManifest cid = .ok m := by
  let leaves := ((List.range defaultSegmentCount.toInt.toNat).map
    (fun i => fixtureBytes cid (Int64.ofNat i) fixtureSegmentSize)).map hashLeaf
  have hsized : ∀ l ∈ leaves, l.length = hashSize := by
    intro l hl
    obtain ⟨payload, -, rfl⟩ := List.mem_map.mp hl
    exact Sha256.sha256_length payload
  have hne : leaves ≠ [] := by
    simp only [leaves, ne_eq, List.map_eq_nil_iff, List.range_eq_nil]
    decide
  exact ⟨_,(buildFromPayloads_ok _ _ _).mpr ⟨by decide,⟨leaves,hne,hsized⟩,rfl,rfl⟩⟩

variable (h : Holds db pinned)

include h in
theorem getManifest_pinned (cid : Bytes) (p : Pin) (hp : pinned cid = some p) :
    (contentStore db).getManifest cid = .ok p.manifest := by
  have hstored := (h.pins cid p hp).manifest
  obtain ⟨-, t, -, hm⟩ := (buildFromPayloads_ok _ _ _).mp p.built
  show (getManifest cid).read db = _
  rw [read_getManifest_some db cid _ hstored, parseManifest_print, hm, manifestOf_sanitized]

include h in
theorem getManifest_unpinned (cid : Bytes) (hp : pinned cid = none) :
    (contentStore db).getManifest cid = .error errNotFound :=
  read_getManifest_none db cid (h.absent cid hp)

include h in
theorem pinned_nonempty (cid : Bytes) (p : Pin) (hp : pinned cid = some p) : cid ≠ [] := by
  obtain ⟨-, t, -, hm⟩ := (buildFromPayloads_ok _ _ _).mp p.built
  rw [← (h.pins cid p hp).named, hm]
  exact List.cons_ne_nil _ _

include h in
theorem servePlaylist_pinned (cid : Bytes) (p : Pin) (hp : pinned cid = some p) :
    (providerHandlers db).servePlaylist cid = playlistReply
      (PlaylistSpec.render ⟨cid,p.manifest.segmentCount,p.manifest.segmentDuration⟩) := by
  simp only [Handlers.servePlaylist, if_neg (pinned_nonempty db pinned h cid p hp), providerHandlers,
    Handlers.withSource, getManifest_pinned db pinned h cid p hp]

include h in
theorem serveManifest_pinned (cid : Bytes) (p : Pin) (hp : pinned cid = some p) :
    (providerHandlers db).serveManifest cid =
      manifestReply p.manifest (manifestJson p.manifest).print := by
  simp only [Handlers.serveManifest, if_neg (pinned_nonempty db pinned h cid p hp), providerHandlers,
    Handlers.withSource, Handlers.resolveManifest, Handlers.resolve,
    getManifest_pinned db pinned h cid p hp, Manifest.canonicalJSON]

include h in
theorem serve_unpinned (cid : Bytes) (hcid : cid ≠ []) (hp : pinned cid = none) :
    ((providerHandlers db).servePlaylist cid).status = statusOK ∧
    ((providerHandlers db).serveManifest cid).status = statusOK := by
  have hread := getManifest_unpinned db pinned h cid hp
  obtain ⟨m, hm⟩ := buildFixtureManifest_ok cid
  constructor
  · simp only [Handlers.servePlaylist, if_neg hcid, providerHandlers, Handlers.withSource, hread,
      isNotFound_errNotFound]
    rfl
  · simp only [Handlers.serveManifest, if_neg hcid, providerHandlers, Handlers.withSource,
      Handlers.resolveManifest, Handlers.resolve, hread, isNotFound_errNotFound, newHandlers, hm,
      if_true, Manifest.canonicalJSON]
    rfl

include h in
theorem serveSegment_named (cid n : Bytes) (p : Pin) (idx : Int64) (hnames : Names pinned cid n p idx) :
    ∃ header body, (providerHandlers db).serveSegment cid n = .ok header body ∧
      p.payloads[idx.toInt.toNat]? = some body := by
  have hheld := h.pins cid p hnames.pinned
  have hlt : idx.toInt.toNat < p.payloads.length := by
    have hrange := Int64.lt_iff_toInt_lt.mp hnames.inRange
    have hnonneg := Int64.le_iff_toInt_le.mp hnames.nonneg
    rw [hheld.counted] at hrange
    rw [Int64.toInt_zero] at hnonneg
    omega
  rw [serveSegment_answered db cid n idx (pinned_nonempty db pinned h cid p hnames.pinned)
    hnames.index hnames.nonneg, hheld.segments _ hlt]
  exact ⟨_,_,rfl,List.getElem?_eq_getElem hlt⟩

include h in
theorem servePlaylist_describes (cid : Bytes) (p : Pin) (hp : pinned cid = some p) :
    ∃ header body, (providerHandlers db).servePlaylist cid = .ok header body ∧
      uris body = (List.range p.payloads.length).map segmentURI := by
  obtain ⟨-, t, ht, -⟩ := (buildFromPayloads_ok _ _ _).mp p.built
  have hcounted := (h.pins cid p hp).counted
  have hpositive : 0 < p.payloads.length := by
    rw [List.length_pos_iff]
    intro hnil
    exact t.nonempty (by rw [ht, hnil]; rfl)
  have hcount : ¬p.manifest.segmentCount ≤ 0 := by
    rw [Int64.le_iff_toInt_le, hcounted, Int64.toInt_zero]
    omega
  rw [servePlaylist_pinned db pinned h cid p hp]
  refine ⟨_, _, rfl, ?_⟩
  simp only [PlaylistSpec.render, if_neg hcount]
  rw [uris_playlist, hcounted, Int.toNat_natCast]

include h in
theorem serveManifest_describes (cid : Bytes) (p : Pin) (hp : pinned cid = some p) :
    ∃ header body, (providerHandlers db).serveManifest cid = .ok header body ∧
      DescribesPin cid p body := by
  have hheld := h.pins cid p hp
  obtain ⟨-, t, ht, hm⟩ := (buildFromPayloads_ok _ _ _).mp p.built
  rw [serveManifest_pinned db pinned h cid p hp]
  refine ⟨_, _, rfl, p.manifest, ?_, hheld.named, hheld.counted, ?_⟩
  · rw [parseManifest_print, hm, manifestOf_sanitized]
  · rw [hm, Manifest.leafList, manifestOf, Option.getD_some, ht, List.map_map]
    rfl

include h in
theorem segment_truthful (cid n : Bytes) : Truthful pinned (providerHandlers db) (.segment cid n) ↔
    Answerable pinned (.segment cid n) := by
  have hcontent := serveSegment_named db pinned h cid n
  constructor
  · rintro ⟨hstatus, -⟩
    by_cases hrefused : cid = [] ∨ ∀ idx, atoi n = some idx → idx < 0
    · exact hrefused.elim .inl (fun hneg => .inr (.inl hneg))
    · obtain ⟨hcid, hvalid⟩ := not_or.mp hrefused
      obtain ⟨idx, hidx⟩ := not_forall.mp hvalid
      obtain ⟨hidx, hnonneg⟩ := Classical.not_imp.mp hidx
      refine .inr (.inr (hstatus.mp ?_))
      rw [serveSegment_answered db cid n idx hcid hidx (Int64.not_lt.mp hnonneg)]
      rfl
  · intro hanswerable
    refine ⟨?_, hcontent⟩
    constructor
    · intro hok
      rcases hanswerable with hcid | hneg | hnames
      · rw [serveSegment_refused db cid n (.inl hcid)] at hok
        cases hok
      · rw [serveSegment_refused db cid n (.inr hneg)] at hok
        cases hok
      · exact hnames
    · rintro ⟨p, idx, hnames⟩
      obtain ⟨header, body, hreply, -⟩ := hcontent p idx hnames
      rw [hreply]
      rfl

theorem whole_truthful (cid : Bytes) (reply : Reply) (describes : Pin → Bytes → Prop)
    (hmissing : cid = [] → reply.status = statusBadRequest)
    (hpinned : ∀ p, pinned cid = some p → ∃ header body, reply = .ok header body ∧ describes p body)
    (hunpinned : cid ≠ [] → pinned cid = none → reply.status = statusOK) :
    ((reply.status = statusOK ↔ (pinned cid).isSome = true) ∧
      ∀ p, pinned cid = some p → ∃ header body, reply = .ok header body ∧ describes p body) ↔
    (cid = [] ∨ (pinned cid).isSome = true) := by
  constructor
  · rintro ⟨hstatus, -⟩
    by_cases hcid : cid = []
    · exact .inl hcid
    · right
      cases hp : pinned cid with
      | some p => rfl
      | none =>
        have hsome := hstatus.mp (hunpinned hcid hp)
        rw [hp] at hsome
        exact hsome
  · intro hanswerable
    refine ⟨⟨?_, ?_⟩, hpinned⟩
    · intro hok
      rcases hanswerable with hcid | hsome
      · rw [hmissing hcid] at hok
        cases hok
      · exact hsome
    · intro hsome
      obtain ⟨p, hp⟩ := Option.isSome_iff_exists.mp hsome
      obtain ⟨header, body, hreply, -⟩ := hpinned p hp
      rw [hreply]
      rfl

end Answers

/-- In every store that pins and unpins can lead to, in whatever interleaving, a
request is answered with 200 exactly for what is pinned, and with it, if and only
if it is malformed or asks for something pinned. -/
theorem served_content (q : Quota) (events : List (Event GoError PinCall)) (r : Request) :
    Truthful (run (pinNext q) emptyPinSet events).entry
        (providerHandlers (run (pinNext q) emptyPinSet events).shared.store) r ↔
      Answerable (run (pinNext q) emptyPinSet events).entry r := by
  have h := run_holds q events
  generalize run (pinNext q) emptyPinSet events = s at h ⊢
  cases r with
  | segment cid n => exact segment_truthful s.shared.store s.entry h cid n
  | playlist cid =>
    apply whole_truthful s.entry cid _
      (fun p body => uris body = (List.range p.payloads.length).map segmentURI)
    · intro hcid
      rw [Handlers.servePlaylist, if_pos hcid]
      rfl
    · exact servePlaylist_describes s.shared.store s.entry h cid
    · exact fun hcid hp => (serve_unpinned s.shared.store s.entry h cid hcid hp).1
  | manifest cid =>
    apply whole_truthful s.entry cid _ (DescribesPin cid)
    · intro hcid
      rw [Handlers.serveManifest, if_pos hcid]
      rfl
    · exact serveManifest_describes s.shared.store s.entry h cid
    · exact fun hcid hp => (serve_unpinned s.shared.store s.entry h cid hcid hp).2

section Samples

def pinnedOnce : List (Event GoError PinCall) :=
  .start (.pinPayloads [[7]] 6)::List.replicate 4 (.step 0 none)

def pinnedOnceCid : Bytes := cidText (hashLeaf [7])

/-- The second segment of a pin that has one. -/
theorem missing_segment_served :
    let s := run (pinNext ⟨0, 0⟩) emptyPinSet pinnedOnce
    ((s.entry pinnedOnceCid).map Pin.payloads = some [[7]] ∧
      ((providerHandlers s.shared.store).serveSegment pinnedOnceCid (ascii "1")).status = statusOK) ∧
    ¬Truthful s.entry (providerHandlers s.shared.store) (.segment pinnedOnceCid (ascii "1")) := by
  intro s
  have hpayloads : (s.entry pinnedOnceCid).map Pin.payloads = some [[7]] := by decide +kernel
  have hindex : atoi (ascii "1") = some 1 := by decide
  have hok : ((providerHandlers s.shared.store).serveSegment pinnedOnceCid (ascii "1")).status =
      statusOK := by
    rw [serveSegment_answered s.shared.store pinnedOnceCid (ascii "1") 1 (List.cons_ne_nil _ _) hindex
      (by decide)]
    rfl
  refine ⟨⟨hpayloads,hok⟩, ?_⟩
  rintro ⟨hstatus, -⟩
  obtain ⟨p, idx, hpinned, hidx, -, hrange⟩ := hstatus.mp hok
  rw [hindex] at hidx
  obtain rfl := Option.some.inj hidx
  rw [hpinned, Option.map_some, Option.some.injEq] at hpayloads
  have hcounted := ((run_holds ⟨0, 0⟩ pinnedOnce).pins pinnedOnceCid p hpinned).counted
  rw [Int64.lt_iff_toInt_lt, hcounted, hpayloads] at hrange
  exact absurd hrange (by decide)

end Samples

end Aevia.Content
