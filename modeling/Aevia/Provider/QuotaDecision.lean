import Aevia.Provider.PinConcurrency

/-!
# The quota decision of a pin

`Pin` checks its quota on the counters it has read, and only then looks whether
the CID is stored already. The check is exact for a new CID. A pin that replaces
another is judged as if both were stored, so it is refused at a limit that the
counters after the replacement would keep.
-/

set_option autoImplicit false

namespace Aevia.PinStore
open Aevia.Bytes Aevia.KeyValue Aevia.Manifests Aevia.Storage Aevia.StoreProgram
open Aevia.StoreProgram.Program Aevia.Run

/-- Counters above a limit, zero being no limit. -/
def Quota.ExceededBy (q : Quota) (count : Int64) (bytesUsed : UInt64) : Prop :=
  (q.maxPins ≠ 0 ∧ q.maxPins < count) ∨ (q.maxBytes ≠ 0 ∧ q.maxBytes < bytesUsed)

instance (q : Quota) (count : Int64) (bytesUsed : UInt64) :
    Decidable (q.ExceededBy count bytesUsed) :=
  inferInstanceAs (Decidable (_ ∨ _))

def IsQuotaExceeded (e : GoError) : Prop :=
  ∃ resource limit current adding, e = errQuotaExceeded resource limit current adding

theorem quotaError_isQuotaExceeded (q : Quota) (count : Int64) (bytesUsed adding : UInt64)
    (e : GoError) (h : quotaError q count bytesUsed adding = some e) : IsQuotaExceeded e := by
  unfold quotaError at h
  split_ifs at h
  · exact ⟨_,_,_,_,(Option.some.inj h).symm⟩
  · exact ⟨_,_,_,_,(Option.some.inj h).symm⟩

theorem quotaError_ne_none (q : Quota) (count : Int64) (bytesUsed adding : UInt64) :
    quotaError q count bytesUsed adding ≠ none ↔
      (0 < q.maxPins ∧ q.maxPins < count+1) ∨ (0 < q.maxBytes ∧ q.maxBytes < bytesUsed+adding) := by
  unfold quotaError
  split_ifs with hpins hbytes
  · simp [hpins]
  · simp [hbytes]
  · simp [hpins, hbytes]

section Reachability

def ContentBatch (ws : List (Write Bytes Bytes)) : Prop :=
  (∃ cid m segments count bytesUsed, ws = pinWrites cid m segments count bytesUsed) ∨
  ∃ cid m count bytesUsed, ws = unpinWrites cid m count bytesUsed

theorem code_commits (q : Quota) (op : Operation) : (code q op).Commits ContentBatch := by
  have hpin : ∀ cid m segments, (pin q cid m segments).Commits ContentBatch :=
    fun cid m segments => pin_commits _ q cid m segments
      (fun m₀ _ _ _ count bytesUsed => Or.inl ⟨cid,m₀,segments,count,bytesUsed,rfl⟩)
  cases op with
  | pin cid m segments => exact hpin cid m segments
  | pinPayloads payloads d =>
    refine commits_bind _ _ _ ?_ (fun _ => trivial)
    unfold pinPayloads
    split_ifs
    · trivial
    · split
      · trivial
      · exact commits_bind _ _ _ (hpin _ _ _) (fun _ => trivial)
  | unpin cid =>
    exact unpin_commits _ cid (fun m count bytesUsed => Or.inr ⟨cid,m,count,bytesUsed,rfl⟩)

/-- Every stored manifest parses and the counters can be read. -/
structure Readable (db : Database) : Prop where
  manifests : ∀ cid raw, db.get (manifestKey cid) = some raw → ∃ m, parseManifest raw = .ok m
  usage : ∃ count bytesUsed, usage.read db = .ok (count, bytesUsed)

theorem empty_readable : Readable Map.empty :=
  ⟨by simp,empty_tidy.usage.imp fun _ h => h.imp fun _ h => h.1⟩

theorem contentBatch_readable (db : Database) (ws : List (Write Bytes Bytes)) (h : Readable db)
    (hws : ContentBatch ws) : Readable (applyBatch db ws) := by
  have hothers : ∀ cid n, ws.map Write.key = contentKeys cid n → ∀ cid' raw, cid' ≠ cid →
      (applyBatch db ws).get (manifestKey cid') = some raw → ∃ m, parseManifest raw = .ok m := by
    intro cid n hkeys cid' raw hne hraw
    rw [(otherContent_kept db cid ws n hkeys cid' hne).1] at hraw
    exact h.manifests cid' raw hraw
  rcases hws with ⟨cid, m, segments, count, bytesUsed, rfl⟩ | ⟨cid, m, count, bytesUsed, rfl⟩
  · refine ⟨fun cid' raw hraw => ?_, count, bytesUsed, ?_⟩
    · by_cases hcid : cid' = cid
      · rw [hcid, (get_pinWrites db cid m segments count bytesUsed).1, Option.some.injEq] at hraw
        exact ⟨_,hraw ▸ parseManifest_print m⟩
      · exact hothers cid _ (pinWrites_keys cid m segments count bytesUsed) cid' raw hcid hraw
    · exact usage_applyBatch db _ count bytesUsed (pinWrites_nodup _ _ _ _ _)
        (fun w hw => List.mem_cons_of_mem _ (List.mem_append_right _ hw))
  · refine ⟨fun cid' raw hraw => ?_, count, bytesUsed, ?_⟩
    · have hgone : (applyBatch db (unpinWrites cid m count bytesUsed)).get (manifestKey cid) = none :=
        get_applyBatch db _ (unpinWrites_nodup cid m count bytesUsed) _ List.mem_cons_self
      have hcid : cid' ≠ cid := by
        rintro rfl
        rw [hgone] at hraw
        cases hraw
      exact hothers cid _ (unpinWrites_keys cid m count bytesUsed) cid' raw hcid hraw
    · exact usage_applyBatch db _ count bytesUsed (unpinWrites_nodup _ _ _ _)
        (fun w hw => List.mem_cons_of_mem _ (List.mem_append_right _ hw))

/-- Stores that some interleaving of calls leads to, each call under a quota of its own. -/
def Reachable (db : Database) : Prop :=
  ∃ events : List (Event GoError (Quota × Operation)),
    db = (run (next (fun t => code t.1 t.2)) ⟨Map.empty, []⟩ events).store

theorem reachable_readable (db : Database) (h : Reachable db) : Readable db := by
  obtain ⟨events, rfl⟩ := h
  exact run_landed (fun t : Quota × Operation => code t.1 t.2) (fun _ => ContentBatch) Readable
    (fun t => code_commits t.1 t.2) (fun _ ws m hws hm => contentBatch_readable m ws hm hws) _ events
    (by simp [Pending]) empty_readable

end Reachability

section Decision

def pinnedSize (db : Database) (cid : Bytes) : Option UInt64 :=
  ((getManifest cid >>= storedSize cid).read db).toOption

theorem pinnedSize_none (db : Database) (cid : Bytes) (h : db.get (manifestKey cid) = none) :
    pinnedSize db cid = none := by
  rw [pinnedSize, read_bind _ _ (getManifest_readOnly cid), read_getManifest_none db cid h]
  rfl

theorem pinnedSize_some (db : Database) (cid raw : Bytes) (existing : Manifest) (size : UInt64)
    (h : db.get (manifestKey cid) = some raw) (hparse : parseManifest raw = .ok existing)
    (hsize : (storedSize cid existing).read db = .ok size) : pinnedSize db cid = some size := by
  rw [pinnedSize, read_bind _ _ (getManifest_readOnly cid), read_getManifest_some db cid raw h, hparse]
  change ((storedSize cid existing).read db).toOption = some size
  rw [hsize]
  rfl

def countersAfter (pinned : Option UInt64) (count : Int64) (bytesUsed adding : UInt64) :
    Int64 × UInt64 :=
  match pinned with
  | none => (count+1, bytesUsed+adding)
  | some old => (count, bytesUsed-old+adding)

variable (q : Quota) (fault : Option GoError) (db : Database) (cid : Bytes) (m : Manifest)
  (segments : List Bytes)

/-- `Pin` on a store that can be read: refused by the check, or one batch. -/
theorem pin_decides (hdb : Readable db) (hshape : Shaped cid m segments) (count : Int64)
    (bytesUsed : UInt64) (husage : usage.read db = .ok (count, bytesUsed)) :
    (pin q cid (some m) segments).runAlone fault db =
      match quotaError q count bytesUsed (pinSize m segments) with
      | some e => (.error e, db)
      | none => (writeBatch (pinWrites cid m segments
          (countersAfter (pinnedSize db cid) count bytesUsed (pinSize m segments)).1
          (countersAfter (pinnedSize db cid) count bytesUsed (pinSize m segments)).2)).runAlone
            fault db := by
  rw [runAlone_pin q fault db cid m segments hshape, husage]
  dsimp only
  cases quotaError q count bytesUsed (pinSize m segments) with
  | some e => rfl
  | none =>
    dsimp only
    cases hget : db.get (manifestKey cid) with
    | none =>
      rw [read_getManifest_none db cid hget, pinnedSize_none db cid hget]
      rfl
    | some raw =>
      obtain ⟨existing, hparse⟩ := hdb.manifests cid raw hget
      have hsize := read_storedSize db cid existing
      rw [read_getManifest_some db cid raw hget, hparse,
        pinnedSize_some db cid raw existing _ hget hparse hsize]
      dsimp only
      rw [hsize]
      rfl

/-- What `Usage` says once the pin is stored, whatever the quota. -/
def usageAfter : Except GoError (Int64 × UInt64) :=
  usage.read ((pin ⟨0, 0⟩ cid (some m) segments).runAlone none db).2

theorem usageAfter_counters (hdb : Readable db) (hshape : Shaped cid m segments) (count : Int64)
    (bytesUsed : UInt64) (husage : usage.read db = .ok (count, bytesUsed)) :
    usageAfter db cid m segments =
      .ok (countersAfter (pinnedSize db cid) count bytesUsed (pinSize m segments)) := by
  rw [usageAfter, pin_decides ⟨0, 0⟩ none db cid m segments hdb hshape count bytesUsed husage]
  exact usage_applyBatch db _ _ _ (pinWrites_nodup _ _ _ _ _)
    (fun w hw => List.mem_cons_of_mem _ (List.mem_append_right _ hw))

def Refused : Prop :=
  ∃ e, ((pin q cid (some m) segments).runAlone fault db).1 = .error e ∧ IsQuotaExceeded e

/-- The decision is that of the usage it would lead to, and a refusal changes nothing. -/
structure QuotaDecided : Prop where
  decision : ∃ count bytesUsed, usageAfter db cid m segments = .ok (count, bytesUsed) ∧
    (Refused q fault db cid m segments ↔ q.ExceededBy count bytesUsed)
  unchanged : Refused q fault db cid m segments →
    ((pin q cid (some m) segments).runAlone fault db).2 = db

variable (hfault : ∀ e, fault = some e → ¬ IsQuotaExceeded e)

include hfault in
/-- A refusal is the check's, never the database's. -/
theorem refused_check (hdb : Readable db) (hshape : Shaped cid m segments) (count : Int64)
    (bytesUsed : UInt64) (husage : usage.read db = .ok (count, bytesUsed)) :
    Refused q fault db cid m segments ↔
      quotaError q count bytesUsed (pinSize m segments) ≠ none := by
  rw [Refused, pin_decides q fault db cid m segments hdb hshape count bytesUsed husage]
  cases hquota : quotaError q count bytesUsed (pinSize m segments) with
  | some e =>
    exact iff_of_true ⟨e,rfl,quotaError_isQuotaExceeded q count bytesUsed _ e hquota⟩
      (Option.some_ne_none e)
  | none =>
    refine iff_of_false ?_ (fun h => h rfl)
    rintro ⟨e, he, hexceeded⟩
    dsimp only at he
    rw [runAlone_writeBatch] at he
    cases fault with
    | none => cases he
    | some f =>
      cases he
      exact hfault e rfl hexceeded

include hfault in
theorem refused_unchanged (hdb : Readable db) (hshape : Shaped cid m segments)
    (h : Refused q fault db cid m segments) :
    ((pin q cid (some m) segments).runAlone fault db).2 = db := by
  obtain ⟨count, bytesUsed, husage⟩ := hdb.usage
  rw [refused_check q fault db cid m segments hfault hdb hshape count bytesUsed husage] at h
  obtain ⟨e, he⟩ := Option.ne_none_iff_exists'.mp h
  rw [pin_decides q fault db cid m segments hdb hshape count bytesUsed husage, he]

/-- The limits are kept with the old content still counted, which the counters
do include. No limit means no condition. -/
structure Quota.HasRoom (q : Quota) (count : Int64) (bytesUsed old adding : UInt64) : Prop where
  pins : q.maxPins = 0 ∨ count.toInt+1 ≤ q.maxPins.toInt
  bytes : q.maxBytes = 0 ∨
    (old ≤ bytesUsed ∧ bytesUsed.toNat+adding.toNat ≤ q.maxBytes.toNat)

/-- The CID is new and `MaxPins` is no negative number, or the quota has room for
the pin beside the content that it replaces. -/
def CountsOnce (adding : UInt64) : Prop :=
  ∀ count bytesUsed, usage.read db = .ok (count, bytesUsed) →
    match pinnedSize db cid with
    | none => 0 ≤ q.maxPins
    | some old => q.HasRoom count bytesUsed old adding

theorem fresh_exact (count : Int64) (bytesUsed adding : UInt64) (hpins : 0 ≤ q.maxPins) :
    quotaError q count bytesUsed adding ≠ none ↔ q.ExceededBy (count+1) (bytesUsed+adding) := by
  have hlimit : 0 < q.maxPins ↔ q.maxPins ≠ 0 :=
    ⟨fun h => (Int64.ne_of_lt h).symm,fun h => Int64.lt_of_le_of_ne hpins h.symm⟩
  rw [quotaError_ne_none, Quota.ExceededBy, hlimit, UInt64.pos_iff_ne_zero]

/-- Counters that leave room pass the check, and so do those without the old content. -/
theorem replaced_exact (count : Int64) (bytesUsed old adding : UInt64)
    (hroom : q.HasRoom count bytesUsed old adding) :
    quotaError q count bytesUsed adding ≠ none ↔
      q.ExceededBy count (bytesUsed-old+adding) := by
  rw [quotaError_ne_none, Quota.ExceededBy]
  have hcheckedPins : ¬ (0 < q.maxPins ∧ q.maxPins < count+1) := by
    rintro ⟨hpos, hlt⟩
    rw [Int64.lt_iff_toInt_lt] at hpos hlt
    have hzero : (0 : Int64).toInt = 0 := rfl
    rcases hroom.pins with hnone | hpins
    · rw [hnone] at hpos
      exact lt_irrefl _ hpos
    · have hmax := q.maxPins.toInt_lt
      have hmin := count.le_toInt
      rw [Int64.toInt_add, show (1 : Int64).toInt = 1 from rfl,
        Int.bmod_eq_of_le (by omega) (by omega)] at hlt
      omega
  have hcheckedBytes : ¬ (0 < q.maxBytes ∧ q.maxBytes < bytesUsed+adding) := by
    rintro ⟨hpos, hlt⟩
    rw [UInt64.lt_iff_toNat_lt] at hpos hlt
    rcases hroom.bytes with hnone | ⟨-, hbytes⟩
    · rw [hnone] at hpos
      exact lt_irrefl _ hpos
    · have hmax := q.maxBytes.toNat_lt
      rw [UInt64.toNat_add, Nat.mod_eq_of_lt (by omega)] at hlt
      omega
  have hpins : ¬ (q.maxPins ≠ 0 ∧ q.maxPins < count) := by
    rintro ⟨hne, hlt⟩
    rw [Int64.lt_iff_toInt_lt] at hlt
    have hpins := hroom.pins.resolve_left hne
    omega
  have hbytes : ¬ (q.maxBytes ≠ 0 ∧ q.maxBytes < bytesUsed-old+adding) := by
    rintro ⟨hne, hlt⟩
    obtain ⟨hcounted, hbytes⟩ := hroom.bytes.resolve_left hne
    have hmax := q.maxBytes.toNat_lt
    rw [UInt64.lt_iff_toNat_lt, UInt64.toNat_add, UInt64.toNat_sub_of_le _ _ hcounted,
      Nat.mod_eq_of_lt (by omega)] at hlt
    omega
  exact iff_of_false (not_or.mpr ⟨hcheckedPins,hcheckedBytes⟩) (not_or.mpr ⟨hpins,hbytes⟩)

include hfault in
/-- On every reachable store the decision is exact for a new CID, and for a stored one
where the quota has room for both. -/
theorem pin_quota_exact (hdb : Reachable db) (hshape : Shaped cid m segments)
    (hcounts : CountsOnce q db cid (pinSize m segments)) :
    QuotaDecided q fault db cid m segments := by
  have hreadable := reachable_readable db hdb
  obtain ⟨count, bytesUsed, husage⟩ := hreadable.usage
  have hrefused := refused_check q fault db cid m segments hfault hreadable hshape count bytesUsed
    husage
  have hafter := usageAfter_counters db cid m segments hreadable hshape count bytesUsed husage
  have hroom := hcounts count bytesUsed husage
  refine ⟨⟨_,_,hafter,?_⟩,refused_unchanged q fault db cid m segments hfault hreadable hshape⟩
  rw [hrefused]
  cases hpinned : pinnedSize db cid with
  | none =>
    rw [hpinned] at hroom
    exact fresh_exact q count bytesUsed _ hroom
  | some old =>
    rw [hpinned] at hroom
    exact replaced_exact q count bytesUsed old _ hroom

end Decision

section Samples

def pinnedEvents : List (Event GoError (Quota × Operation)) :=
  .start (⟨0, 1⟩, .pin (ascii "b") (some (sampleManifest 1)) [[7]])::List.replicate 4 (.step 0 none)

def pinnedStore : Database :=
  (run (next (fun t : Quota × Operation => code t.1 t.2)) ⟨Map.empty, []⟩ pinnedEvents).store

theorem pinnedStore_usage : usage.read pinnedStore = .ok (1, 87) := by decide +kernel

theorem sample_shaped : Shaped (ascii "b") (sampleManifest 1) [[7]] :=
  ⟨by decide,rfl,rfl⟩

/-- The same content again, under limits that have room for it twice. -/
theorem pin_quota_exact_room :
    QuotaDecided ⟨200, 2⟩ none pinnedStore (ascii "b") (sampleManifest 1) [[7]] := by
  have hreachable : Reachable pinnedStore := ⟨pinnedEvents,rfl⟩
  refine pin_quota_exact _ none _ _ _ _ (by simp) hreachable sample_shaped ?_
  intro count bytesUsed husage
  rw [pinnedStore_usage] at husage
  cases husage
  have hsize : pinnedSize pinnedStore (ascii "b") = some 87 := by decide +kernel
  have hadding : pinSize (sampleManifest 1) [[7]] = 87 := by decide +kernel
  rw [hsize, hadding]
  exact ⟨Or.inr (by decide),Or.inr (by decide)⟩

/-- The only pin a quota has room for cannot be repeated. -/
theorem repeated_pin_refused :
    Reachable pinnedStore ∧ Shaped (ascii "b") (sampleManifest 1) [[7]] ∧
      ¬ QuotaDecided ⟨0, 1⟩ none pinnedStore (ascii "b") (sampleManifest 1) [[7]] := by
  have hreachable : Reachable pinnedStore := ⟨pinnedEvents,rfl⟩
  refine ⟨hreachable, sample_shaped, ?_⟩
  rintro ⟨⟨count, bytesUsed, hafter, hiff⟩, -⟩
  have hrefused : Refused ⟨0, 1⟩ none pinnedStore (ascii "b") (sampleManifest 1) [[7]] := by
    rw [refused_check _ none _ _ _ _ (by simp) (reachable_readable _ hreachable) sample_shaped 1 87
      pinnedStore_usage]
    decide
  have hsame : usageAfter pinnedStore (ascii "b") (sampleManifest 1) [[7]] = .ok (1, 87) := by
    decide +kernel
  rw [hsame] at hafter
  cases hafter
  exact absurd (hiff.mp hrefused) (by decide)

end Samples

end Aevia.PinStore
