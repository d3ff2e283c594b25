import Aevia.Foundation.Landings
import Aevia.Provider.PinStore

/-!
# What the calls of the pin store do

The reads of a call on a given store, and the store a call leaves behind: the
old one, or the old one with the batch of the call, whose counters are computed
from what was read.
-/

set_option autoImplicit false

namespace Aevia.PinStore
open Aevia.Bytes Aevia.KeyValue Aevia.Manifests Aevia.Storage Aevia.StoreProgram
open Aevia.StoreProgram.Program

section ReadOnly

theorem readUint64_readOnly (key : Bytes) : (readUint64 key).ReadOnly := by
  refine readOnly_bind _ _ (readOnly_attempt _ (get_readOnly key)) (fun r => ?_)
  cases r with
  | ok raw => dsimp only; split <;> trivial
  | error e => dsimp only; split <;> trivial

theorem usage_readOnly : usage.ReadOnly :=
  readOnly_bind _ _ (readUint64_readOnly _) (fun _ =>
    readOnly_bind _ _ (readUint64_readOnly _) (fun _ => trivial))

theorem getManifest_readOnly (cid : Bytes) : (getManifest cid).ReadOnly := by
  refine readOnly_bind _ _ (get_readOnly _) (fun raw => ?_)
  split <;> trivial

theorem getSegment_readOnly (cid : Bytes) (index : ℤ) : (getSegment cid index).ReadOnly := by
  unfold getSegment
  split
  · trivial
  · exact get_readOnly _

theorem addSegmentSizes_readOnly (cid : Bytes) (is : List ℕ) (size : UInt64) :
    (addSegmentSizes cid is size).ReadOnly := by
  induction is generalizing size with
  | nil => trivial
  | cons i is ih =>
    refine readOnly_bind _ _ (readOnly_attempt _ (getSegment_readOnly cid i)) (fun r => ?_)
    cases r with
    | ok seg => exact ih _
    | error e => exact ih _

theorem storedSize_readOnly (cid : Bytes) (m : Manifest) : (storedSize cid m).ReadOnly :=
  addSegmentSizes_readOnly _ _ _

end ReadOnly

section Reads
variable (db : Database)

theorem read_readUint64_none (key : Bytes) (h : db.get key = none) :
    (readUint64 key).read db = .ok 0 := by
  rw [readUint64, read_bind _ _ (readOnly_attempt _ (get_readOnly key)), read_attempt, read_get, h]
  rfl

theorem read_readUint64_some (key : Bytes) (v : UInt64)
    (h : db.get key = some (bigEndian 8 v.toNat)) : (readUint64 key).read db = .ok v := by
  have hlt := v.toNat_lt
  have hv : UInt64.ofNat (ofBigEndian (bigEndian 8 v.toNat)) = v := by
    rw [ofBigEndian_bigEndian, Nat.mod_eq_of_lt (by omega), UInt64.ofNat_toNat]
  rw [readUint64, read_bind _ _ (readOnly_attempt _ (get_readOnly key)), read_attempt, read_get, h]
  change (if (bigEndian 8 v.toNat).length ≠ 8 then _ else _ : Call UInt64).read db = _
  rw [bigEndian_length, if_neg (by decide), hv]
  rfl

theorem read_usage (count bytesUsed : UInt64)
    (hcount : (readUint64 keyQuotaCount).read db = .ok count)
    (hbytes : (readUint64 keyQuotaBytes).read db = .ok bytesUsed) :
    usage.read db = .ok (count.toInt64, bytesUsed) := by
  rw [usage, read_bind _ _ (readUint64_readOnly _), hcount]
  change (readUint64 keyQuotaBytes >>= _).read db = _
  rw [read_bind _ _ (readUint64_readOnly _), hbytes]
  rfl

theorem read_getManifest_none (cid : Bytes) (h : db.get (manifestKey cid) = none) :
    (getManifest cid).read db = .error errNotFound := by
  rw [getManifest, read_bind _ _ (get_readOnly _), read_get, h]
  rfl

theorem read_getManifest_some (cid raw : Bytes) (h : db.get (manifestKey cid) = some raw) :
    (getManifest cid).read db = match parseManifest raw with
      | .ok m => .ok m
      | .error e => .error (.wrap "pinning: parse manifest: %w" [] e) := by
  rw [getManifest, read_bind _ _ (get_readOnly _), read_get, h]
  change (match parseManifest raw with | .ok m => pure m | .error e => _ : Call Manifest).read db = _
  cases parseManifest raw <;> rfl

theorem read_getSegment (cid : Bytes) (i : ℕ) :
    (getSegment cid i).read db = (Storage.get (segmentKey cid i)).read db := by
  rw [getSegment, if_neg (by omega)]
  rfl

def segmentBytes (cid : Bytes) (i : ℕ) : ℕ :=
  ((db.get (segmentKey cid i)).map List.length).getD 0

theorem read_addSegmentSizes (cid : Bytes) (is : List ℕ) (n : ℕ) :
    (addSegmentSizes cid is (UInt64.ofNat n)).read db =
      .ok (UInt64.ofNat (n+(is.map (segmentBytes db cid)).sum)) := by
  induction is generalizing n with
  | nil => simp [addSegmentSizes, Program.read, runAlone, pure]
  | cons i is ih =>
    rw [addSegmentSizes, read_bind _ _ (readOnly_attempt _ (getSegment_readOnly cid i)),
      read_attempt, read_getSegment, read_get]
    have hsum : n+((i::is).map (segmentBytes db cid)).sum =
        n+segmentBytes db cid i+(is.map (segmentBytes db cid)).sum := by
      rw [List.map_cons, List.sum_cons, Nat.add_assoc]
    rw [hsum]
    cases hget : db.get (segmentKey cid i) with
    | none =>
      have hzero : segmentBytes db cid i = 0 := by simp [segmentBytes, hget]
      rw [hzero]
      exact ih n
    | some seg =>
      have hlen : segmentBytes db cid i = seg.length := by simp [segmentBytes, hget]
      rw [hlen, ← ih, UInt64.ofNat_add]
      rfl

theorem read_storedSize (cid : Bytes) (m : Manifest) :
    (storedSize cid m).read db = .ok (UInt64.ofNat ((manifestJson m).print.length+
      ((segmentIndices m).map (segmentBytes db cid)).sum)) :=
  read_addSegmentSizes db cid _ _

end Reads

def contentBytes (m : Manifest) (segments : List Bytes) : ℕ :=
  (manifestJson m).print.length+(segments.map List.length).sum

theorem pinSize_eq (m : Manifest) (segments : List Bytes) :
    pinSize m segments = UInt64.ofNat (contentBytes m segments) := by
  have hfold : ∀ (segs : List Bytes) (n : ℕ),
      segs.foldl (fun n seg => n+UInt64.ofNat seg.length) (UInt64.ofNat n) =
        UInt64.ofNat (n+(segs.map List.length).sum) := by
    intro segs
    induction segs with
    | nil => simp
    | cons seg segs ih =>
      intro n
      rw [List.foldl_cons, ← UInt64.ofNat_add, ih, List.map_cons, List.sum_cons, Nat.add_assoc]
  exact hfold segments _

structure Accepted (q : Quota) (db : Database) (cid : Bytes) (m : Manifest)
    (segments : List Bytes) : Prop where
  cid_ne : cid ≠ []
  cid_eq : m.cid = cid
  count : m.segmentCount.toInt = segments.length
  quota : ∀ c b, usage.read db = .ok (c, b) → quotaError q c b (pinSize m segments) = none

structure Shaped (cid : Bytes) (m : Manifest) (segments : List Bytes) : Prop where
  cid_ne : cid ≠ []
  cid_eq : m.cid = cid
  count : m.segmentCount.toInt = segments.length

theorem pin_misshapen (q : Quota) (fault : Option GoError) (db : Database) (cid : Bytes)
    (m : Option Manifest) (segments : List Bytes)
    (h : ∀ m₀, m = some m₀ → ¬ Shaped cid m₀ segments) :
    ((pin q cid m segments).runAlone fault db).2 = db := by
  unfold pin
  split_ifs with hcid
  · rfl
  cases m with
  | none => rfl
  | some m =>
    dsimp only
    split_ifs with hmcid hcount
    · rfl
    · rfl
    · exact absurd ⟨hcid,not_not.mp hmcid,not_not.mp hcount⟩ (h m rfl)

/-- Past the checks of its arguments, what `Pin` reads decides between an error and
one batch. -/
theorem runAlone_pin (q : Quota) (fault : Option GoError) (db : Database) (cid : Bytes)
    (m : Manifest) (segments : List Bytes) (hshape : Shaped cid m segments) :
    (pin q cid (some m) segments).runAlone fault db =
      match usage.read db with
      | .error e => (.error e, db)
      | .ok (count, bytesUsed) =>
        match quotaError q count bytesUsed (pinSize m segments) with
        | some e => (.error e, db)
        | none => match (getManifest cid).read db with
          | .error e =>
            if e.is errNotFound then
              (writeBatch (pinWrites cid m segments (count+1)
                (bytesUsed+pinSize m segments))).runAlone fault db
            else (.error e, db)
          | .ok existing => match (storedSize cid existing).read db with
            | .error e => (.error e, db)
            | .ok size => (writeBatch (pinWrites cid m segments count
                (bytesUsed-size+pinSize m segments))).runAlone fault db := by
  unfold pin
  rw [if_neg hshape.cid_ne]
  dsimp only
  rw [if_neg (not_not.mpr hshape.cid_eq), if_neg (not_not.mpr hshape.count),
    runAlone_read_bind fault _ _ usage_readOnly]
  cases usage.read db with
  | error e => rfl
  | ok p =>
    dsimp only
    cases quotaError q p.1 p.2 (pinSize m segments) with
    | some e => rfl
    | none =>
      dsimp only
      rw [runAlone_read_bind fault _ _ (readOnly_attempt _ (getManifest_readOnly cid)),
        read_attempt]
      dsimp only
      cases (getManifest cid).read db with
      | error e =>
        dsimp only
        split_ifs <;> rfl
      | ok existing =>
        dsimp only
        rw [runAlone_read_bind fault _ _ (storedSize_readOnly cid existing)]
        cases (storedSize cid existing).read db <;> rfl

/-- The store after `Pin`: as it was, or with the batch of a new pin, or with
the batch that replaces a stored manifest. -/
theorem pin_effect (q : Quota) (fault : Option GoError) (db : Database) (cid : Bytes)
    (m : Option Manifest) (segments : List Bytes) :
    ((pin q cid m segments).runAlone fault db).2 = db ∨
    ∃ m₀ count bytesUsed, m = some m₀ ∧ fault = none ∧ Accepted q db cid m₀ segments ∧
      usage.read db = .ok (count, bytesUsed) ∧
      ((db.get (manifestKey cid) = none ∧
          ((pin q cid m segments).runAlone fault db).2 = applyBatch db (pinWrites cid m₀ segments
            (count+1) (bytesUsed+pinSize m₀ segments))) ∨
        ∃ raw existing size, db.get (manifestKey cid) = some raw ∧
          parseManifest raw = .ok existing ∧ (storedSize cid existing).read db = .ok size ∧
          ((pin q cid m segments).runAlone fault db).2 = applyBatch db (pinWrites cid m₀ segments
            count (bytesUsed-size+pinSize m₀ segments))) := by
  by_cases hshape : ∃ m₀, m = some m₀ ∧ Shaped cid m₀ segments
  case neg =>
    exact Or.inl (pin_misshapen q fault db cid m segments
      (fun m₀ hm₀ hshaped => hshape ⟨m₀,hm₀,hshaped⟩))
  obtain ⟨m, rfl, hshaped⟩ := hshape
  rw [runAlone_pin q fault db cid m segments hshaped]
  cases husage : usage.read db with
  | error e => exact Or.inl rfl
  | ok p =>
    obtain ⟨count, bytesUsed⟩ := p
    dsimp only
    cases hquota : quotaError q count bytesUsed (pinSize m segments) with
    | some e => exact Or.inl rfl
    | none =>
      dsimp only
      have haccepted : Accepted q db cid m segments :=
        ⟨hshaped.cid_ne,hshaped.cid_eq,hshaped.count,by
          intro c b hcb
          rw [husage] at hcb
          cases hcb
          exact hquota⟩
      cases hget : db.get (manifestKey cid) with
      | none =>
        rw [read_getManifest_none db cid hget]
        dsimp only
        rw [if_pos (by decide), runAlone_writeBatch]
        cases fault with
        | some e => exact Or.inl rfl
        | none => exact Or.inr ⟨m,count,bytesUsed,rfl,rfl,haccepted,rfl,Or.inl ⟨rfl,rfl⟩⟩
      | some raw =>
        rw [read_getManifest_some db cid raw hget]
        cases hparse : parseManifest raw with
        | error e =>
          dsimp only
          have hother : (GoError.wrap "pinning: parse manifest: %w" [] e).is errNotFound =
              false := by
            rcases parseManifest_error raw e hparse with rfl | rfl <;> rfl
          rw [if_neg (by rw [hother]; decide)]
          exact Or.inl rfl
        | ok existing =>
          dsimp only
          have hsize := read_storedSize db cid existing
          rw [hsize]
          dsimp only
          rw [runAlone_writeBatch]
          cases fault with
          | some e => exact Or.inl rfl
          | none =>
            exact Or.inr ⟨m,count,bytesUsed,rfl,rfl,haccepted,rfl,
              Or.inr ⟨raw,existing,_,rfl,hparse,hsize,rfl⟩⟩

theorem runAlone_bind_store {α β : Type} (fault : Option GoError) (p : Call α) (f : α → Call β)
    (hf : ∀ a, ∃ r, f a = .done r) (db : Database) :
    ((p >>= f).runAlone fault db).2 = (p.runAlone fault db).2 := by
  rw [runAlone_bind]
  obtain ⟨r, db'⟩ := p.runAlone fault db
  cases r with
  | ok a =>
    obtain ⟨r, hr⟩ := hf a
    simp only [hr, runAlone]
  | error e => rfl

theorem perform_built (q : Quota) (fault : Option GoError) (db : Database)
    (payloads : List Bytes) (d : Int64) (m : Manifest) (hne : payloads.length ≠ 0)
    (hbuild : buildFromPayloads payloads d = .ok m) :
    perform q db (.pinPayloads payloads d, fault) =
      perform q db (.pin m.cid (some m) payloads, fault) := by
  have hstore : perform q db (.pinPayloads payloads d, fault) =
      ((pinPayloads q payloads d).runAlone fault db).2 :=
    runAlone_bind_store fault _ _ (fun _ => ⟨_,rfl⟩) db
  rw [hstore, pinPayloads, if_neg hne, hbuild]
  exact runAlone_bind_store fault _ _ (fun _ => ⟨_,rfl⟩) db

/-- `PinPayloads` leaves the store alone or acts as the pin of what it has built. -/
theorem perform_pinPayloads (q : Quota) (fault : Option GoError) (db : Database)
    (payloads : List Bytes) (d : Int64) :
    perform q db (.pinPayloads payloads d, fault) = db ∨
    ∃ m, buildFromPayloads payloads d = .ok m ∧
      perform q db (.pinPayloads payloads d, fault) =
        perform q db (.pin m.cid (some m) payloads, fault) := by
  have hstore : perform q db (.pinPayloads payloads d, fault) =
      ((pinPayloads q payloads d).runAlone fault db).2 :=
    runAlone_bind_store fault _ _ (fun _ => ⟨_,rfl⟩) db
  by_cases hne : payloads.length = 0
  · rw [hstore, pinPayloads, if_pos hne]
    exact Or.inl rfl
  · cases hbuild : buildFromPayloads payloads d with
    | error e =>
      rw [hstore, pinPayloads, if_neg hne, hbuild]
      exact Or.inl rfl
    | ok m => exact Or.inr ⟨m,rfl,perform_built q fault db payloads d m hne hbuild⟩

/-- The store after `Unpin`: as it was, or with the batch that removes what the
stored manifest names. -/
theorem unpin_effect (fault : Option GoError) (db : Database) (cid : Bytes) :
    ((unpin cid).runAlone fault db).2 = db ∨
    ∃ raw m size count bytesUsed, db.get (manifestKey cid) = some raw ∧
      parseManifest raw = .ok m ∧ (storedSize cid m).read db = .ok size ∧
      usage.read db = .ok (count, bytesUsed) ∧ fault = none ∧
      ((unpin cid).runAlone fault db).2 = applyBatch db (unpinWrites cid m
        (if count-1 < 0 then 0 else count-1) (if size < bytesUsed then bytesUsed-size else 0)) := by
  unfold unpin
  rw [runAlone_read_bind fault _ _ (readOnly_attempt _ (getManifest_readOnly cid)), read_attempt]
  dsimp only
  cases hget : db.get (manifestKey cid) with
  | none =>
    rw [read_getManifest_none db cid hget]
    exact Or.inl rfl
  | some raw =>
    rw [read_getManifest_some db cid raw hget]
    cases hparse : parseManifest raw with
    | error e =>
      dsimp only
      split_ifs <;> exact Or.inl rfl
    | ok m =>
      dsimp only
      have hsize := read_storedSize db cid m
      rw [runAlone_read_bind fault _ _ (storedSize_readOnly cid m), hsize]
      dsimp only
      rw [runAlone_read_bind fault _ _ usage_readOnly]
      cases husage : usage.read db with
      | error e => exact Or.inl rfl
      | ok p =>
        obtain ⟨count, bytesUsed⟩ := p
        dsimp only
        rw [runAlone_writeBatch]
        cases fault with
        | some e => exact Or.inl rfl
        | none => exact Or.inr ⟨raw,m,_,count,bytesUsed,rfl,hparse,hsize,rfl,rfl,rfl⟩

section SingleCommit

theorem singleCommit_then {α β : Type} (p : Call α) (f : α → Call β) (hp : p.SingleCommit)
    (hf : ∀ a, ∃ r, f a = .done r) : (p >>= f).SingleCommit := by
  induction p with
  | done r =>
    cases r with
    | ok a =>
      obtain ⟨r, hr⟩ := hf a
      change (f a).SingleCommit
      rw [hr]
      trivial
    | error e => trivial
  | get k next ih => exact fun v => ih v (hp v)
  | commit ws next ih =>
    intro e
    obtain ⟨r, hr⟩ := hp e
    change ∃ r, (next e).bind f = .done r
    rw [hr]
    cases r with
    | ok a => exact hf a
    | error e => exact ⟨_,rfl⟩

theorem pin_singleCommit (q : Quota) (cid : Bytes) (m : Option Manifest) (segments : List Bytes) :
    (pin q cid m segments).SingleCommit := by
  unfold pin
  split_ifs
  · trivial
  cases m with
  | none => trivial
  | some m =>
    dsimp only
    split_ifs
    · trivial
    · trivial
    refine singleCommit_bind _ _ usage_readOnly (fun p => ?_)
    split
    · trivial
    refine singleCommit_bind _ _ (readOnly_attempt _ (getManifest_readOnly cid)) (fun r => ?_)
    cases r with
    | error e =>
      dsimp only
      split_ifs
      · exact writeBatch_singleCommit _
      · trivial
    | ok existing =>
      exact singleCommit_bind _ _ (storedSize_readOnly cid existing)
        (fun size => writeBatch_singleCommit _)

theorem unpin_singleCommit (cid : Bytes) : (unpin cid).SingleCommit := by
  refine singleCommit_bind _ _ (readOnly_attempt _ (getManifest_readOnly cid)) (fun r => ?_)
  cases r with
  | error e =>
    dsimp only
    split_ifs <;> trivial
  | ok m =>
    refine singleCommit_bind _ _ (storedSize_readOnly cid m) (fun size => ?_)
    exact singleCommit_bind _ _ usage_readOnly (fun p => writeBatch_singleCommit _)

theorem code_singleCommit (q : Quota) (op : Operation) : (code q op).SingleCommit := by
  cases op with
  | pin cid m segments => exact pin_singleCommit q cid m segments
  | pinPayloads payloads d =>
    refine singleCommit_then _ _ ?_ (fun _ => ⟨_,rfl⟩)
    unfold pinPayloads
    split_ifs
    · trivial
    · split
      · trivial
      · exact singleCommit_then _ _ (pin_singleCommit q _ _ _) (fun _ => ⟨_,rfl⟩)
  | unpin cid => exact unpin_singleCommit cid

end SingleCommit

section Commits
variable (P : List (Write Bytes Bytes) → Prop)

theorem writeBatch_commits (ws : List (Write Bytes Bytes)) (h : P ws) :
    (writeBatch ws).Commits P := by
  refine ⟨h, ?_⟩
  intro e
  cases e <;> trivial

theorem pin_commits (q : Quota) (cid : Bytes) (m : Option Manifest) (segments : List Bytes)
    (h : ∀ m₀, m = some m₀ → m₀.cid = cid → m₀.segmentCount.toInt = segments.length →
      ∀ count bytesUsed, P (pinWrites cid m₀ segments count bytesUsed)) :
    (pin q cid m segments).Commits P := by
  unfold pin
  split_ifs with hcid
  · trivial
  cases m with
  | none => trivial
  | some m =>
    dsimp only
    split_ifs with hmcid hcount
    · trivial
    · trivial
    have hwrites := h m rfl (not_not.mp hmcid) (not_not.mp hcount)
    apply commits_bind _ _ _ (commits_readOnly _ _ usage_readOnly)
    rintro ⟨currentCount, currentBytes⟩
    dsimp only
    split
    · trivial
    · apply commits_bind _ _ _ (commits_readOnly _ _ (readOnly_attempt _ (getManifest_readOnly cid)))
      intro existing
      cases existing with
      | error e =>
        dsimp only
        split_ifs
        · exact writeBatch_commits P _ (hwrites _ _)
        · trivial
      | ok existing =>
        apply commits_bind _ _ _ (commits_readOnly _ _ (storedSize_readOnly cid existing))
        intro size
        exact writeBatch_commits P _ (hwrites _ _)

theorem unpin_commits (cid : Bytes) (h : ∀ m count bytesUsed, P (unpinWrites cid m count bytesUsed)) :
    (unpin cid).Commits P := by
  apply commits_bind _ _ _ (commits_readOnly _ _ (readOnly_attempt _ (getManifest_readOnly cid)))
  intro r
  cases r with
  | error e =>
    dsimp only
    split_ifs <;> trivial
  | ok m =>
    apply commits_bind _ _ _ (commits_readOnly _ _ (storedSize_readOnly cid m))
    intro released
    apply commits_bind _ _ _ (commits_readOnly _ _ usage_readOnly)
    rintro ⟨currentCount, currentBytes⟩
    exact writeBatch_commits P _ (h m _ _)

end Commits

end Aevia.PinStore
