import Aevia.Provider.PinInvariant

/-!
# Runs of the pin store

One call after the other. The store stays consistent as long as a pin that
replaces a manifest names at least as many segments, stored manifests encode
again to the length they have, and the counters do not overflow. Two lists of
payloads may have one CID, so a shorter list can replace a longer one.
-/

set_option autoImplicit false

namespace Aevia.PinStore
open Aevia.Bytes Aevia.KeyValue Aevia.Manifests Aevia.Storage Aevia.StoreProgram
open Aevia.StoreProgram.Program Aevia.Run

def replacedBytes (db : Database) (cid : Bytes) (n : ℕ) : ℕ :=
  manifestBytes db cid+((List.range n).map (segmentBytes db cid)).sum

/-- The stored manifest, read and encoded again, is as long as it was. -/
def Reencodes (db : Database) (cid : Bytes) : Prop :=
  ∀ raw m, db.get (manifestKey cid) = some raw → parseManifest raw = .ok m →
    (manifestJson m).print.length = raw.length

/-- What a pin must find in the store. -/
structure Fits (db : Database) (cid : Bytes) (m : Manifest) (segments : List Bytes) : Prop where
  covers : ∀ existing, (getManifest cid).read db = .ok existing →
    existing.segmentCount ≤ m.segmentCount
  reencodes : Reencodes db cid
  count : db.get (manifestKey cid) = none → storedManifests db+1 < 2^63
  bytes : storedBytes db+contentBytes m segments < 2^64+replacedBytes db cid segments.length

/-- A pin that is accepted fits, an unpin finds what it can measure. -/
def Meets (q : Quota) (db : Database) : Operation → Prop
  | .pin cid m segments => ∀ m₀, m = some m₀ → Accepted q db cid m₀ segments →
      Fits db cid m₀ segments
  | .pinPayloads payloads d => ∀ m, buildFromPayloads payloads d = .ok m →
      Accepted q db m.cid m payloads → Fits db m.cid m payloads
  | .unpin cid => Reencodes db cid

theorem reencodes_of_sanitized (db : Database) (cid : Bytes) (m : Manifest)
    (hraw : db.get (manifestKey cid) = some (manifestJson m).print) (hm : m.sanitized = m) :
    Reencodes db cid := by
  intro raw m' hraw' hparse
  rw [hraw] at hraw'
  cases hraw'
  rw [parseManifest_print, hm] at hparse
  cases hparse
  rfl

theorem covers_of_sanitized (db : Database) (cid : Bytes) (stored m : Manifest)
    (hraw : db.get (manifestKey cid) = some (manifestJson stored).print)
    (hm : stored.segmentCount ≤ m.segmentCount) :
    ∀ existing, (getManifest cid).read db = .ok existing →
      existing.segmentCount ≤ m.segmentCount := by
  intro existing hread
  rw [read_getManifest_some db cid _ hraw, parseManifest_print] at hread
  cases hread
  exact hm

section Steps
variable (db : Database) (cid : Bytes)

theorem noManifest_noSegment (h : Tidy db) (hnone : db.get (manifestKey cid) = none) (i : ℕ) :
    db.get (segmentKey cid i) = none := by
  cases hi : db.get (segmentKey cid i) with
  | none => rfl
  | some seg =>
    obtain ⟨cid', i', hkey, hmanifest⟩ := h.noOrphan _ (isSegmentKey_segmentKey cid i) (by rw [hi]; rfl)
    obtain ⟨rfl, -⟩ := segmentKey_inj _ _ _ _ hkey
    rw [hnone] at hmanifest
    cases hmanifest

theorem replacedBytes_none (h : Tidy db) (hnone : db.get (manifestKey cid) = none) (n : ℕ) :
    replacedBytes db cid n = 0 := by
  have hsegments : (List.range n).map (segmentBytes db cid) = (List.range n).map (fun _ => 0) :=
    List.map_congr_left (fun i _ => by simp [segmentBytes, noManifest_noSegment db cid h hnone i])
  rw [replacedBytes, hsegments, manifestBytes, hnone]
  simp

theorem replacedBytes_of_le (n k : ℕ) (hk : n ≤ k)
    (habsent : ∀ i, n ≤ i → db.get (segmentKey cid i) = none) :
    replacedBytes db cid k = replacedBytes db cid n := by
  obtain ⟨d, rfl⟩ := Nat.exists_eq_add_of_le hk
  have hrest : (List.range d).map (fun i => segmentBytes db cid (n+i)) =
      (List.range d).map (fun _ => 0) :=
    List.map_congr_left (fun i _ => by simp [segmentBytes, habsent (n+i) (by omega)])
  rw [replacedBytes, List.range_add, List.map_append, List.map_map, List.sum_append]
  change manifestBytes db cid+(_+((List.range d).map (fun i => segmentBytes db cid (n+i))).sum) = _
  rw [hrest, replacedBytes]
  simp

theorem storedSize_exact (h : Tidy db) (raw : Bytes) (m : Manifest) (size : UInt64)
    (hraw : db.get (manifestKey cid) = some raw) (hparse : parseManifest raw = .ok m)
    (hreencodes : Reencodes db cid) (hsize : (storedSize cid m).read db = .ok size) :
    (∀ i : ℕ, (db.get (segmentKey cid i)).isSome ↔ i < m.segmentCount.toInt.toNat) ∧
      size = UInt64.ofNat (replacedBytes db cid m.segmentCount.toInt.toNat) := by
  obtain ⟨m', hm', -, hsegments⟩ := tidy_getManifest db h cid raw hraw
  rw [hparse] at hm'
  cases hm'
  have hlength : manifestBytes db cid = (manifestJson m).print.length := by
    rw [manifestBytes, hraw, hreencodes raw m hraw hparse]
    rfl
  rw [read_storedSize] at hsize
  refine ⟨hsegments, ?_⟩
  rw [replacedBytes, hlength]
  exact (Except.ok.inj hsize).symm

theorem tidy_counters (h : Tidy db) (count : Int64) (bytesUsed : UInt64)
    (husage : usage.read db = .ok (count, bytesUsed)) :
    count.toInt = storedManifests db ∧ bytesUsed.toNat = storedBytes db := by
  obtain ⟨c, b, hread, hc, hb⟩ := h.usage
  rw [husage] at hread
  cases hread
  exact ⟨hc,hb⟩

/-- Arithmetic of the byte counter: what is subtracted and added modulo `2^64`
is what the store gains. -/
theorem counter_replace (bytesUsed : UInt64) (stored old new result : ℕ)
    (hbytes : bytesUsed.toNat = stored) (hresult : result+old = stored+new)
    (hlt : result < 2^64) :
    (bytesUsed-UInt64.ofNat old+UInt64.ofNat new).toNat = result := by
  have hused : bytesUsed = UInt64.ofNat stored := by rw [← hbytes, UInt64.ofNat_toNat]
  have hsum : UInt64.ofNat result+UInt64.ofNat old = UInt64.ofNat stored+UInt64.ofNat new := by
    rw [← UInt64.ofNat_add, ← UInt64.ofNat_add, hresult]
  have hvalue : bytesUsed-UInt64.ofNat old+UInt64.ofNat new = UInt64.ofNat result := by
    rw [hused]
    grind
  rw [hvalue, UInt64.toNat_ofNat_of_lt' hlt]

/-- The saturating subtraction never saturates early. -/
theorem counter_release (bytesUsed : UInt64) (stored old result : ℕ)
    (hbytes : bytesUsed.toNat = stored) (hresult : result+old = stored) :
    (if UInt64.ofNat old < bytesUsed then bytesUsed-UInt64.ofNat old else 0).toNat = result := by
  have hlt := bytesUsed.toNat_lt
  have hold : (UInt64.ofNat old).toNat = old :=
    UInt64.toNat_ofNat_of_lt' (show old < 2^64 by omega)
  split_ifs with hless
  · rw [UInt64.toNat_sub_of_le _ _ (by rw [UInt64.le_iff_toNat_le]; omega), hold]
    omega
  · rw [UInt64.lt_iff_toNat_lt, hold] at hless
    rw [UInt64.toNat_zero]
    omega

theorem int64_add_one (count : Int64) (n : ℕ) (hcount : count.toInt = n) (hlt : n+1 < 2^63) :
    (count+1).toInt = (n+1 : ℕ) := by
  have h := Int64.toInt_add count 1
  rw [hcount] at h
  rw [h]
  change Int.bmod (n+1) (2^64) = _
  rw [Int.bmod_eq_of_le] <;> omega

theorem count_release (count : Int64) (hcount : 1 ≤ count.toInt) :
    (if count-1 < 0 then 0 else count-1).toInt = count.toInt-1 := by
  have hsub : (count-1).toInt = count.toInt-1 :=
    Int64.toInt_sub_of_le count 1 (by decide) (Int64.le_iff_toInt_le.mpr hcount)
  have hneg : ¬ count-1 < 0 := by
    rw [Int64.lt_iff_toInt_lt, hsub]
    change ¬ count.toInt-1 < 0
    omega
  rw [if_neg hneg, hsub]

theorem newPin_tidy (h : Tidy db) (m : Manifest) (segments : List Bytes) (count : Int64)
    (bytesUsed : UInt64) (hm : m.segmentCount.toInt = segments.length) (hfit : Fits db cid m segments)
    (husage : usage.read db = .ok (count, bytesUsed)) (hnone : db.get (manifestKey cid) = none) :
    Tidy (applyBatch db (pinWrites cid m segments (count+1) (bytesUsed+pinSize m segments))) := by
  obtain ⟨hcount, hbytes⟩ := tidy_counters db h count bytesUsed husage
  have hmanifests := storedManifests_pinWrites db cid m segments (count+1)
    (bytesUsed+pinSize m segments)
  have hstored := storedBytes_pinWrites db cid m segments (count+1)
    (bytesUsed+pinSize m segments)
  change _+replacedBytes db cid _ = _ at hstored
  have hzero := replacedBytes_none db cid h hnone segments.length
  have hbound := hfit.bytes
  rw [hnone] at hmanifests
  simp only [Option.isSome_none, Bool.false_eq_true, if_false, Nat.add_zero] at hmanifests
  refine pinWrites_tidy db cid h m segments _ _ hm (fun i hi => ?_) ?_ ?_
  · rw [noManifest_noSegment db cid h hnone i] at hi
    cases hi
  · rw [hmanifests]
    exact int64_add_one count _ hcount (hfit.count hnone)
  · have hreplace := counter_replace bytesUsed _ 0 _ _ hbytes (hzero ▸ hstored) (by omega)
    rw [← pinSize_eq] at hreplace
    simpa using hreplace

theorem replacePin_tidy (h : Tidy db) (m : Manifest) (segments : List Bytes)
    (count : Int64) (bytesUsed : UInt64) (hm : m.segmentCount.toInt = segments.length)
    (hfit : Fits db cid m segments) (husage : usage.read db = .ok (count, bytesUsed)) (raw : Bytes)
    (existing : Manifest) (size : UInt64) (hraw : db.get (manifestKey cid) = some raw)
    (hparse : parseManifest raw = .ok existing)
    (hsize : (storedSize cid existing).read db = .ok size) :
    Tidy (applyBatch db (pinWrites cid m segments count
      (bytesUsed-size+pinSize m segments))) := by
  obtain ⟨hcount, hbytes⟩ := tidy_counters db h count bytesUsed husage
  have hmanifests := storedManifests_pinWrites db cid m segments count
    (bytesUsed-size+pinSize m segments)
  have hstored := storedBytes_pinWrites db cid m segments count
    (bytesUsed-size+pinSize m segments)
  change _+replacedBytes db cid _ = _ at hstored
  have hbound := hfit.bytes
  rw [hraw] at hmanifests
  simp only [Option.isSome_some, if_true] at hmanifests
  obtain ⟨hexact, hsize⟩ := storedSize_exact db cid h raw existing size hraw hparse
    hfit.reencodes hsize
  have hread := read_getManifest_some db cid raw hraw
  rw [hparse] at hread
  have hcover := hfit.covers existing hread
  rw [Int64.le_iff_toInt_le] at hcover
  have hold := replacedBytes_of_le db cid existing.segmentCount.toInt.toNat segments.length
    (by omega) (fun i hi => by
      rw [← Option.not_isSome_iff_eq_none, hexact i]
      omega)
  refine pinWrites_tidy db cid h m segments _ _ hm (fun i hi => ?_) ?_ ?_
  · have hi := (hexact i).mp hi
    omega
  · rw [hcount]
    omega
  · rw [hsize, ← hold, pinSize_eq]
    rw [hsize, ← hold, pinSize_eq] at hstored
    exact counter_replace bytesUsed _ _ _ _ hbytes hstored (by omega)

theorem pin_tidy (q : Quota) (fault : Option GoError) (m : Option Manifest)
    (segments : List Bytes) (h : Tidy db)
    (hfits : fault = none → ∀ m₀, m = some m₀ → Accepted q db cid m₀ segments →
      Fits db cid m₀ segments) :
    Tidy ((pin q cid m segments).runAlone fault db).2 := by
  rcases pin_effect q fault db cid m segments with hsame | ⟨m, count, bytesUsed, rfl, rfl,
    haccepted, husage, heffect⟩
  · rw [hsame]
    exact h
  have hfit := hfits rfl m rfl haccepted
  rcases heffect with ⟨hnone, heffect⟩ | ⟨raw, existing, size, hraw, hparse, hsize, heffect⟩
  · rw [heffect]
    exact newPin_tidy db cid h m segments count bytesUsed haccepted.count hfit husage hnone
  · rw [heffect]
    exact replacePin_tidy db cid h m segments count bytesUsed haccepted.count hfit husage raw
      existing size hraw hparse hsize

theorem unpin_tidy (fault : Option GoError) (h : Tidy db)
    (hreencodes : fault = none → Reencodes db cid) :
    Tidy ((unpin cid).runAlone fault db).2 := by
  rcases unpin_effect fault db cid with hsame | ⟨raw, m, size, count, bytesUsed, hraw, hparse, hsize,
    husage, rfl, heffect⟩
  · rw [hsame]
    exact h
  rw [heffect]
  obtain ⟨hcount, hbytes⟩ := tidy_counters db h count bytesUsed husage
  obtain ⟨hexact, hsize⟩ := storedSize_exact db cid h raw m size hraw hparse (hreencodes rfl) hsize
  have hmanifests := storedManifests_unpinWrites db cid m
    (if count-1 < 0 then 0 else count-1) (if size < bytesUsed then bytesUsed-size else 0)
  have hstored := storedBytes_unpinWrites db cid m
    (if count-1 < 0 then 0 else count-1) (if size < bytesUsed then bytesUsed-size else 0)
  change _+replacedBytes db cid _ = _ at hstored
  rw [hraw] at hmanifests
  simp only [Option.isSome_some, if_true] at hmanifests
  refine unpinWrites_tidy db cid h m _ _ (fun i hi => (hexact i).mp hi) ?_ ?_
  · rw [count_release count (by omega)]
    omega
  · rw [hsize] at hstored ⊢
    exact counter_release bytesUsed _ _ _ hbytes hstored

theorem perform_tidy (q : Quota) (e : Operation × Option GoError) (h : Tidy db)
    (he : e.2 = none → Meets q db e.1) : Tidy (perform q db e) := by
  obtain ⟨op, fault⟩ := e
  cases op with
  | pin cid m segments => exact pin_tidy db cid q fault m segments h he
  | unpin cid => exact unpin_tidy db cid fault h he
  | pinPayloads payloads d =>
    rcases perform_pinPayloads q fault db payloads d with hsame | ⟨m, hbuild, heffect⟩
    · rw [hsame]
      exact h
    · rw [heffect]
      refine pin_tidy db m.cid q fault (some m) payloads h (fun hfault m₀ hm₀ haccepted => ?_)
      cases hm₀
      exact he hfault m hbuild haccepted

end Steps

/-- Every run of calls whose batches meet the store in the right shape. -/
theorem pin_run_consistent (q : Quota) (es : List (Operation × Option GoError))
    (h : Along (perform q) (fun db e => e.2 = none → Meets q db e.1) Map.empty es) :
    Consistent (run (perform q) Map.empty es) :=
  tidy_consistent _ (along_invariant (perform q) _ Tidy
    (fun db e hdb he => perform_tidy db q e hdb he) Map.empty es empty_tidy h)

section Samples

def sampleManifest (segmentCount : Int64) : Manifest := ⟨1, ascii "b", [], segmentCount, 6, none⟩

def growingRun : List (Operation × Option GoError) := [
  (.pin (ascii "b") (some (sampleManifest 1)) [[7]], none),
  (.pin (ascii "b") (some (sampleManifest 2)) [[7], [8]], none),
  (.unpin (ascii "b"), none)]

theorem pin_run_consistent_growing :
    Consistent (run (perform ⟨1000, 2⟩) Map.empty growingRun) := by
  have hplain : ∀ n, (sampleManifest n).sanitized = sampleManifest n := fun _ => rfl
  refine pin_run_consistent _ _ ⟨fun _ => ?_, fun _ => ?_, fun _ => ?_, trivial⟩
  · intro m₀ hm₀ _
    cases hm₀
    refine ⟨fun existing h => ?_, fun raw m h => ?_, fun _ => by decide, by decide +kernel⟩
    · cases h
    · cases h
  · intro m₀ hm₀ _
    cases hm₀
    have hraw : (perform ⟨1000, 2⟩ Map.empty (.pin (ascii "b") (some (sampleManifest 1)) [[7]],
        none)).get (manifestKey (ascii "b")) = some (manifestJson (sampleManifest 1)).print := by
      decide +kernel
    exact ⟨covers_of_sanitized _ _ _ _ hraw (by decide),reencodes_of_sanitized _ _ _ hraw (hplain 1),
      fun _ => by decide +kernel,by decide +kernel⟩
  · refine reencodes_of_sanitized _ _ (sampleManifest 2) ?_ (hplain 2)
    decide +kernel

def fourPayloads : List Bytes := [[1], [2], [3], [3]]
def threePayloads : List Bytes := [[1], [2], [3]]

def threeTree : Tree where
  leaves := threePayloads.map hashLeaf
  nonempty := by simp [threePayloads]
  sized := by simp [threePayloads, hashLeaf, hashSize]

def fourTree : Tree where
  leaves := fourPayloads.map hashLeaf
  nonempty := by simp [fourPayloads]
  sized := by simp [fourPayloads, hashLeaf, hashSize]

theorem fourTree_root : fourTree.root = threeTree.root := by
  simp [Tree.root, Tree.levels, fourTree, threeTree, fourPayloads, threePayloads,
    HashTree.levels, HashTree.nextLevel, HashTree.pairs]

theorem pin_unlimited (db : Database) (cid : Bytes) (m : Manifest) (segments : List Bytes)
    (hshape : Shaped cid m segments) (count : Int64) (bytesUsed : UInt64)
    (husage : usage.read db = .ok (count, bytesUsed))
    (hmanifest : ∀ raw, db.get (manifestKey cid) = some raw →
      ∃ existing, parseManifest raw = .ok existing) :
    ∃ count bytesUsed, perform ⟨0, 0⟩ db (.pin cid (some m) segments, none) =
      applyBatch db (pinWrites cid m segments count bytesUsed) := by
  have hquota : quotaError ⟨0, 0⟩ count bytesUsed (pinSize m segments) = none := rfl
  show ∃ _ _, ((pin ⟨0, 0⟩ cid (some m) segments).runAlone none db).2 = _
  rw [runAlone_pin ⟨0, 0⟩ none db cid m segments hshape, husage]
  simp only [hquota]
  cases hget : db.get (manifestKey cid) with
  | none =>
    rw [read_getManifest_none db cid hget]
    exact ⟨_,_,rfl⟩
  | some raw =>
    obtain ⟨existing, hparse⟩ := hmanifest raw hget
    have hsize := read_storedSize db cid existing
    rw [read_getManifest_some db cid raw hget, hparse]
    simp only [hsize]
    exact ⟨_,_,rfl⟩

/-- The last digest of an odd level counts twice, so both lists have one CID.
The second pin leaves the fourth segment of the first behind. -/
def shrinkingRun : List (Operation × Option GoError) := [
  (.pinPayloads fourPayloads 6, none),
  (.pinPayloads threePayloads 6, none)]

theorem shrinkingRun_writes : ∃ count bytesUsed count' bytesUsed',
    run (perform ⟨0, 0⟩) Map.empty shrinkingRun = applyBatch
      (applyBatch Map.empty
        (pinWrites (cidText threeTree.root) (manifestOf fourTree 6) fourPayloads count bytesUsed))
      (pinWrites (cidText threeTree.root) (manifestOf threeTree 6) threePayloads count' bytesUsed') := by
  let cid := cidText threeTree.root
  have hfour : perform ⟨0, 0⟩ Map.empty (.pinPayloads fourPayloads 6, none) =
      perform ⟨0, 0⟩ Map.empty (.pin cid (some (manifestOf fourTree 6)) fourPayloads, none) := by
    rw [perform_built _ _ _ _ _ (manifestOf fourTree 6) (by decide)
      ((buildFromPayloads_ok _ _ _).mpr ⟨by decide,fourTree,rfl,rfl⟩)]
    show perform _ _ (.pin (cidText fourTree.root) _ _, none) = _
    rw [fourTree_root]
  have hthree (db : Database) : perform ⟨0, 0⟩ db (.pinPayloads threePayloads 6, none) =
      perform ⟨0, 0⟩ db (.pin cid (some (manifestOf threeTree 6)) threePayloads, none) :=
    perform_built _ _ _ _ _ (manifestOf threeTree 6) (by decide)
      ((buildFromPayloads_ok _ _ _).mpr ⟨by decide,threeTree,rfl,rfl⟩)
  obtain ⟨count, bytesUsed, hfirst⟩ := pin_unlimited Map.empty cid (manifestOf fourTree 6)
    fourPayloads ⟨List.cons_ne_nil _ _,congrArg cidText fourTree_root,by decide⟩ 0 0 rfl nofun
  let db := applyBatch Map.empty (pinWrites cid (manifestOf fourTree 6) fourPayloads count bytesUsed)
  have husage : usage.read db = .ok (count, bytesUsed) :=
    usage_applyBatch Map.empty _ count bytesUsed (pinWrites_nodup _ _ _ _ _)
      (fun w hw => List.mem_cons_of_mem _ (List.mem_append_right _ hw))
  have hmanifest : ∀ raw, db.get (manifestKey cid) = some raw →
      ∃ existing, parseManifest raw = .ok existing := by
    intro raw hraw
    rw [(get_pinWrites Map.empty cid (manifestOf fourTree 6) fourPayloads count bytesUsed).1] at hraw
    obtain rfl := Option.some.inj hraw
    exact ⟨_,parseManifest_print _⟩
  obtain ⟨count', bytesUsed', hsecond⟩ := pin_unlimited db cid (manifestOf threeTree 6)
    threePayloads ⟨List.cons_ne_nil _ _,rfl,by decide⟩ count bytesUsed husage hmanifest
  refine ⟨count, bytesUsed, count', bytesUsed', ?_⟩
  rw [shrinkingRun, run, run, run, hfour, hfirst, hthree]
  exact hsecond

theorem shorter_list_leaves_segment :
    ¬ Consistent (run (perform ⟨0, 0⟩) Map.empty shrinkingRun) := by
  intro h
  obtain ⟨count, bytesUsed, count', bytesUsed', hrun⟩ := shrinkingRun_writes
  rw [hrun] at h
  let db := applyBatch Map.empty
    (pinWrites (cidText threeTree.root) (manifestOf fourTree 6) fourPayloads count bytesUsed)
  have hfourth := (get_pinWrites Map.empty (cidText threeTree.root) (manifestOf fourTree 6)
    fourPayloads count bytesUsed).2 3 (by decide)
  have hraw := (get_pinWrites db (cidText threeTree.root) (manifestOf threeTree 6) threePayloads
    count' bytesUsed').1
  have hmanifest := read_getManifest_some _ _ _ hraw
  rw [parseManifest_print] at hmanifest
  have hlt := (h.segments _ _ hmanifest 3).mp ⟨[3],?_⟩
  · revert hlt
    decide
  · have hother : segmentKey (cidText threeTree.root) 3 ∉ (pinWrites (cidText threeTree.root)
        (manifestOf threeTree 6) threePayloads count' bytesUsed').map Write.key := by
      rw [pinWrites_keys, mem_contentKeys]
      exact fun hmem => absurd hmem.2 (by decide)
    have hkept := get_applyBatch_other db _ _ hother
    refine (read_getSegment _ _ 3).trans ?_
    rw [read_get, hkept, hfourth]
    rfl

end Samples

end Aevia.PinStore
