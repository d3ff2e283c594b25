import Aevia.Provider.PinCalls

/-!
# Consistency of the pin store

Manifests, segment ranges and counters stay in step in every run whose calls
meet the store in the right shape: a pin that replaces a manifest names at
least as many segments, what is stored encodes again to the same size, and the
counters do not overflow.
-/

set_option autoImplicit false

namespace Aevia.PinStore
open Aevia.Bytes Aevia.KeyValue Aevia.Manifests Aevia.Storage Aevia.StoreProgram
open Aevia.StoreProgram.Program

def countMeasure (key _ : Bytes) : ℕ := if isManifestKey key then 1 else 0

def sizeMeasure (key value : Bytes) : ℕ :=
  if isManifestKey key ∨ isSegmentKey key then value.length else 0

def storedManifests (db : Database) : ℕ := db.total countMeasure
def storedBytes (db : Database) : ℕ := db.total sizeMeasure

/-- What the store promises, in terms of its own reads. -/
structure Consistent (db : Database) : Prop where
  segments : ∀ cid m, (getManifest cid).read db = .ok m → ∀ i : ℕ,
    (∃ seg, (getSegment cid i).read db = .ok seg) ↔ (i : ℤ) < m.segmentCount.toInt
  noOrphan : ∀ key ∈ db.keys, isSegmentKey key = true → ∃ cid m i, key = segmentKey cid i ∧
    (getManifest cid).read db = .ok m
  usage : ∃ count bytesUsed, usage.read db = .ok (count, bytesUsed) ∧
    count.toInt = storedManifests db ∧ bytesUsed.toNat = storedBytes db

/-- The invariant behind it, on the keys. -/
structure Tidy (db : Database) : Prop where
  manifests : ∀ cid raw, db.get (manifestKey cid) = some raw → ∃ m, raw = (manifestJson m).print ∧
    ∀ i : ℕ, (db.get (segmentKey cid i)).isSome ↔ i < m.segmentCount.toInt.toNat
  noOrphan : ∀ key, isSegmentKey key = true → (db.get key).isSome → ∃ cid i,
    key = segmentKey cid i ∧ (db.get (manifestKey cid)).isSome
  usage : ∃ count bytesUsed, usage.read db = .ok (count, bytesUsed) ∧
    count.toInt = storedManifests db ∧ bytesUsed.toNat = storedBytes db

theorem tidy_getManifest (db : Database) (h : Tidy db) (cid raw : Bytes)
    (hraw : db.get (manifestKey cid) = some raw) :
    ∃ m, parseManifest raw = .ok m ∧ (getManifest cid).read db = .ok m ∧
      ∀ i : ℕ, (db.get (segmentKey cid i)).isSome ↔ i < m.segmentCount.toInt.toNat := by
  obtain ⟨m, rfl, hsegments⟩ := h.manifests cid raw hraw
  have hread := read_getManifest_some db cid _ hraw
  rw [parseManifest_print] at hread
  exact ⟨m.sanitized,parseManifest_print m,hread,hsegments⟩

theorem tidy_consistent (db : Database) (h : Tidy db) : Consistent db where
  segments := by
    intro cid m hm i
    cases hraw : db.get (manifestKey cid) with
    | none =>
      rw [read_getManifest_none db cid hraw] at hm
      cases hm
    | some raw =>
      obtain ⟨m', -, hread, hsegments⟩ := tidy_getManifest db h cid raw hraw
      rw [hread] at hm
      cases hm
      have hi : (i : ℤ) < m.segmentCount.toInt ↔ i < m.segmentCount.toInt.toNat := by omega
      rw [hi, ← hsegments i, Option.isSome_iff_exists]
      simp only [read_getSegment, read_get_ok]
  noOrphan := by
    intro key hkey hsegment
    obtain ⟨cid, i, rfl, hmanifest⟩ := h.noOrphan key hsegment ((db.mem_keys key).mp hkey)
    obtain ⟨raw, hraw⟩ := Option.isSome_iff_exists.mp hmanifest
    obtain ⟨m, -, hread, -⟩ := tidy_getManifest db h cid raw hraw
    exact ⟨cid,m,i,rfl,hread⟩
  usage := h.usage

theorem empty_tidy : Tidy Map.empty where
  manifests := by simp
  noOrphan := by simp
  usage := ⟨0, 0, by
    rw [read_usage _ 0 0 (read_readUint64_none _ _ rfl) (read_readUint64_none _ _ rfl)]
    rfl, rfl, rfl⟩

section Batches

def contentKeys (cid : Bytes) (n : ℕ) : List Bytes :=
  manifestKey cid::((List.range n).map (segmentKey cid)++[keyQuotaCount, keyQuotaBytes])

theorem contentKeys_nodup (cid : Bytes) (n : ℕ) : (contentKeys cid n).Nodup := by
  have hsegments : ((List.range n).map (segmentKey cid)).Nodup :=
    List.nodup_range.map (fun i j h => (segmentKey_inj cid cid i j h).2)
  have hcounter : ∀ i, segmentKey cid i ≠ keyQuotaCount ∧ segmentKey cid i ≠ keyQuotaBytes := by
    intro i
    constructor <;> intro h <;> have hk := isSegmentKey_segmentKey cid i <;> rw [h] at hk <;> cases hk
  refine List.nodup_cons.mpr ⟨?_, ?_⟩
  · intro h
    rcases List.mem_append.mp h with h | h
    · obtain ⟨i, -, hi⟩ := List.mem_map.mp h
      exact manifestKey_ne_segmentKey cid cid i hi.symm
    · have hk := isManifestKey_manifestKey cid
      simp only [List.mem_cons, List.not_mem_nil, or_false] at h
      rcases h with h | h <;> rw [h] at hk <;> cases hk
  · refine List.nodup_append.mpr ⟨hsegments, by decide, ?_⟩
    intro a ha b hb hab
    obtain ⟨i, -, rfl⟩ := List.mem_map.mp ha
    simp only [List.mem_cons, List.not_mem_nil, or_false] at hb
    rcases hb with rfl | rfl
    · exact (hcounter i).1 hab
    · exact (hcounter i).2 hab

theorem contentKeys_segment (cid key : Bytes) (n : ℕ) (hkey : isSegmentKey key = true)
    (h : key ∈ contentKeys cid n) : ∃ i < n, key = segmentKey cid i := by
  rcases List.mem_cons.mp h with rfl | h
  · rw [isSegmentKey_manifestKey] at hkey
    cases hkey
  · rcases List.mem_append.mp h with h | h
    · obtain ⟨i, hi, rfl⟩ := List.mem_map.mp h
      exact ⟨i,List.mem_range.mp hi,rfl⟩
    · simp only [List.mem_cons, List.not_mem_nil, or_false] at h
      rcases h with rfl | rfl <;> cases hkey

theorem mem_contentKeys (cid cid' : Bytes) (n i : ℕ) :
    segmentKey cid' i ∈ contentKeys cid n ↔ cid' = cid ∧ i < n := by
  constructor
  · intro h
    obtain ⟨j, hj, hij⟩ := contentKeys_segment cid _ n (isSegmentKey_segmentKey cid' i) h
    obtain ⟨rfl, rfl⟩ := segmentKey_inj _ _ _ _ hij
    exact ⟨rfl,hj⟩
  · rintro ⟨rfl, hi⟩
    exact List.mem_cons_of_mem _ (List.mem_append_left _ (List.mem_map.mpr ⟨i,List.mem_range.mpr hi,rfl⟩))

theorem manifestKey_mem_contentKeys (cid cid' : Bytes) (n : ℕ) :
    manifestKey cid' ∈ contentKeys cid n ↔ cid' = cid := by
  have hk := isManifestKey_manifestKey cid'
  constructor
  · intro h
    rcases List.mem_cons.mp h with h | h
    · exact manifestKey_inj _ _ h
    · rcases List.mem_append.mp h with h | h
      · obtain ⟨j, -, hj⟩ := List.mem_map.mp h
        exact absurd hj.symm (manifestKey_ne_segmentKey cid' cid j)
      · simp only [List.mem_cons, List.not_mem_nil, or_false] at h
        rcases h with h | h <;> rw [h] at hk <;> cases hk
  · rintro rfl
    exact List.mem_cons_self

theorem pinWrites_keys (cid : Bytes) (m : Manifest) (segments : List Bytes) (count : Int64)
    (bytesUsed : UInt64) :
    (pinWrites cid m segments count bytesUsed).map Write.key = contentKeys cid segments.length := by
  have hsegments : (segmentWrites cid segments).map Write.key =
      (List.range segments.length).map (segmentKey cid) := by
    rw [segmentWrites, List.map_map, List.range_eq_range', ← List.zipIdx_map_snd, List.map_map]
    rfl
  rw [pinWrites, List.map_cons, List.map_append, hsegments]
  rfl

theorem unpinWrites_keys (cid : Bytes) (m : Manifest) (count : Int64) (bytesUsed : UInt64) :
    (unpinWrites cid m count bytesUsed).map Write.key =
      contentKeys cid m.segmentCount.toInt.toNat := by
  rw [unpinWrites, List.map_cons, List.map_append, List.map_map]
  rfl

theorem pinWrites_nodup (cid : Bytes) (m : Manifest) (segments : List Bytes) (count : Int64)
    (bytesUsed : UInt64) : ((pinWrites cid m segments count bytesUsed).map Write.key).Nodup := by
  rw [pinWrites_keys]
  exact contentKeys_nodup _ _

theorem unpinWrites_nodup (cid : Bytes) (m : Manifest) (count : Int64) (bytesUsed : UInt64) :
    ((unpinWrites cid m count bytesUsed).map Write.key).Nodup := by
  rw [unpinWrites_keys]
  exact contentKeys_nodup _ _

section Measures
variable (f : Bytes → Bytes → ℕ) (hcount : ∀ v, f keyQuotaCount v = 0)
  (hbytes : ∀ v, f keyQuotaBytes v = 0)

include hcount hbytes in
theorem contentKeys_weight (db : Database) (cid : Bytes) (n : ℕ) :
    ((contentKeys cid n).map (db.weight f)).sum = db.weight f (manifestKey cid)+
      ((List.range n).map (fun i => db.weight f (segmentKey cid i))).sum := by
  have hcounters : ([keyQuotaCount, keyQuotaBytes].map (db.weight f)).sum = 0 := by
    simp only [List.map_cons, List.map_nil, Map.weight]
    cases db.get keyQuotaCount <;> cases db.get keyQuotaBytes <;> simp [hcount, hbytes]
  rw [contentKeys, List.map_cons, List.map_append, List.map_map, List.sum_cons, List.sum_append,
    hcounters, Nat.add_zero]
  rfl

include hcount hbytes in
theorem counterWrites_measure (count : Int64) (bytesUsed : UInt64) :
    ((counterWrites count bytesUsed).map (fun w => (w.result.map (f w.key)).getD 0)).sum = 0 := by
  simp [counterWrites, putUint64, Write.result, Write.key, hcount, hbytes]

theorem segmentWrites_measure (g : Bytes → ℕ) (cid : Bytes)
    (hf : ∀ i seg, f (segmentKey cid i) seg = g seg) (segments : List Bytes) :
    ((segmentWrites cid segments).map (fun w => (w.result.map (f w.key)).getD 0)).sum =
      (segments.map g).sum := by
  have hmap : (segmentWrites cid segments).map (fun w => (w.result.map (f w.key)).getD 0) =
      (segments.zipIdx.map Prod.fst).map g := by
    rw [segmentWrites, List.map_map, List.map_map]
    refine List.map_congr_left (fun p _ => ?_)
    simp [Write.result, Write.key, hf]
  rw [hmap, List.zipIdx_map_fst]

include hcount hbytes in
theorem pinWrites_measure (g : Bytes → ℕ) (cid : Bytes)
    (hf : ∀ i seg, f (segmentKey cid i) seg = g seg) (m : Manifest) (segments : List Bytes)
    (count : Int64) (bytesUsed : UInt64) :
    ((pinWrites cid m segments count bytesUsed).map
      (fun w => (w.result.map (f w.key)).getD 0)).sum =
      f (manifestKey cid) (manifestJson m).print+(segments.map g).sum := by
  rw [pinWrites, List.map_cons, List.map_append, List.sum_cons, List.sum_append,
    segmentWrites_measure f g cid hf, counterWrites_measure f hcount hbytes, Nat.add_zero]
  rfl

include hcount hbytes in
theorem unpinWrites_measure (cid : Bytes) (m : Manifest) (count : Int64) (bytesUsed : UInt64) :
    ((unpinWrites cid m count bytesUsed).map
      (fun w => (w.result.map (f w.key)).getD 0)).sum = 0 := by
  rw [unpinWrites, List.map_cons, List.map_append, List.sum_cons, List.sum_append,
    counterWrites_measure f hcount hbytes]
  simp [Write.result, Function.comp_def]

end Measures

theorem contentKeys_count (db : Database) (cid : Bytes) (n : ℕ) :
    ((contentKeys cid n).map (db.weight countMeasure)).sum =
      if (db.get (manifestKey cid)).isSome then 1 else 0 := by
  rw [contentKeys_weight countMeasure (fun _ => rfl) (fun _ => rfl)]
  have hsegment : ∀ i, db.weight countMeasure (segmentKey cid i) = 0 := by
    intro i
    rw [Map.weight]
    cases db.get (segmentKey cid i) <;> simp [countMeasure]
  have hmanifest : db.weight countMeasure (manifestKey cid) =
      if (db.get (manifestKey cid)).isSome then 1 else 0 := by
    rw [Map.weight]
    cases db.get (manifestKey cid) <;> simp [countMeasure]
  simp [hsegment, hmanifest]

def manifestBytes (db : Database) (cid : Bytes) : ℕ :=
  ((db.get (manifestKey cid)).map List.length).getD 0

theorem contentKeys_size (db : Database) (cid : Bytes) (n : ℕ) :
    ((contentKeys cid n).map (db.weight sizeMeasure)).sum =
      manifestBytes db cid+((List.range n).map (segmentBytes db cid)).sum := by
  rw [contentKeys_weight sizeMeasure (fun _ => rfl) (fun _ => rfl)]
  have hsegment : ∀ i, db.weight sizeMeasure (segmentKey cid i) = segmentBytes db cid i := by
    intro i
    rw [Map.weight, segmentBytes]
    cases db.get (segmentKey cid i) <;> simp [sizeMeasure]
  have hmanifest : db.weight sizeMeasure (manifestKey cid) = manifestBytes db cid := by
    rw [Map.weight, manifestBytes]
    cases db.get (manifestKey cid) <;> simp [sizeMeasure]
  simp only [hsegment, hmanifest]

/-- Writes of a batch that leaves the counters `count` and `bytesUsed`. -/
theorem usage_applyBatch (db : Database) (ws : List (Write Bytes Bytes)) (count : Int64)
    (bytesUsed : UInt64) (hkeys : (ws.map Write.key).Nodup)
    (hcounters : ∀ w ∈ counterWrites count bytesUsed, w ∈ ws) :
    usage.read (applyBatch db ws) = .ok (count, bytesUsed) := by
  have hcount := get_applyBatch db ws hkeys _ (hcounters (putUint64 keyQuotaCount count.toUInt64)
    (by simp [counterWrites]))
  have hbytes := get_applyBatch db ws hkeys _ (hcounters (putUint64 keyQuotaBytes bytesUsed)
    (by simp [counterWrites]))
  rw [read_usage _ count.toUInt64 bytesUsed (read_readUint64_some _ _ _ hcount)
    (read_readUint64_some _ _ _ hbytes)]
  rfl

theorem total_contentKeys (f : Bytes → Bytes → ℕ) (db : Database) (ws : List (Write Bytes Bytes))
    (cid : Bytes) (n : ℕ) (hkeys : ws.map Write.key = contentKeys cid n) :
    (applyBatch db ws).total f+((contentKeys cid n).map (db.weight f)).sum =
      db.total f+(ws.map (fun w => (w.result.map (f w.key)).getD 0)).sum := by
  have h := total_applyBatch f db ws (by rw [hkeys]; exact contentKeys_nodup _ _)
  rw [← hkeys, List.map_map]
  exact h

theorem storedManifests_pinWrites (db : Database) (cid : Bytes) (m : Manifest)
    (segments : List Bytes) (count : Int64) (bytesUsed : UInt64) :
    storedManifests (applyBatch db (pinWrites cid m segments count bytesUsed))+
      (if (db.get (manifestKey cid)).isSome then 1 else 0) = storedManifests db+1 := by
  have h := total_contentKeys countMeasure db _ cid _ (pinWrites_keys cid m segments count bytesUsed)
  have hnew : countMeasure (manifestKey cid) (manifestJson m).print+(segments.map (fun _ => 0)).sum =
      1 := by simp [countMeasure]
  rw [contentKeys_count, pinWrites_measure countMeasure (fun _ => rfl) (fun _ => rfl) (fun _ => 0) cid
    (fun _ _ => rfl), hnew] at h
  exact h

theorem storedBytes_pinWrites (db : Database) (cid : Bytes) (m : Manifest)
    (segments : List Bytes) (count : Int64) (bytesUsed : UInt64) :
    storedBytes (applyBatch db (pinWrites cid m segments count bytesUsed))+
      (manifestBytes db cid+((List.range segments.length).map (segmentBytes db cid)).sum) =
      storedBytes db+contentBytes m segments := by
  have h := total_contentKeys sizeMeasure db _ cid _ (pinWrites_keys cid m segments count bytesUsed)
  have hmanifest : sizeMeasure (manifestKey cid) (manifestJson m).print =
      (manifestJson m).print.length := by simp [sizeMeasure]
  rw [contentKeys_size, pinWrites_measure sizeMeasure (fun _ => rfl) (fun _ => rfl) List.length cid
    (by simp [sizeMeasure]), hmanifest] at h
  exact h

theorem storedManifests_unpinWrites (db : Database) (cid : Bytes) (m : Manifest) (count : Int64)
    (bytesUsed : UInt64) :
    storedManifests (applyBatch db (unpinWrites cid m count bytesUsed))+
      (if (db.get (manifestKey cid)).isSome then 1 else 0) = storedManifests db := by
  have h := total_contentKeys countMeasure db _ cid _ (unpinWrites_keys cid m count bytesUsed)
  rw [contentKeys_count, unpinWrites_measure countMeasure (fun _ => rfl) (fun _ => rfl)] at h
  exact h

theorem storedBytes_unpinWrites (db : Database) (cid : Bytes) (m : Manifest) (count : Int64)
    (bytesUsed : UInt64) :
    storedBytes (applyBatch db (unpinWrites cid m count bytesUsed))+
      (manifestBytes db cid+((segmentIndices m).map (segmentBytes db cid)).sum) =
      storedBytes db := by
  have h := total_contentKeys sizeMeasure db _ cid _ (unpinWrites_keys cid m count bytesUsed)
  rw [contentKeys_size, unpinWrites_measure sizeMeasure (fun _ => rfl) (fun _ => rfl)] at h
  exact h

end Batches

section Preservation
variable (db : Database) (cid : Bytes)

theorem get_pinWrites (m : Manifest) (segments : List Bytes) (count : Int64) (bytesUsed : UInt64) :
    (applyBatch db (pinWrites cid m segments count bytesUsed)).get (manifestKey cid) =
      some (manifestJson m).print ∧
    ∀ i (hi : i < segments.length),
      (applyBatch db (pinWrites cid m segments count bytesUsed)).get (segmentKey cid i) =
        some segments[i] := by
  have hnodup := pinWrites_nodup cid m segments count bytesUsed
  constructor
  · exact get_applyBatch db _ hnodup (.put (manifestKey cid) (manifestJson m).print)
      List.mem_cons_self
  · intro i hi
    apply get_applyBatch db _ hnodup (.put (segmentKey cid i) segments[i])
    apply List.mem_cons_of_mem
    apply List.mem_append_left
    exact List.mem_map.mpr ⟨(segments[i],i),
      List.mem_zipIdx_iff_getElem?.mpr (List.getElem?_eq_getElem hi),rfl⟩

section Others
variable (ws : List (Write Bytes Bytes)) (n : ℕ) (hkeys : ws.map Write.key = contentKeys cid n)
  (cid' : Bytes) (hne : cid' ≠ cid)

include hkeys hne

theorem otherContent_kept :
    (applyBatch db ws).get (manifestKey cid') = db.get (manifestKey cid') ∧
    ∀ i, (applyBatch db ws).get (segmentKey cid' i) = db.get (segmentKey cid' i) := by
  constructor
  · apply get_applyBatch_other
    rw [hkeys, manifestKey_mem_contentKeys]
    exact hne
  · intro i
    apply get_applyBatch_other
    rw [hkeys, mem_contentKeys]
    exact fun hmem => hne hmem.1

theorem otherManifest_covers (h : Tidy db) (raw : Bytes)
    (hraw : (applyBatch db ws).get (manifestKey cid') = some raw) :
    ∃ m, raw = (manifestJson m).print ∧ ∀ i : ℕ,
      ((applyBatch db ws).get (segmentKey cid' i)).isSome ↔ i < m.segmentCount.toInt.toNat := by
  obtain ⟨hmanifest, hsegments⟩ := otherContent_kept db cid ws n hkeys cid' hne
  rw [hmanifest] at hraw
  simp only [hsegments]
  exact h.manifests cid' raw hraw

end Others

theorem pinWrites_tidy (h : Tidy db) (m : Manifest) (segments : List Bytes) (count : Int64)
    (bytesUsed : UInt64) (hm : m.segmentCount.toInt = segments.length)
    (hcover : ∀ i, (db.get (segmentKey cid i)).isSome → i < segments.length)
    (hcount : count.toInt =
      storedManifests (applyBatch db (pinWrites cid m segments count bytesUsed)))
    (hbytes : bytesUsed.toNat =
      storedBytes (applyBatch db (pinWrites cid m segments count bytesUsed))) :
    Tidy (applyBatch db (pinWrites cid m segments count bytesUsed)) := by
  have hkeys := pinWrites_keys cid m segments count bytesUsed
  obtain ⟨hmanifest, hsegment⟩ := get_pinWrites db cid m segments count bytesUsed
  have hother : ∀ key, key ∉ contentKeys cid segments.length →
      (applyBatch db (pinWrites cid m segments count bytesUsed)).get key = db.get key :=
    fun key hkey => get_applyBatch_other db _ key (by rwa [hkeys])
  refine ⟨?_, ?_, ⟨count, bytesUsed, ?_, hcount, hbytes⟩⟩
  · intro cid' raw hraw
    by_cases hcid : cid' = cid
    · subst hcid
      rw [hmanifest, Option.some.injEq] at hraw
      refine ⟨m, hraw.symm, fun i => ⟨fun hi => ?_, fun hi => ?_⟩⟩
      · by_contra hge
        rw [hother _ (by rw [mem_contentKeys]; omega)] at hi
        have := hcover i hi
        omega
      · rw [hsegment i (by omega)]
        rfl
    · exact otherManifest_covers db cid _ _ hkeys cid' hcid h raw hraw
  · intro key hkey hsome
    by_cases hmem : key ∈ contentKeys cid segments.length
    · obtain ⟨i, -, rfl⟩ := contentKeys_segment cid key _ hkey hmem
      exact ⟨cid,i,rfl,by rw [hmanifest]; rfl⟩
    · rw [hother _ hmem] at hsome
      obtain ⟨cid', i, rfl, hm'⟩ := h.noOrphan key hkey hsome
      refine ⟨cid', i, rfl, ?_⟩
      by_cases hcid : cid' = cid
      · rw [hcid, hmanifest]
        rfl
      · rw [(otherContent_kept db cid _ _ hkeys cid' hcid).1]
        exact hm'
  · exact usage_applyBatch db _ count bytesUsed (pinWrites_nodup _ _ _ _ _)
      (fun w hw => List.mem_cons_of_mem _ (List.mem_append_right _ hw))

theorem unpinWrites_tidy (h : Tidy db) (m : Manifest) (count : Int64) (bytesUsed : UInt64)
    (hexact : ∀ i, (db.get (segmentKey cid i)).isSome → i < m.segmentCount.toInt.toNat)
    (hcount : count.toInt = storedManifests (applyBatch db (unpinWrites cid m count bytesUsed)))
    (hbytes : bytesUsed.toNat =
      storedBytes (applyBatch db (unpinWrites cid m count bytesUsed))) :
    Tidy (applyBatch db (unpinWrites cid m count bytesUsed)) := by
  have hkeys := unpinWrites_keys cid m count bytesUsed
  have hnodup := unpinWrites_nodup cid m count bytesUsed
  have hmanifest : (applyBatch db (unpinWrites cid m count bytesUsed)).get (manifestKey cid) = none :=
    get_applyBatch db _ hnodup _ List.mem_cons_self
  have hsegment : ∀ i, i < m.segmentCount.toInt.toNat →
      (applyBatch db (unpinWrites cid m count bytesUsed)).get (segmentKey cid i) = none := by
    intro i hi
    refine get_applyBatch db _ hnodup (.delete (segmentKey cid i)) ?_
    exact List.mem_cons_of_mem _ (List.mem_append_left _
      (List.mem_map.mpr ⟨i,List.mem_range.mpr hi,rfl⟩))
  have hother : ∀ key, key ∉ contentKeys cid m.segmentCount.toInt.toNat →
      (applyBatch db (unpinWrites cid m count bytesUsed)).get key = db.get key :=
    fun key hkey => get_applyBatch_other db _ key (by rwa [hkeys])
  refine ⟨?_, ?_, ⟨count, bytesUsed, ?_, hcount, hbytes⟩⟩
  · intro cid' raw hraw
    have hcid : cid' ≠ cid := by
      rintro rfl
      rw [hmanifest] at hraw
      cases hraw
    exact otherManifest_covers db cid _ _ hkeys cid' hcid h raw hraw
  · intro key hkey hsome
    have hold : (db.get key).isSome := by
      by_cases hmem : key ∈ contentKeys cid m.segmentCount.toInt.toNat
      · -- Every segment of the batch is gone.
        obtain ⟨i, hi, rfl⟩ := contentKeys_segment cid key _ hkey hmem
        rw [hsegment i hi] at hsome
        cases hsome
      · rwa [hother _ hmem] at hsome
    obtain ⟨cid', i, rfl, hm'⟩ := h.noOrphan key hkey hold
    have hcid : cid' ≠ cid := by
      rintro rfl
      rw [hsegment i (hexact i hold)] at hsome
      cases hsome
    exact ⟨cid',i,rfl,by rwa [(otherContent_kept db cid _ _ hkeys cid' hcid).1]⟩
  · exact usage_applyBatch db _ count bytesUsed hnodup
      (fun w hw => List.mem_cons_of_mem _ (List.mem_append_right _ hw))

end Preservation

end Aevia.PinStore
