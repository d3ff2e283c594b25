import Aevia.Provider.PinConsistency

/-!
# Concurrent calls on the pin store

Reads and batches of several calls in any order. The quota check and the new
counters rest on reads outside the batch's transaction; an interleaving keeps
the store consistent and within its quota when every batch that lands finds the
keys of its call as the call has read them.
-/

set_option autoImplicit false

namespace Aevia.PinStore
open Aevia.Bytes Aevia.KeyValue Aevia.Manifests Aevia.Storage Aevia.StoreProgram
open Aevia.StoreProgram.Program Aevia.Run

/-- What is stored keeps both limits, zero being none. -/
structure WithinQuota (q : Quota) (db : Database) : Prop where
  pins : 0 < q.maxPins → (storedManifests db : ℤ) ≤ q.maxPins.toInt
  bytes : 0 < q.maxBytes → storedBytes db ≤ q.maxBytes.toNat

def Gauged (q : Quota) (db : Database) : Operation → Prop
  | .pin _ m segments => ∀ m₀, m = some m₀ → 0 < q.maxBytes →
      storedBytes db+contentBytes m₀ segments < 2^64
  | .pinPayloads payloads d => ∀ m, buildFromPayloads payloads d = .ok m → 0 < q.maxBytes →
      storedBytes db+contentBytes m payloads < 2^64
  | .unpin _ => True

theorem empty_withinQuota (q : Quota) : WithinQuota q Map.empty where
  pins := by
    intro h
    rw [Int64.lt_iff_toInt_lt] at h
    exact h.le
  bytes := fun _ => Nat.zero_le _

section Quota
variable (q : Quota) (db : Database)

theorem quotaError_none (count : Int64) (bytesUsed adding : UInt64)
    (h : quotaError q count bytesUsed adding = none) :
    (0 < q.maxPins → count+1 ≤ q.maxPins) ∧
      (0 < q.maxBytes → bytesUsed+adding ≤ q.maxBytes) := by
  unfold quotaError at h
  split_ifs at h with hpins hbytes
  refine ⟨fun hpos => ?_, fun hpos => ?_⟩
  · exact Int64.not_lt.mp (fun hlt => hpins ⟨hpos,hlt⟩)
  · exact UInt64.not_lt.mp (fun hlt => hbytes ⟨hpos,hlt⟩)

theorem pin_withinQuota (fault : Option GoError) (cid : Bytes) (m : Option Manifest)
    (segments : List Bytes) (h : Tidy db) (hq : WithinQuota q db)
    (hfits : fault = none → ∀ m₀, m = some m₀ → Accepted q db cid m₀ segments →
      Fits db cid m₀ segments)
    (hgauged : fault = none → ∀ m₀, m = some m₀ → 0 < q.maxBytes →
      storedBytes db+contentBytes m₀ segments < 2^64) :
    WithinQuota q ((pin q cid m segments).runAlone fault db).2 := by
  rcases pin_effect q fault db cid m segments with hsame | ⟨m, count, bytesUsed, rfl, rfl,
    haccepted, husage, heffect⟩
  · rw [hsame]
    exact hq
  have hfit := hfits rfl m rfl haccepted
  obtain ⟨hcount, hbytes⟩ := tidy_counters db h count bytesUsed husage
  obtain ⟨hpins, hlimit⟩ := quotaError_none q _ _ _ (haccepted.quota count bytesUsed husage)
  -- The bytes of either batch are at most what the check has compared.
  have hstored : ∀ c b, 0 < q.maxBytes →
      storedBytes (applyBatch db (pinWrites cid m segments c b)) ≤ q.maxBytes.toNat := by
    intro c b hpos
    have hle := hlimit hpos
    have hsum := hgauged rfl m rfl hpos
    have htotal := storedBytes_pinWrites db cid m segments c b
    have hsize : (pinSize m segments).toNat = contentBytes m segments := by
      rw [pinSize_eq, UInt64.toNat_ofNat_of_lt' (show contentBytes m segments < 2^64 by omega)]
    rw [UInt64.le_iff_toNat_le, UInt64.toNat_add, hbytes, hsize, Nat.mod_eq_of_lt hsum] at hle
    omega
  rcases heffect with ⟨hnone, heffect⟩ | ⟨raw, existing, size, hraw, -, -, heffect⟩
  · rw [heffect]
    refine ⟨fun hpos => ?_, hstored _ _⟩
    have hle := hpins hpos
    have hmanifests := storedManifests_pinWrites db cid m segments (count+1)
      (bytesUsed+pinSize m segments)
    rw [hnone] at hmanifests
    rw [Int64.le_iff_toInt_le, int64_add_one count _ hcount (hfit.count hnone)] at hle
    simp only [Option.isSome_none, Bool.false_eq_true, if_false, Nat.add_zero] at hmanifests
    rw [hmanifests]
    exact hle
  · rw [heffect]
    refine ⟨fun hpos => ?_, hstored _ _⟩
    have hmanifests := storedManifests_pinWrites db cid m segments count
      (bytesUsed-size+pinSize m segments)
    have hbefore := hq.pins hpos
    rw [hraw] at hmanifests
    simp only [Option.isSome_some, if_true] at hmanifests
    omega

theorem unpin_withinQuota (fault : Option GoError) (cid : Bytes) (hq : WithinQuota q db) :
    WithinQuota q ((unpin cid).runAlone fault db).2 := by
  rcases unpin_effect fault db cid with hsame | ⟨raw, m, size, count, bytesUsed, hraw, -, -, -, -,
    heffect⟩
  · rw [hsame]
    exact hq
  rw [heffect]
  refine ⟨fun hpos => ?_, fun hpos => ?_⟩
  · have hmanifests := storedManifests_unpinWrites db cid m
      (if count-1 < 0 then 0 else count-1) (if size < bytesUsed then bytesUsed-size else 0)
    have hbefore := hq.pins hpos
    omega
  · have hstored := storedBytes_unpinWrites db cid m
      (if count-1 < 0 then 0 else count-1) (if size < bytesUsed then bytesUsed-size else 0)
    have hbefore := hq.bytes hpos
    omega

theorem perform_withinQuota (e : Operation × Option GoError) (h : Tidy db)
    (hq : WithinQuota q db) (he : e.2 = none → Meets q db e.1)
    (hgauged : e.2 = none → Gauged q db e.1) : WithinQuota q (perform q db e) := by
  obtain ⟨op, fault⟩ := e
  cases op with
  | pin cid m segments => exact pin_withinQuota q db fault cid m segments h hq he hgauged
  | unpin cid => exact unpin_withinQuota q db fault cid hq
  | pinPayloads payloads d =>
    rcases perform_pinPayloads q fault db payloads d with hsame | ⟨m, hbuild, heffect⟩
    · rw [hsame]
      exact hq
    · rw [heffect]
      refine pin_withinQuota q db fault m.cid (some m) payloads h hq (fun hfault m₀ hm₀ hacc => ?_)
        (fun hfault m₀ hm₀ hpos => ?_)
      · cases hm₀
        exact he hfault m hbuild hacc
      · cases hm₀
        exact hgauged hfault m hbuild hpos

end Quota

abbrev PinEvent := Event GoError Operation
abbrev PinShared := Shared Bytes Bytes GoError Unit Operation

def start : PinShared := ⟨Map.empty, []⟩

def AllReturned (s : PinShared) : Prop := ∀ c ∈ s.calls, ∃ r, c.rest = .done r

/-- Every interleaving whose batches land on fresh reads. -/
theorem interleaving_consistent (q : Quota) (events : List PinEvent)
    (h : Along (next (code q)) (CommitsMeet (fun op db => Meets q db op ∧ Gauged q db op))
      start events) :
    Consistent (run (next (code q)) start events).store ∧
      WithinQuota q (run (next (code q)) start events).store := by
  have hsound := run_sound (code q) (code_singleCommit q)
    (fun db => Tidy db ∧ WithinQuota q db) (fun op db => Meets q db op ∧ Gauged q db op)
    (fun op db hinv hpre =>
      ⟨perform_tidy db q (op, none) hinv.1 (fun _ => hpre.1),
        perform_withinQuota q db (op, none) hinv.1 hinv.2 (fun _ => hpre.1) (fun _ => hpre.2)⟩)
    start events ⟨by simp [start],empty_tidy,empty_withinQuota q⟩ h
  exact ⟨tidy_consistent _ hsound.store.1,hsound.store.2⟩

section Samples

def freshEvents : List PinEvent := [
  .start (.pin (ascii "b") (some (sampleManifest 1)) [[7]]), .start (.unpin (ascii "c")),
  .step 0 none, .step 1 none, .step 0 none, .step 0 none, .step 0 none]

theorem interleaving_consistent_fresh :
    Consistent (run (next (code ⟨1000, 1⟩)) start freshEvents).store ∧
      WithinQuota ⟨1000, 1⟩ (run (next (code ⟨1000, 1⟩)) start freshEvents).store := by
  have hreading := fun (s : PinShared) i => commitsMeet_of_reading
    (fun op db => Meets ⟨1000, 1⟩ db op ∧ Gauged ⟨1000, 1⟩ db op) s i none
  refine interleaving_consistent _ _ ⟨trivial, trivial, hreading _ _ rfl, hreading _ _ rfl,
    hreading _ _ rfl, hreading _ _ rfl, ?_, trivial⟩
  intro c ws nxt hc hrest _
  cases hc
  refine ⟨?_, ?_, ?_⟩
  · rw [Call.Fresh]
    decide
  · intro m₀ hm₀ _
    cases hm₀
    refine ⟨fun existing h => ?_, fun raw m h => ?_, fun _ => by decide, by decide +kernel⟩
    · cases h
    · cases h
  · intro m₀ hm₀ _
    cases hm₀
    decide +kernel

def pinOf (cid : Bytes) : Operation :=
  .pin cid (some { sampleManifest 1 with cid := cid }) [[7]]

def staleEvents : List PinEvent := [
  .start (pinOf (ascii "b")), .start (pinOf (ascii "c")),
  .step 0 none, .step 0 none, .step 0 none, .step 1 none, .step 1 none, .step 1 none,
  .step 0 none, .step 1 none]

theorem stale_pins_lose_count :
    AllReturned (run (next (code ⟨0, 1⟩)) start staleEvents) ∧
      ¬ Consistent (run (next (code ⟨0, 1⟩)) start staleEvents).store ∧
      ¬ WithinQuota ⟨0, 1⟩ (run (next (code ⟨0, 1⟩)) start staleEvents).store := by
  have hstored : storedManifests (run (next (code ⟨0, 1⟩)) start staleEvents).store = 2 := by
    decide +kernel
  have hcalls : (run (next (code ⟨0, 1⟩)) start staleEvents).calls.map Call.rest =
      [.done (.ok ()), .done (.ok ())] := rfl
  refine ⟨?_, ?_, ?_⟩
  · intro c hc
    have hrest : c.rest ∈ [Program.done (.ok ()), Program.done (.ok ())] :=
      hcalls ▸ List.mem_map_of_mem hc
    simp only [List.mem_cons, List.not_mem_nil, or_false, or_self] at hrest
    exact ⟨_,hrest⟩
  · intro h
    obtain ⟨count, bytesUsed, husage, hcount, -⟩ := h.usage
    have hread : usage.read (run (next (code ⟨0, 1⟩)) start staleEvents).store = .ok (1, 87) := by
      decide +kernel
    rw [hread] at husage
    cases husage
    rw [hstored] at hcount
    revert hcount
    decide
  · intro h
    have hpins := h.pins (by decide)
    rw [hstored] at hpins
    revert hpins
    decide

end Samples

end Aevia.PinStore
