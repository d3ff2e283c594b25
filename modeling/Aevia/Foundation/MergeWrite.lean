import Aevia.Foundation.Run
import Mathlib.Logic.Function.Basic

/-!
# Records that are read, merged and written back

Callers share a record. Each reads it whole, lays its own entries over what it
has read and writes the result back whole. So a write also puts back every other
entry as its caller has read it, and what others have written since is lost,
unless the caller has read entries that were written already.
-/

set_option autoImplicit false

namespace Aevia.MergeWrite
open Aevia.Run

variable {ι κ ν : Type*}

abbrev Record (κ ν : Type*) := κ → Option ν

def merge (base patch : Record κ ν) : Record κ ν := fun k => (patch k).or (base k)

theorem merge_patched (base patch : Record κ ν) (k : κ) (v : ν) (h : patch k = some v) :
    merge base patch k = some v := by
  rw [merge, h, Option.some_or]

theorem merge_unpatched (base patch : Record κ ν) (k : κ) (h : patch k = none) :
    merge base patch k = base k := by
  rw [merge, h, Option.none_or]

inductive Event (ι : Type*) where
  | read (i : ι)
  | write (i : ι)
  deriving DecidableEq

/-- The record, what each caller has read and not written back yet, and which
callers are done. -/
structure Shared (ι κ ν : Type*) where
  stored : Record κ ν
  held : ι → Option (Record κ ν)
  done : ι → Bool

def start (r : Record κ ν) : Shared ι κ ν := ⟨r, fun _ => none, fun _ => false⟩

variable (patch : ι → Record κ ν)

def Wrote (s : Shared ι κ ν) (k : κ) (v : ν) : Prop := ∃ i, s.done i = true ∧ patch i k = some v

/-- Written entries hold a value that was written, all others what they held. -/
structure Kept (r : Record κ ν) (s : Shared ι κ ν) : Prop where
  written : ∀ k v, Wrote patch s k v → ∃ v', Wrote patch s k v' ∧ s.stored k = some v'
  untouched : ∀ k, (∀ v, ¬ Wrote patch s k v) → s.stored k = r k

/-- What a caller writes back unpatched of entries that were written is a value
that was written. -/
def Current (s : Shared ι κ ν) : Event ι → Prop
  | .read _ => True
  | .write i => ∀ base, s.held i = some base → ∀ k v, patch i k = none → Wrote patch s k v →
      ∃ v', Wrote patch s k v' ∧ base k = some v'

/-- Entries nobody has written were read as they were at the start. -/
def Faithful (r : Record κ ν) (s : Shared ι κ ν) : Prop :=
  ∀ i base, s.held i = some base → ∀ k, (∀ v, ¬ Wrote patch s k v) → base k = r k

theorem start_kept (r : Record κ ν) : Kept patch r (start r : Shared ι κ ν) where
  written := by
    rintro k v ⟨i, hdone, -⟩
    cases hdone
  untouched := fun _ _ => rfl

theorem start_faithful (r : Record κ ν) : Faithful patch r (start r : Shared ι κ ν) := by
  intro i base hheld
  cases hheld

variable [DecidableEq ι]

def next (s : Shared ι κ ν) : Event ι → Shared ι κ ν
  | .read i =>
    if s.done i then s
    else { s with held := Function.update s.held i (some s.stored) }
  | .write i => match s.held i with
    | none => s
    | some r => {
        stored := merge r (patch i)
        held := Function.update s.held i none
        done := Function.update s.done i true }

section Write
variable (s : Shared ι κ ν) (i : ι) (base : Record κ ν) (hheld : s.held i = some base)

include hheld in
theorem next_write : next patch s (.write i) = {
    stored := merge base (patch i)
    held := Function.update s.held i none
    done := Function.update s.done i true } := by
  simp only [next, hheld]

include hheld in
theorem wrote_write (k : κ) (v : ν) :
    Wrote patch (next patch s (.write i)) k v ↔ patch i k = some v ∨ Wrote patch s k v := by
  rw [next_write patch s i base hheld]
  constructor
  · rintro ⟨j, hj, hpatch⟩
    by_cases hij : j = i
    · rw [hij] at hpatch
      exact .inl hpatch
    · right
      have hj : Function.update s.done i true j = true := hj
      rw [Function.update_of_ne hij] at hj
      exact ⟨j,hj,hpatch⟩
  · rintro (hpatch | ⟨j, hj, hpatch⟩)
    · exact ⟨i,Function.update_self ..,hpatch⟩
    · by_cases hij : j = i
      · exact ⟨i,Function.update_self ..,hij ▸ hpatch⟩
      · refine ⟨j, ?_, hpatch⟩
        show Function.update s.done i true j = true
        rw [Function.update_of_ne hij]
        exact hj

include hheld in
theorem write_kept (r : Record κ ν) (hfaithful : Faithful patch r s) :
    Kept patch r (next patch s (.write i)) ↔ Current patch s (.write i) := by
  have hstored : (next patch s (.write i)).stored = merge base (patch i) := by
    rw [next_write patch s i base hheld]
  constructor
  · intro hkept base' hbase' k v hnone hwrote
    obtain rfl : base = base' := Option.some.inj (hheld.symm.trans hbase')
    obtain ⟨v', hwrote', hvalue⟩ := hkept.written k v
      ((wrote_write patch s i base hheld k v).mpr (.inr hwrote))
    rw [hstored, merge_unpatched _ _ _ hnone] at hvalue
    rcases (wrote_write patch s i base hheld k v').mp hwrote' with hpatch | hwrote'
    · rw [hnone] at hpatch
      cases hpatch
    · exact ⟨v',hwrote',hvalue⟩
  · intro hcurrent
    constructor
    · intro k v hwrote
      cases hpatch : patch i k with
      | some v' =>
        refine ⟨v', (wrote_write patch s i base hheld k v').mpr (.inl hpatch), ?_⟩
        rw [hstored, merge_patched _ _ _ _ hpatch]
      | none =>
        rcases (wrote_write patch s i base hheld k v).mp hwrote with hsome | hwrote
        · rw [hpatch] at hsome
          cases hsome
        · obtain ⟨v', hwrote', hvalue⟩ := hcurrent base hheld k v hpatch hwrote
          refine ⟨v', (wrote_write patch s i base hheld k v').mpr (.inr hwrote'), ?_⟩
          rw [hstored, merge_unpatched _ _ _ hpatch, hvalue]
    · intro k hnone
      have hpatch : patch i k = none := by
        by_contra hsome
        obtain ⟨v, hv⟩ := Option.ne_none_iff_exists'.mp hsome
        exact hnone v ((wrote_write patch s i base hheld k v).mpr (.inl hv))
      rw [hstored, merge_unpatched _ _ _ hpatch]
      apply hfaithful i base hheld
      intro v hwrote
      exact hnone v ((wrote_write patch s i base hheld k v).mpr (.inr hwrote))

include hheld in
theorem write_faithful (r : Record κ ν) (hfaithful : Faithful patch r s) :
    Faithful patch r (next patch s (.write i)) := by
  intro j base' hbase' k hnone
  have hheld' : s.held j = some base' := by
    rw [next_write patch s i base hheld] at hbase'
    by_cases hji : j = i
    · rw [hji] at hbase'
      simp at hbase'
    · simpa [Function.update_of_ne hji] using hbase'
  apply hfaithful j base' hheld'
  intro v hwrote
  exact hnone v ((wrote_write patch s i base hheld k v).mpr (.inr hwrote))

end Write

theorem read_kept (r : Record κ ν) (s : Shared ι κ ν) (i : ι) (hs : Kept patch r s) :
    Kept patch r (next patch s (.read i)) := by
  by_cases hdone : s.done i = true
  · rw [next, if_pos hdone]
    exact hs
  · rw [next, if_neg hdone]
    exact ⟨hs.written,hs.untouched⟩

theorem read_faithful (r : Record κ ν) (s : Shared ι κ ν) (i : ι) (hs : Kept patch r s)
    (hfaithful : Faithful patch r s) : Faithful patch r (next patch s (.read i)) := by
  by_cases hdone : s.done i = true
  · rw [next, if_pos hdone]
    exact hfaithful
  · rw [next, if_neg hdone]
    intro j base hbase k hnone
    have hbase : Function.update s.held i (some s.stored) j = some base := hbase
    by_cases hji : j = i
    · subst hji
      rw [Function.update_self, Option.some.injEq] at hbase
      rw [← hbase]
      exact hs.untouched k hnone
    · rw [Function.update_of_ne hji] at hbase
      exact hfaithful j base hbase k hnone

theorem next_kept (r : Record κ ν) (s : Shared ι κ ν) (e : Event ι) (hs : Kept patch r s)
    (hfaithful : Faithful patch r s) :
    (Kept patch r (next patch s e) ↔ Current patch s e) ∧ Faithful patch r (next patch s e) := by
  cases e with
  | read i =>
    exact ⟨iff_of_true (read_kept patch r s i hs) trivial,read_faithful patch r s i hs hfaithful⟩
  | write i =>
    cases hheld : s.held i with
    | some base =>
      exact ⟨write_kept patch s i base hheld r hfaithful,
        write_faithful patch s i base hheld r hfaithful⟩
    | none =>
      have hsame : next patch s (.write i) = s := by simp only [next, hheld]
      rw [hsame]
      refine ⟨iff_of_true hs ?_, hfaithful⟩
      intro base hbase
      rw [hheld] at hbase
      cases hbase

theorem run_kept (r : Record κ ν) (s : Shared ι κ ν) (es : List (Event ι)) (hs : Kept patch r s)
    (hfaithful : Faithful patch r s) :
    (∀ before, before <+: es → Kept patch r (run (next patch) s before)) ↔
      Along (next patch) (Current patch) s es := by
  induction es generalizing s with
  | nil =>
    refine iff_of_true ?_ trivial
    intro before hbefore
    rw [List.prefix_nil.mp hbefore]
    exact hs
  | cons e es ih =>
    obtain ⟨hiff, hfaithful'⟩ := next_kept patch r s e hs hfaithful
    constructor
    · intro h
      have hnext : Kept patch r (next patch s e) := h [e] ⟨es,rfl⟩
      refine ⟨hiff.mp hnext, (ih (next patch s e) hnext hfaithful').mp ?_⟩
      intro before hbefore
      exact h (e::before) (List.cons_prefix_cons.mpr ⟨rfl,hbefore⟩)
    · rintro ⟨hcurrent, hrest⟩ before hbefore
      rcases List.prefix_cons_iff.mp hbefore with rfl | ⟨rest, rfl, hrestPrefix⟩
      · exact hs
      · have hnext := hiff.mpr hcurrent
        exact (ih (next patch s e) hnext hfaithful').mpr hrest rest hrestPrefix

end Aevia.MergeWrite
