import Mathlib.Data.List.Basic
import Mathlib.Order.MinMax

/-!
# Expiries that are pruned when they are read

An entry holds the latest of the expiries it was given until a reader finds it
expired and removes it. From the time of the last access on it cannot be told
apart from the whole history of the expiries.
-/

set_option autoImplicit false

namespace Aevia.LazyExpiry

variable {τ : Type*} [LinearOrder τ]

/-- An expiry is entered; an earlier one does not replace a later one. -/
def extend (entry : Option τ) (expiry : τ) : Option τ :=
  match entry with
  | none => some expiry
  | some existing => if existing < expiry then some expiry else some existing

/-- What a reader leaves: an entry that is over is removed. -/
def prune (now : τ) (entry : Option τ) : Option τ :=
  match entry with
  | none => none
  | some expiry => if expiry < now then none else some expiry

def Active (entry : Option τ) (t : τ) : Prop := ∃ expiry, entry = some expiry ∧ t ≤ expiry

def latest (history : List τ) : Option τ := history.max?

def Tracks (history : List τ) (now : τ) (entry : Option τ) : Prop :=
  ∀ t, now ≤ t → (Active entry t ↔ ∃ expiry ∈ history, t ≤ expiry)

@[simp] theorem active_none (t : τ) : ¬Active none t := by
  rintro ⟨expiry, h, -⟩
  cases h

@[simp] theorem active_some (expiry t : τ) : Active (some expiry) t ↔ t ≤ expiry := by
  constructor
  · rintro ⟨other, h, hle⟩
    rwa [Option.some.inj h]
  · exact fun hle => ⟨expiry,rfl,hle⟩

theorem active_extend (entry : Option τ) (expiry t : τ) :
    Active (extend entry expiry) t ↔ Active entry t ∨ t ≤ expiry := by
  cases entry with
  | none => simp [extend]
  | some existing =>
    simp only [extend]
    split_ifs with h
    · rw [active_some, active_some]
      exact ⟨.inr,fun hle => hle.elim (fun hle => hle.trans h.le) id⟩
    · rw [active_some]
      exact ⟨.inl,fun hle => hle.elim id (fun hle => hle.trans (not_lt.mp h))⟩

theorem active_prune (now t : τ) (entry : Option τ) (ht : now ≤ t) :
    Active (prune now entry) t ↔ Active entry t := by
  cases entry with
  | none => rfl
  | some expiry =>
    simp only [prune]
    split_ifs with h
    · rw [active_some]
      exact ⟨fun hnone => absurd hnone (active_none t),fun hle => absurd (ht.trans hle) (not_le.mpr h)⟩
    · rfl

theorem prune_some (now : τ) (entry : Option τ) (expiry : τ) :
    prune now entry = some expiry ↔ entry = some expiry ∧ now ≤ expiry := by
  cases entry with
  | none => simp [prune]
  | some other =>
    simp only [prune, Option.some.injEq]
    split_ifs with h
    · simp only [false_iff, not_and, not_le]
      rintro rfl
      exact h
    · rw [Option.some.injEq]
      exact ⟨fun heq => ⟨heq,heq ▸ not_lt.mp h⟩,fun heq => heq.1⟩

theorem prune_isSome (now : τ) (entry : Option τ) :
    (prune now entry).isSome = true ↔ Active entry now := by
  cases entry with
  | none => simp [prune]
  | some expiry =>
    simp only [prune, active_some]
    split_ifs with h
    · simp [h]
    · simpa using h

theorem prune_eq (now : τ) (entry entry' : Option τ)
    (h : ∀ t, now ≤ t → (Active entry t ↔ Active entry' t)) : prune now entry = prune now entry' := by
  have hsome : ∀ x y : Option τ, (∀ t, now ≤ t → (Active x t ↔ Active y t)) →
      ∀ expiry, prune now x = some expiry → prune now y = some expiry := by
    intro x y hxy expiry hx
    obtain ⟨rfl, hle⟩ := (prune_some now x expiry).mp hx
    obtain ⟨other, rfl, hother⟩ := (hxy expiry hle).mp ⟨expiry,rfl,le_refl _⟩
    have hback := (hxy other (hle.trans hother)).mpr ⟨other,rfl,le_refl _⟩
    rw [active_some] at hback
    rw [le_antisymm hback hother, prune_some]
    exact ⟨rfl,hle⟩
  refine Option.ext (fun expiry => ⟨hsome _ _ h expiry, hsome _ _ ?_ expiry⟩)
  exact fun t ht => (h t ht).symm

theorem active_latest (history : List τ) (t : τ) :
    Active (latest history) t ↔ ∃ expiry ∈ history, t ≤ expiry := by
  constructor
  · rintro ⟨expiry, hmax, hle⟩
    exact ⟨expiry,(List.max?_eq_some_iff.mp hmax).1,hle⟩
  · rintro ⟨expiry, hmem, hle⟩
    cases hmax : history.max? with
    | none => exact absurd (List.max?_eq_none_iff.mp hmax ▸ hmem) List.not_mem_nil
    | some top => exact ⟨top,hmax,hle.trans ((List.max?_eq_some_iff.mp hmax).2 expiry hmem)⟩

theorem tracks_nil (now : τ) : Tracks [] now none := by
  intro t _
  simp

variable {history : List τ} {now : τ} {entry : Option τ}

theorem Tracks.later (h : Tracks history now entry) {t : τ} (ht : now ≤ t) :
    Tracks history t entry := fun u hu => h u (ht.trans hu)

theorem Tracks.extend (h : Tracks history now entry) (expiry : τ) :
    Tracks (history++[expiry]) now (extend entry expiry) := by
  intro t ht
  rw [active_extend, h t ht]
  simp [or_and_right, exists_or]

theorem Tracks.prune (h : Tracks history now entry) : Tracks history now (prune now entry) := by
  intro t ht
  rw [active_prune now t entry ht, h t ht]

theorem Tracks.prune_latest (h : Tracks history now entry) :
    LazyExpiry.prune now entry = LazyExpiry.prune now (latest history) := by
  refine prune_eq now entry (latest history) ?_
  intro t ht
  rw [h t ht, active_latest]

end Aevia.LazyExpiry
