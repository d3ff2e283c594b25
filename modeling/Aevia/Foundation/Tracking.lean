import Mathlib.Data.List.Basic
import Mathlib.Logic.Function.Basic

/-!
# Tables that track what runs

A table binds names to numbered agents that each have a name and a phase. It
tracks them in some of the phases if a name is bound to exactly the agent of
that name that is in one of these. An agent that enters such a phase has to be
bound under a name that is free, and one that leaves it to be unbound.
-/

set_option autoImplicit false

namespace Aevia.Tracking

variable {κ φ : Type*}

structure Agent (κ φ : Type*) where
  name : κ
  phase : φ
  deriving DecidableEq

abbrev Table (κ : Type*) := κ → Option ℕ

def Tracks (P : φ → Bool) (m : Table κ) (agents : List (Agent κ φ)) : Prop :=
  ∀ name k, m name = some k ↔ ∃ a, agents[k]? = some a ∧ a.name = name ∧ P a.phase = true

def move (agents : List (Agent κ φ)) (k : ℕ) (a : Agent κ φ) (phase : φ) : List (Agent κ φ) :=
  agents.set k { a with phase := phase }

variable (P : φ → Bool) (m : Table κ) (agents : List (Agent κ φ))

theorem tracks_nil : Tracks P (fun _ => none : Table κ) [] := by
  intro name k
  simp

theorem tracks_arrive (h : Tracks P m agents) (a : Agent κ φ) (ha : P a.phase = false) :
    Tracks P m (agents++[a]) := by
  intro name k
  rw [h name k]
  constructor
  · rintro ⟨b, hb, hrest⟩
    have hk : k < agents.length := (List.getElem?_eq_some_iff.mp hb).1
    exact ⟨b,(List.getElem?_append_left hk).trans hb,hrest⟩
  · rintro ⟨b, hb, hname, hphase⟩
    refine ⟨b, ?_, hname, hphase⟩
    by_cases hk : k < agents.length
    · rwa [List.getElem?_append_left hk] at hb
    · rw [List.getElem?_append_right (Nat.le_of_not_lt hk)] at hb
      have hba : b = a := by
        rw [← List.mem_singleton]
        exact List.mem_of_getElem? hb
      rw [hba, ha] at hphase
      cases hphase

section Moves
variable (k : ℕ) (a : Agent κ φ) (phase : φ) (ha : agents[k]? = some a)

include ha in
theorem move_self : (move agents k a phase)[k]? = some { a with phase := phase } := by
  have hk : k < agents.length := (List.getElem?_eq_some_iff.mp ha).1
  rw [move, List.getElem?_set_self hk]

theorem move_other (j : ℕ) (hj : j ≠ k) : (move agents k a phase)[j]? = agents[j]? := by
  rw [move, List.getElem?_set_ne (Ne.symm hj)]

include ha in
theorem tracks_move (h : Tracks P m agents) (hsame : P phase = P a.phase) :
    Tracks P m (move agents k a phase) := by
  intro name j
  rw [h name j]
  by_cases hj : j = k
  · subst hj
    rw [move_self agents j a phase ha, ha]
    constructor
    · rintro ⟨b, hb, hname, hphase⟩
      cases hb
      exact ⟨_,rfl,hname,hsame.trans hphase⟩
    · rintro ⟨b, hb, hname, hphase⟩
      cases hb
      exact ⟨_,rfl,hname,hsame.symm.trans hphase⟩
  · rw [move_other agents k a phase j hj]

variable [DecidableEq κ]

include ha in
theorem tracks_bind (h : Tracks P m agents) (hafter : P phase = true) (hfree : m a.name = none) :
    Tracks P (Function.update m a.name (some k)) (move agents k a phase) := by
  intro name j
  by_cases hj : j = k
  · subst hj
    rw [move_self agents j a phase ha]
    by_cases hname : name = a.name
    · subst hname
      rw [Function.update_self]
      exact iff_of_true rfl ⟨_,rfl,rfl,hafter⟩
    · rw [Function.update_of_ne hname, h name j, ha]
      constructor
      · rintro ⟨b, hb, hb', -⟩
        cases hb
        exact absurd hb'.symm hname
      · rintro ⟨b, hb, hb', -⟩
        cases hb
        exact absurd hb'.symm hname
  · rw [move_other agents k a phase j hj, ← h name j]
    by_cases hname : name = a.name
    · subst hname
      rw [Function.update_self, hfree]
      exact iff_of_false (fun hk => hj (Option.some.inj hk).symm) (fun hk => nomatch hk)
    · rw [Function.update_of_ne hname]

include ha in
theorem tracks_unbind (h : Tracks P m agents) (hbefore : P a.phase = true) (hafter : P phase = false) :
    Tracks P (Function.update m a.name none) (move agents k a phase) := by
  have hbound : m a.name = some k := (h a.name k).mpr ⟨a,ha,rfl,hbefore⟩
  intro name j
  by_cases hj : j = k
  · subst hj
    rw [move_self agents j a phase ha]
    refine iff_of_false ?_ ?_
    · by_cases hname : name = a.name
      · rw [hname, Function.update_self]
        exact fun hk => nomatch hk
      · rw [Function.update_of_ne hname, h name j, ha]
        rintro ⟨b, hb, hb', -⟩
        cases hb
        exact hname hb'.symm
    · rintro ⟨b, hb, -, hphase⟩
      cases hb
      rw [hafter] at hphase
      cases hphase
  · rw [move_other agents k a phase j hj, ← h name j]
    by_cases hname : name = a.name
    · rw [hname, Function.update_self, hbound]
      exact iff_of_false (fun hk => nomatch hk) (fun hk => hj (Option.some.inj hk).symm)
    · rw [Function.update_of_ne hname]

end Moves

theorem tracks_narrower (Q : φ → Bool) (m' : Table κ) (hP : Tracks P m agents)
    (hQ : Tracks Q m' agents) (hsub : ∀ phase, Q phase = true → P phase = true) (name : κ) (k : ℕ)
    (h : m' name = some k) : m name = some k := by
  obtain ⟨a, ha, hname, hphase⟩ := (hQ name k).mp h
  exact (hP name k).mpr ⟨a,ha,hname,hsub a.phase hphase⟩

end Aevia.Tracking
