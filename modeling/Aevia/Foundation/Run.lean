import Mathlib.Data.List.Induction

/-!
# Runs of a total step function

A run feeds a list of events to a step function. A guard that is checked at
every step of a run restricts the run without changing the step function, so
an invariant may be proved either for all runs or only for the guarded ones.
-/

set_option autoImplicit false

namespace Aevia.Run

variable {σ ε : Type*}

def run (next : σ → ε → σ) : σ → List ε → σ
  | s, [] => s
  | s, e::es => run next (next s e) es

/-- Every event of the run meets the guard in the state it is applied to. -/
def Along (next : σ → ε → σ) (guard : σ → ε → Prop) : σ → List ε → Prop
  | _, [] => True
  | s, e::es => guard s e ∧ Along next guard (next s e) es

instance instDecidableAlong (next : σ → ε → σ) (guard : σ → ε → Prop) [∀ s e, Decidable (guard s e)] :
    ∀ s es, Decidable (Along next guard s es)
  | _, [] => inferInstanceAs (Decidable True)
  | s, e::es =>
    have : Decidable (Along next guard (next s e) es) :=
      instDecidableAlong next guard (next s e) es
    inferInstanceAs (Decidable (guard s e ∧ Along next guard (next s e) es))

theorem run_append (next : σ → ε → σ) (s : σ) (es fs : List ε) :
    run next s (es++fs) = run next (run next s es) fs := by
  induction es generalizing s with
  | nil => rfl
  | cons e es ih => exact ih _

theorem along_append (next : σ → ε → σ) (guard : σ → ε → Prop) (s : σ) (es fs : List ε) :
    Along next guard s (es++fs) ↔
      Along next guard s es ∧ Along next guard (run next s es) fs := by
  induction es generalizing s with
  | nil => simp [Along, run]
  | cons e es ih => simp [Along, run, ih, and_assoc]

theorem along_iff (next : σ → ε → σ) (guard : σ → ε → Prop) (s : σ) (es : List ε) :
    Along next guard s es ↔
      ∀ before e, before++[e] <+: es → guard (run next s before) e := by
  constructor
  · rintro h before e ⟨after, rfl⟩
    rw [List.append_assoc, along_append] at h
    exact h.2.1
  · intro h
    induction es generalizing s with
    | nil => trivial
    | cons e es ih =>
      refine ⟨h [] e ⟨es,rfl⟩, ih _ ?_⟩
      intro before f hbefore
      exact h (e::before) f (List.cons_prefix_cons.mpr ⟨rfl,hbefore⟩)

theorem along_invariant (next : σ → ε → σ) (guard : σ → ε → Prop) (I : σ → Prop)
    (hstep : ∀ s e, I s → guard s e → I (next s e)) (s : σ) (es : List ε)
    (hs : I s) (ha : Along next guard s es) : I (run next s es) := by
  induction es generalizing s with
  | nil => exact hs
  | cons e es ih => exact ih _ (hstep s e hs ha.1) ha.2

theorem along_imp (next : σ → ε → σ) (guard P : σ → ε → Prop) (I : σ → Prop)
    (hstep : ∀ s e, I s → guard s e → I (next s e)) (hP : ∀ s e, I s → guard s e → P s e)
    (s : σ) (es : List ε) (hs : I s) (ha : Along next guard s es) : Along next P s es := by
  induction es generalizing s with
  | nil => trivial
  | cons e es ih => exact ⟨hP s e hs ha.1,ih _ (hstep s e hs ha.1) ha.2⟩

theorem run_invariant (next : σ → ε → σ) (I : σ → Prop)
    (hstep : ∀ s e, I s → I (next s e)) (s : σ) (es : List ε) (hs : I s) :
    I (run next s es) := by
  induction es generalizing s with
  | nil => exact hs
  | cons e es ih => exact ih _ (hstep s e hs)

theorem forall_mem_set {α : Type*} (P : α → Prop) (l : List α) (i : ℕ) (a : α)
    (h : ∀ b ∈ l, P b) (ha : P a) : ∀ b ∈ l.set i a, P b := by
  intro b hb
  rcases List.mem_or_eq_of_mem_set hb with hb | rfl
  · exact h b hb
  · exact ha

section History
variable (next : σ → ε → σ) (s : σ)

/-- The event happened in the run, in a state of which this holds. -/
def Happened (es : List ε) (e : ε) (P : σ → Prop) : Prop :=
  ∃ before, before++[e] <+: es ∧ P (run next s before)

variable {next s}

theorem Happened.grow {es : List ε} {e : ε} {P : σ → Prop} (h : Happened next s es e P)
    (more : List ε) : Happened next s (es++more) e P := by
  obtain ⟨before, hpre, hP⟩ := h
  exact ⟨before,hpre.trans (List.prefix_append _ _),hP⟩

theorem happened_last (es : List ε) (e : ε) (P : σ → Prop) (h : P (run next s es)) :
    Happened next s (es++[e]) e P := ⟨es,List.prefix_rfl,h⟩

theorem history_invariant (I : List ε → σ → Prop) (hs : I [] s)
    (hstep : ∀ es e, I es (run next s es) → I (es++[e]) (next (run next s es) e)) (es : List ε) :
    I es (run next s es) := by
  induction es using List.reverseRecOn with
  | nil => exact hs
  | append_singleton es e ih =>
    rw [run_append]
    exact hstep es e ih

end History

section View
variable {σ' : Type*} (next : σ → ε → σ) (next' : σ' → ε → σ') (view : σ → σ')
  (hview : ∀ s e, view (next s e) = next' (view s) e)

include hview in
theorem run_view (s : σ) (es : List ε) : view (run next s es) = run next' (view s) es := by
  induction es generalizing s with
  | nil => rfl
  | cons e es ih =>
    show view (run next (next s e) es) = run next' (next' (view s) e) es
    rw [ih, hview]

include hview in
theorem along_view (guard : σ' → ε → Prop) (s : σ) (es : List ε) :
    Along next (fun s e => guard (view s) e) s es ↔ Along next' guard (view s) es := by
  induction es generalizing s with
  | nil => rfl
  | cons e es ih =>
    show _ ∧ Along next _ (next s e) es ↔ _ ∧ Along next' guard (next' (view s) e) es
    rw [ih, hview]

end View

/-- What only an exit step can end holds up to the first exit step of the run,
or throughout the run. -/
theorem run_until (next : σ → ε → σ) (P : σ → Prop) (exit : σ → ε → Prop)
    (hstep : ∀ s e, P s → exit s e ∨ P (next s e)) (s : σ) (es : List ε) (hs : P s) :
    (∀ before, before <+: es → P (run next s before)) ∨
    ∃ before e, before++[e] <+: es ∧ exit (run next s before) e ∧
      ∀ earlier, earlier <+: before → P (run next s earlier) := by
  induction es generalizing s with
  | nil =>
    left
    intro before hbefore
    rw [List.prefix_nil.mp hbefore]
    exact hs
  | cons e es ih =>
    rcases hstep s e hs with hexit | hnext
    · right
      refine ⟨[], e, ⟨es,rfl⟩, hexit, ?_⟩
      intro earlier hearlier
      rw [List.prefix_nil.mp hearlier]
      exact hs
    · -- a nonempty prefix starts with the same event
      have hcons : ∀ fs, (∀ earlier, earlier <+: fs → P (run next (next s e) earlier)) →
          ∀ earlier, earlier <+: e::fs → P (run next s earlier) := by
        intro fs hfs earlier hearlier
        rcases List.prefix_cons_iff.mp hearlier with rfl | ⟨rest, rfl, hrest⟩
        · exact hs
        · exact hfs rest hrest
      rcases ih (next s e) hnext with hall | ⟨before, f, hpre, hexit, hbefore⟩
      · exact .inl (hcons es hall)
      · exact .inr ⟨e::before,f,List.cons_prefix_cons.mpr ⟨rfl,hpre⟩,hexit,hcons before hbefore⟩

/-- A state with what has been said on the way to it. -/
structure Logged (σ α : Type*) where
  state : σ
  log : List α

def logged {α : Type*} (next : σ → ε → σ) (emit : σ → ε → List α) (s : Logged σ α) (e : ε) :
    Logged σ α :=
  ⟨next s.state e, s.log++emit s.state e⟩

end Aevia.Run
