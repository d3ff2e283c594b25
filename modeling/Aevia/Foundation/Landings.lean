import Aevia.Foundation.StoreProgram

/-!
# Records of the batches that land

Beside a shared map a record is kept that is told of every batch that lands, by
the operation it belongs to. If all that an operation can commit, whatever it has
read, keeps a relation of map and record, the relation holds in every
interleaving: no read has to be fresh.
-/

set_option autoImplicit false

namespace Aevia.StoreProgram
open Aevia.KeyValue Aevia.Run

namespace Program
variable {κ ν ε α β : Type}

def Commits (P : List (Write κ ν) → Prop) : Program κ ν ε α → Prop
  | done _ => True
  | get _ next => ∀ v, Commits P (next v)
  | commit ws next => P ws ∧ ∀ e, Commits P (next e)

variable (P : List (Write κ ν) → Prop)

theorem commits_readOnly (p : Program κ ν ε α) (hp : ReadOnly p) : Commits P p := by
  induction p with
  | done r => trivial
  | get k next ih => exact fun v => ih v (hp v)
  | commit ws next ih => exact hp.elim

theorem commits_bind (p : Program κ ν ε α) (f : α → Program κ ν ε β) (hp : Commits P p)
    (hf : ∀ a, Commits P (f a)) : Commits P (p >>= f) := by
  induction p with
  | done r =>
    cases r with
    | ok a => exact hf a
    | error e => trivial
  | get k next ih => exact fun v => ih v (hp v)
  | commit ws next ih => exact ⟨hp.1,fun e => ih e (hp.2 e)⟩

end Program

open Program

variable {κ ν ε α τ γ : Type} [LinearOrder κ]

def landed (s : Shared κ ν ε α τ) : Event ε τ → Option τ
  | .step i none => s.calls[i]?.bind (fun c => if c.committing then some c.operation else none)
  | _ => none

structure Recorded (κ ν ε α τ γ : Type) [LinearOrder κ] where
  shared : Shared κ ν ε α τ
  entry : γ

variable (code : τ → Program κ ν ε α) (record : τ → γ → γ)

def recordedNext (s : Recorded κ ν ε α τ γ) (e : Event ε τ) : Recorded κ ν ε α τ γ :=
  ⟨next code s.shared e, (landed s.shared e).elim s.entry (fun t => record t s.entry)⟩

def Pending (P : τ → List (Write κ ν) → Prop) (s : Shared κ ν ε α τ) : Prop :=
  ∀ c ∈ s.calls, Commits (P c.operation) c.rest

theorem Call.advance_pending (P : τ → List (Write κ ν) → Prop) (fault : Option ε)
    (c : Call κ ν ε α τ) (m : Map κ ν) (hc : Commits (P c.operation) c.rest) :
    Commits (P (c.advance fault m).1.operation) (c.advance fault m).1.rest := by
  obtain ⟨operation, rest, reads⟩ := c
  cases rest with
  | done r => trivial
  | get k next => exact hc (m.get k)
  | commit ws next => cases fault with
    | none => exact hc.2 none
    | some e => exact hc.2 (some e)

theorem next_pending (P : τ → List (Write κ ν) → Prop) (hcode : ∀ t, Commits (P t) (code t))
    (s : Shared κ ν ε α τ) (e : Event ε τ) (hs : Pending P s) : Pending P (next code s e) := by
  cases e with
  | start operation =>
    intro c hc
    rcases List.mem_append.mp hc with hc | hc
    · exact hs c hc
    · rw [List.mem_singleton.mp hc]
      exact hcode operation
  | step i fault =>
    rw [next]
    cases hi : s.calls[i]? with
    | none => exact hs
    | some c =>
      intro d hd
      rcases List.mem_or_eq_of_mem_set hd with hd | rfl
      · exact hs d hd
      · exact c.advance_pending P fault s.store (hs c (List.mem_of_getElem? hi))

theorem next_landed (P : τ → List (Write κ ν) → Prop) (s : Shared κ ν ε α τ) (e : Event ε τ)
    (hs : Pending P s) :
    (landed s e = none ∧ (next code s e).store = s.store) ∨
    ∃ t ws, landed s e = some t ∧ P t ws ∧ (next code s e).store = applyBatch s.store ws := by
  cases e with
  | start operation => exact .inl ⟨rfl,rfl⟩
  | step i fault =>
    cases hi : s.calls[i]? with
    | none => cases fault <;> simp [landed, next, hi]
    | some c =>
      have hc := hs c (List.mem_of_getElem? hi)
      obtain ⟨operation, rest, reads⟩ := c
      cases rest with
      | done r => cases fault <;> simp [landed, next, hi, Call.advance, Call.committing]
      | get k after => cases fault <;> simp [landed, next, hi, Call.advance, Call.committing]
      | commit ws after => cases fault with
        | some e => simp [landed, next, hi, Call.advance]
        | none =>
          refine .inr ⟨operation, ws, ?_, hc.1, ?_⟩
          · simp [landed, hi, Call.committing]
          · simp [next, hi, Call.advance]

theorem run_landed (P : τ → List (Write κ ν) → Prop) (Inv : Map κ ν → Prop)
    (hcode : ∀ t, Commits (P t) (code t))
    (hland : ∀ t ws m, P t ws → Inv m → Inv (applyBatch m ws))
    (s : Shared κ ν ε α τ) (events : List (Event ε τ)) (hcalls : Pending P s) (hs : Inv s.store) :
    Inv (run (next code) s events).store := by
  have hinv := run_invariant (next code) (fun s => Pending P s ∧ Inv s.store) ?_ s events
    ⟨hcalls,hs⟩
  · exact hinv.2
  · rintro s e ⟨hpending, hstore⟩
    refine ⟨next_pending code P hcode s e hpending, ?_⟩
    rcases next_landed code P s e hpending with ⟨-, hsame⟩ | ⟨t, ws, -, hws, hbatch⟩
    · rwa [hsame]
    · rw [hbatch]
      exact hland t ws _ hws hstore

/-- The relation of map and record that every batch keeps holds along every
interleaving. -/
theorem run_recorded (P : τ → List (Write κ ν) → Prop) (R : Map κ ν → γ → Prop)
    (hcode : ∀ t, Commits (P t) (code t))
    (hland : ∀ t ws m g, P t ws → R m g → R (applyBatch m ws) (record t g))
    (s : Recorded κ ν ε α τ γ) (events : List (Event ε τ)) (hcalls : Pending P s.shared)
    (hs : R s.shared.store s.entry) :
    R (run (recordedNext code record) s events).shared.store
      (run (recordedNext code record) s events).entry := by
  have hinv := run_invariant (recordedNext code record)
    (fun s => Pending P s.shared ∧ R s.shared.store s.entry) ?_ s events ⟨hcalls,hs⟩
  · exact hinv.2
  · rintro s e ⟨hpending, hrel⟩
    refine ⟨next_pending code P hcode s.shared e hpending, ?_⟩
    simp only [recordedNext]
    rcases next_landed code P s.shared e hpending with ⟨hnone, hstore⟩ | ⟨t, ws, hsome, hws, hstore⟩
    · rw [hnone, hstore]
      exact hrel
    · rw [hsome, hstore]
      exact hland t ws _ _ hws hrel

end Aevia.StoreProgram
