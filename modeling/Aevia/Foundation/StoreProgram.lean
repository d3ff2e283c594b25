import Aevia.Foundation.KeyValue
import Aevia.Foundation.Run

/-!
# Calls on a shared map

A call reads keys one at a time and ends with one atomic batch. Several calls
in flight take their steps in any order. A batch that is committed while all
the reads of its call still hold has the effect of the whole call run alone at
that moment, so an invariant of the calls run one at a time survives every
interleaving in which this is so.
-/

set_option autoImplicit false

namespace Aevia.StoreProgram
open Aevia.KeyValue

/-- A fallible computation with reads and batches; each is one atomic step. -/
inductive Program (κ ν ε α : Type) where
  | done (result : Except ε α)
  | get (key : κ) (next : Option ν → Program κ ν ε α)
  | commit (writes : List (Write κ ν)) (next : Option ε → Program κ ν ε α)

namespace Program
variable {κ ν ε α β : Type}

def bind : Program κ ν ε α → (α → Program κ ν ε β) → Program κ ν ε β
  | done (.ok a), f => f a
  | done (.error e), _ => done (.error e)
  | get k next, f => get k (fun v => (next v).bind f)
  | commit ws next, f => commit ws (fun e => (next e).bind f)

instance : Monad (Program κ ν ε) where
  pure := fun a => done (.ok a)
  bind := bind

def fail (e : ε) : Program κ ν ε α := done (.error e)

def attempt : Program κ ν ε α → Program κ ν ε (Except ε α)
  | done r => done (.ok r)
  | get k next => get k (fun v => (next v).attempt)
  | commit ws next => commit ws (fun e => (next e).attempt)

def ReadOnly : Program κ ν ε α → Prop
  | done _ => True
  | get _ next => ∀ v, ReadOnly (next v)
  | commit _ _ => False

def SingleCommit : Program κ ν ε α → Prop
  | done _ => True
  | get _ next => ∀ v, SingleCommit (next v)
  | commit _ next => ∀ e, ∃ r, next e = done r

theorem readOnly_bind (p : Program κ ν ε α) (f : α → Program κ ν ε β) (hp : ReadOnly p)
    (hf : ∀ a, ReadOnly (f a)) : ReadOnly (p >>= f) := by
  induction p with
  | done r =>
    cases r with
    | ok a => exact hf a
    | error e => trivial
  | get k next ih => exact fun v => ih v (hp v)
  | commit ws next ih => exact hp.elim

theorem readOnly_attempt (p : Program κ ν ε α) (hp : ReadOnly p) : ReadOnly p.attempt := by
  induction p with
  | done r => trivial
  | get k next ih => exact fun v => ih v (hp v)
  | commit ws next ih => exact hp.elim

theorem singleCommit_bind (p : Program κ ν ε α) (f : α → Program κ ν ε β) (hp : ReadOnly p)
    (hf : ∀ a, SingleCommit (f a)) : SingleCommit (p >>= f) := by
  induction p with
  | done r =>
    cases r with
    | ok a => exact hf a
    | error e => trivial
  | get k next ih => exact fun v => ih v (hp v)
  | commit ws next ih => exact hp.elim

variable [LinearOrder κ]

/-- The program run without interruption; `fault` is what the database answers
to a batch. A refused batch writes nothing. -/
def runAlone (fault : Option ε) : Program κ ν ε α → Map κ ν → Except ε α × Map κ ν
  | done r, m => (r, m)
  | get k next, m => runAlone fault (next (m.get k)) m
  | commit ws next, m =>
    match fault with
    | none => runAlone fault (next none) (applyBatch m ws)
    | some e => runAlone fault (next (some e)) m

theorem runAlone_bind (fault : Option ε) (p : Program κ ν ε α) (f : α → Program κ ν ε β)
    (m : Map κ ν) : runAlone fault (p >>= f) m =
      match runAlone fault p m with
      | (.ok a, m') => runAlone fault (f a) m'
      | (.error e, m') => (.error e, m') := by
  induction p generalizing m with
  | done r => cases r <;> rfl
  | get k next ih => exact ih _ m
  | commit ws next ih =>
    cases fault with
    | none => exact ih none (applyBatch m ws)
    | some e => exact ih (some e) m

theorem runAlone_attempt (fault : Option ε) (p : Program κ ν ε α) (m : Map κ ν) :
    runAlone fault p.attempt m =
      (.ok (runAlone fault p m).1, (runAlone fault p m).2) := by
  induction p generalizing m with
  | done r => rfl
  | get k next ih => exact ih _ m
  | commit ws next ih =>
    cases fault with
    | none => exact ih none (applyBatch m ws)
    | some e => exact ih (some e) m

def read (p : Program κ ν ε α) (m : Map κ ν) : Except ε α := (runAlone none p m).1

theorem runAlone_readOnly (fault : Option ε) (p : Program κ ν ε α) (hp : ReadOnly p)
    (m : Map κ ν) : runAlone fault p m = (p.read m, m) := by
  induction p with
  | done r => rfl
  | get k next ih => exact ih _ (hp _)
  | commit ws next ih => exact hp.elim

theorem runAlone_read_bind (fault : Option ε) (p : Program κ ν ε α) (f : α → Program κ ν ε β)
    (hp : ReadOnly p) (m : Map κ ν) : runAlone fault (p >>= f) m =
      match p.read m with
      | .ok a => runAlone fault (f a) m
      | .error e => (.error e, m) := by
  rw [runAlone_bind, runAlone_readOnly fault p hp]
  cases p.read m <;> rfl

theorem read_bind (p : Program κ ν ε α) (f : α → Program κ ν ε β) (hp : ReadOnly p)
    (m : Map κ ν) : (p >>= f).read m = (p.read m) >>= (fun a => (f a).read m) := by
  rw [read, runAlone_read_bind none p f hp]
  cases p.read m <;> rfl

theorem read_attempt (p : Program κ ν ε α) (m : Map κ ν) :
    p.attempt.read m = .ok (p.read m) := by
  rw [read, runAlone_attempt, read]

/-- The program run while others write: one batch of theirs lands before each
read, what is left lands after the last step. -/
def runAmid : Program κ ν ε α → List (List (Write κ ν)) → Map κ ν → Except ε α × Map κ ν
  | done r, others, m => (r, others.foldl applyBatch m)
  | get k next, [], m => runAmid (next (m.get k)) [] m
  | get k next, b::others, m =>
    runAmid (next ((applyBatch m b).get k)) others (applyBatch m b)
  | commit ws next, others, m => runAmid (next none) others (applyBatch m ws)

theorem runAmid_store (p : Program κ ν ε α) (hp : ReadOnly p) (others : List (List (Write κ ν)))
    (m : Map κ ν) : (runAmid p others m).2 = others.foldl applyBatch m := by
  induction p generalizing others m with
  | done r => rfl
  | get k next ih =>
    cases others with
    | nil => exact ih _ (hp _) [] m
    | cons b others => exact ih _ (hp _) others (applyBatch m b)
  | commit ws next ih => exact hp.elim

def Hits : Program κ ν ε α → Map κ ν → Prop
  | done _, _ => True
  | get k next, m => ∃ v, m.get k = some v ∧ Hits (next (some v)) m
  | commit _ _, _ => False

theorem hits_bind (p : Program κ ν ε α) (f : α → Program κ ν ε β) (m : Map κ ν)
    (hp : Hits p m) (hf : ∀ a, p.read m = .ok a → Hits (f a) m) : Hits (p >>= f) m := by
  induction p with
  | done r =>
    cases r with
    | ok a => exact hf a rfl
    | error e => trivial
  | get k next ih =>
    obtain ⟨v, hv, hnext⟩ := hp
    refine ⟨v, hv, ih (some v) hnext (fun a ha => hf a ?_)⟩
    rw [read, runAlone, hv]
    exact ha
  | commit ws next ih => exact hp.elim

theorem runAmid_read (p : Program κ ν ε α) (others : List (List (Write κ ν))) (m₀ m : Map κ ν)
    (hhits : Hits p m₀) (hm : m₀.Extends m)
    (hothers : Run.Along applyBatch (fun m b => m.Extends (applyBatch m b)) m others) :
    (runAmid p others m).1 = p.read m₀ := by
  induction p generalizing others m with
  | done r => rfl
  | get k next ih =>
    obtain ⟨v, hv, hnext⟩ := hhits
    have hread : (Program.get k next).read m₀ = (next (some v)).read m₀ := by
      rw [read, runAlone, hv]
      rfl
    rw [hread]
    cases others with
    | nil =>
      rw [runAmid, hm k v hv]
      exact ih _ [] m hnext hm trivial
    | cons b others =>
      have hb : m₀.Extends (applyBatch m b) := fun k v hk => hothers.1 k v (hm k v hk)
      rw [runAmid, hb k v hv]
      exact ih _ others _ hnext hb hothers.2
  | commit ws next ih => exact hhits.elim

end Program

open Program

section Interleaving
variable {κ ν ε α τ : Type} [LinearOrder κ]

/-- A call in flight: what was called, what is left to do, and what it has read. -/
structure Call (κ ν ε α τ : Type) where
  operation : τ
  rest : Program κ ν ε α
  reads : List (κ × Option ν)

structure Shared (κ ν ε α τ : Type) [LinearOrder κ] where
  store : Map κ ν
  calls : List (Call κ ν ε α τ)

/-- A call begins, or the call at an index takes its next atomic step. -/
inductive Event (ε τ : Type) where
  | start (operation : τ)
  | step (index : ℕ) (fault : Option ε)

variable (code : τ → Program κ ν ε α)

def Call.advance (fault : Option ε) (c : Call κ ν ε α τ) (m : Map κ ν) :
    Call κ ν ε α τ × Map κ ν :=
  match c.rest with
  | .done _ => (c, m)
  | .get k next => ({ c with rest := next (m.get k), reads := (k, m.get k)::c.reads }, m)
  | .commit ws next =>
    match fault with
    | none => ({ c with rest := next none }, applyBatch m ws)
    | some e => ({ c with rest := next (some e) }, m)

def next (s : Shared κ ν ε α τ) : Event ε τ → Shared κ ν ε α τ
  | .start operation => { s with calls := s.calls++[⟨operation, code operation, []⟩] }
  | .step i fault =>
    match s.calls[i]? with
    | none => s
    | some c => ⟨(c.advance fault s.store).2, s.calls.set i (c.advance fault s.store).1⟩

def Call.Fresh (c : Call κ ν ε α τ) (m : Map κ ν) : Prop := ∀ r ∈ c.reads, m.get r.1 = r.2

inductive Follows (p : Program κ ν ε α) : List (κ × Option ν) → Program κ ν ε α → Prop
  | refl : Follows p [] p
  | read (log : List (κ × Option ν)) (k : κ) (next : Option ν → Program κ ν ε α) (v : Option ν)
      (h : Follows p log (.get k next)) : Follows p ((k, v)::log) (next v)

theorem Follows.runAlone_eq {p q : Program κ ν ε α} {log : List (κ × Option ν)}
    (h : Follows p log q) (fault : Option ε) (m : Map κ ν) (hfresh : ∀ r ∈ log, m.get r.1 = r.2) :
    runAlone fault p m = runAlone fault q m := by
  induction h with
  | refl => rfl
  | read log k next v h ih =>
    rw [ih (fun r hr => hfresh r (List.mem_cons_of_mem _ hr)), runAlone,
      hfresh (k, v) List.mem_cons_self]

omit [LinearOrder κ] in
theorem Follows.singleCommit {p q : Program κ ν ε α} {log : List (κ × Option ν)}
    (h : Follows p log q) (hp : SingleCommit p) : SingleCommit q := by
  induction h with
  | refl => exact hp
  | read log k next v h ih => exact ih v

def Call.Proper (c : Call κ ν ε α τ) : Prop :=
  Follows (code c.operation) c.reads c.rest ∨ ∃ r, c.rest = .done r

theorem Call.advance_proper (hsingle : ∀ t, SingleCommit (code t)) (fault : Option ε)
    (c : Call κ ν ε α τ) (m : Map κ ν) (hc : c.Proper code) :
    (c.advance fault m).1.Proper code := by
  obtain ⟨operation, rest, reads⟩ := c
  rcases hc with hc | ⟨r, rfl⟩
  · cases rest with
    | done r => exact Or.inr ⟨r,rfl⟩
    | get k next => exact Or.inl (.read reads k next (m.get k) hc)
    | commit ws next =>
      have hend := hc.singleCommit (hsingle operation)
      cases fault with
      | none => exact Or.inr (hend none)
      | some e => exact Or.inr (hend (some e))
  · exact Or.inr ⟨r,rfl⟩

/-- What must hold when the event is a batch that goes through: the call's
reads are fresh and the operation meets its own condition. -/
def CommitsMeet (Pre : τ → Map κ ν → Prop) (s : Shared κ ν ε α τ) : Event ε τ → Prop
  | .start _ => True
  | .step i fault => ∀ c ws next, s.calls[i]? = some c → c.rest = .commit ws next → fault = none →
      c.Fresh s.store ∧ Pre c.operation s.store

def Call.committing (c : Call κ ν ε α τ) : Bool :=
  match c.rest with
  | .commit _ _ => true
  | _ => false

theorem commitsMeet_of_reading (Pre : τ → Map κ ν → Prop) (s : Shared κ ν ε α τ) (i : ℕ)
    (fault : Option ε) (h : (s.calls[i]?.map Call.committing).getD false = false) :
    CommitsMeet Pre s (.step i fault) := by
  intro c ws next hc hrest _
  rw [hc, Option.map_some, Option.getD_some, Call.committing, hrest] at h
  cases h

structure Sound (Inv : Map κ ν → Prop) (s : Shared κ ν ε α τ) : Prop where
  proper : ∀ c ∈ s.calls, c.Proper code
  store : Inv s.store

theorem next_sound (hsingle : ∀ t, SingleCommit (code t)) (Inv : Map κ ν → Prop)
    (Pre : τ → Map κ ν → Prop)
    (hserial : ∀ t m, Inv m → Pre t m → Inv (runAlone none (code t) m).2)
    (s : Shared κ ν ε α τ) (e : Event ε τ) (hs : Sound code Inv s) (he : CommitsMeet Pre s e) :
    Sound code Inv (next code s e) := by
  cases e with
  | start operation =>
    refine ⟨fun c hc => ?_, hs.store⟩
    rcases List.mem_append.mp hc with hc | hc
    · exact hs.proper c hc
    · rw [List.mem_singleton.mp hc]
      exact Or.inl .refl
  | step i fault =>
    cases hi : s.calls[i]? with
    | none =>
      simp only [next, hi]
      exact hs
    | some c =>
      have hc := hs.proper c (List.mem_of_getElem? hi)
      simp only [next, hi]
      refine ⟨fun d hd => ?_, ?_⟩
      · rcases List.mem_or_eq_of_mem_set hd with hd | rfl
        · exact hs.proper d hd
        · exact c.advance_proper code hsingle fault s.store hc
      · change Inv (c.advance fault s.store).2
        unfold Call.advance
        split
        · exact hs.store
        · exact hs.store
        · rename_i ws after hrest
          cases fault with
          | some e => exact hs.store
          | none =>
            obtain ⟨hfresh, hpre⟩ := he c ws after hi hrest rfl
            have hfollows : Follows (code c.operation) c.reads (.commit ws after) := by
              rcases hc with hc | ⟨r, hr⟩
              · rwa [hrest] at hc
              · rw [hrest] at hr
                cases hr
            -- The batch is the last step, so it has the effect of the whole call.
            obtain ⟨r, hr⟩ := hfollows.singleCommit (hsingle c.operation) none
            have hrun := hfollows.runAlone_eq none s.store hfresh
            rw [runAlone, hr] at hrun
            have hinv := hserial c.operation s.store hs.store hpre
            rw [hrun] at hinv
            exact hinv

/-- The invariant of serial execution holds along every interleaving whose
batches are committed on fresh reads. -/
theorem run_sound (hsingle : ∀ t, SingleCommit (code t)) (Inv : Map κ ν → Prop)
    (Pre : τ → Map κ ν → Prop)
    (hserial : ∀ t m, Inv m → Pre t m → Inv (runAlone none (code t) m).2)
    (s : Shared κ ν ε α τ) (events : List (Event ε τ)) (hs : Sound code Inv s)
    (hmeet : Run.Along (next code) (CommitsMeet Pre) s events) :
    Sound code Inv (Run.run (next code) s events) :=
  Run.along_invariant (next code) (CommitsMeet Pre) (Sound code Inv)
    (next_sound code hsingle Inv Pre hserial) s events hs hmeet

end Interleaving

end Aevia.StoreProgram
