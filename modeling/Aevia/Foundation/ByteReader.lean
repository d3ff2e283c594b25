import Aevia.Foundation.GoError

/-!
# Readers of a byte stream

A reader takes bytes off the front of what is left of a stream, also when it
fails. A stream that ends before a full read is at its end if the read had
taken nothing yet, and cut short otherwise.
-/

set_option autoImplicit false

namespace Aevia.ByteReader

def Reader (α : Type) : Type := Bytes → Except GoError α × Bytes

variable {α β : Type}

namespace Reader

def ok (a : α) : Reader α := fun r => (.ok a, r)

def fail (e : GoError) : Reader α := fun r => (.error e, r)

def andThen (x : Reader α) (f : α → Reader β) : Reader β := fun r =>
  match x r with
  | (.ok a, rest) => f a rest
  | (.error e, rest) => (.error e, rest)

instance : Monad Reader where
  pure := ok
  bind := andThen

def context (format : String) (x : Reader α) : Reader α := fun r =>
  (GoError.context format (x r).1, (x r).2)

@[simp] theorem pure_apply (a : α) (r : Bytes) : (pure a : Reader α) r = (.ok a, r) := rfl

@[simp] theorem fail_apply (e : GoError) (r : Bytes) : (fail e : Reader α) r = (.error e, r) := rfl

theorem bind_ok (x : Reader α) (f : α → Reader β) (r rest : Bytes) (a : α)
    (h : x r = (.ok a, rest)) : (x >>= f) r = f a rest := by
  show andThen x f r = _
  rw [andThen, h]

theorem bind_error (x : Reader α) (f : α → Reader β) (r rest : Bytes) (e : GoError)
    (h : x r = (.error e, rest)) : (x >>= f) r = (.error e, rest) := by
  show andThen x f r = _
  rw [andThen, h]

theorem context_ok (format : String) (x : Reader α) (r rest : Bytes) (a : α)
    (h : x r = (.ok a, rest)) : context format x r = (.ok a, rest) := by
  rw [context, h]
  rfl

theorem context_error (format : String) (x : Reader α) (r rest : Bytes) (e : GoError)
    (h : x r = (.error e, rest)) : context format x r = (.error (.wrap format [] e), rest) := by
  rw [context, h]
  rfl

end Reader

/-- `io.EOF` -/
def eof : GoError := .new "EOF"

/-- `io.ErrUnexpectedEOF` -/
def unexpectedEOF : GoError := .new "unexpected EOF"

/-- `io.ReadFull` of a buffer of `n` bytes. -/
def readFull (n : ℕ) : Reader Bytes := fun r =>
  if n ≤ r.length then (.ok (r.take n), r.drop n)
  else (.error (if r = [] then eof else unexpectedEOF), [])

theorem readFull_append (n : ℕ) (b rest : Bytes) (hb : b.length = n) :
    readFull n (b++rest) = (.ok b, rest) := by
  subst hb
  rw [readFull, if_pos (by rw [List.length_append]; exact Nat.le_add_right _ _), List.take_left,
    List.drop_left]

theorem readFull_short (n : ℕ) (r : Bytes) (h : r.length < n) :
    readFull n r = (.error (if r = [] then eof else unexpectedEOF), []) := by
  rw [readFull, if_neg (by omega)]

/-- What a loop that reads up to the first error gets: the results, the error,
and what is left unread. -/
inductive Drains (read : Reader α) : Bytes → List α → GoError → Bytes → Prop where
  | stop {r rest : Bytes} {e : GoError} : read r = (.error e, rest) → Drains read r [] e rest
  | more {r next rest : Bytes} {a : α} {as : List α} {e : GoError} :
      read r = (.ok a, next) → Drains read next as e rest → Drains read r (a::as) e rest

section Drains
variable (read : Reader α)

theorem Drains.unique {read : Reader α} {r rest rest' : Bytes} {as as' : List α} {e e' : GoError}
    (h : Drains read r as e rest) (h' : Drains read r as' e' rest') :
    as = as' ∧ e = e' ∧ rest = rest' := by
  induction h generalizing as' with
  | stop hread =>
    cases h' with
    | stop hread' =>
      rw [hread] at hread'
      cases hread'
      exact ⟨rfl,rfl,rfl⟩
    | more hread' _ =>
      rw [hread] at hread'
      cases hread'
  | more hread _ ih =>
    cases h' with
    | stop hread' =>
      rw [hread] at hread'
      cases hread'
    | more hread' hrest =>
      rw [hread] at hread'
      cases hread'
      obtain ⟨has, he, hleft⟩ := ih hrest
      exact ⟨by rw [has],he,hleft⟩

/-- What is written item by item, each in a form that the reader can tell from
what follows, is read item by item. -/
theorem drains_append (encode : β → Bytes) (item : β → α) (items : List β)
    (hread : ∀ b ∈ items, ∀ rest, read (encode b++rest) = (.ok (item b), rest))
    (r : Bytes) (as : List α) (e : GoError) (rest : Bytes) (h : Drains read r as e rest) :
    Drains read (items.flatMap encode++r) (items.map item++as) e rest := by
  induction items with
  | nil => exact h
  | cons b items ih =>
    rw [List.flatMap_cons, List.append_assoc]
    apply Drains.more (hread b (by simp) _)
    exact ih (fun c hc => hread c (by simp [hc]))

end Drains

end Aevia.ByteReader
