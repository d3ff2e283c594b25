import Aevia.Foundation.Fallible
import Aevia.Foundation.GoError
import Aevia.Foundation.StoreProgram
import Mathlib.Data.List.Infix

/-!
# The key-value store of a provider node

The store as an ordered map of byte strings. Reads of a healthy database only
ever miss a key; a write transaction may be refused and then changes nothing.
-/

set_option autoImplicit false

namespace Aevia.Storage
open Aevia.Bytes Aevia.KeyValue Aevia.StoreProgram

abbrev Database := Map Bytes Bytes
abbrev Call (α : Type) := Program Bytes Bytes GoError α

def errNotFound : GoError := .new "storage: key not found"

def get (key : Bytes) : Call Bytes :=
  .get key (fun v => match v with
    | some v => pure v
    | none => Program.fail errNotFound)

def has (key : Bytes) : Call Bool := .get key (fun v => pure v.isSome)

/-- Every write of the batch lands or none of them does. -/
def writeBatch (writes : List (Write Bytes Bytes)) : Call Unit :=
  .commit writes (fun e => match e with
    | none => pure ()
    | some e => Program.fail e)

def put (key val : Bytes) : Call Unit := writeBatch [.put key val]

def delete (key : Bytes) : Call Unit := writeBatch [.delete key]

/-- The keys with a prefix in ascending order, read in one transaction. -/
def listKeysWithPrefix (db : Database) ( keyPrefix : Bytes) : List Bytes :=
  db.keys.filter (fun k => keyPrefix.isPrefixOf k)

theorem get_readOnly (key : Bytes) : (get key).ReadOnly := by
  intro v
  cases v <;> trivial

theorem get_hits (key v : Bytes) (db : Database) (h : db.get key = some v) : (get key).Hits db :=
  ⟨v,h,trivial⟩

theorem read_get (key : Bytes) (db : Database) :
    (get key).read db = match db.get key with
      | some v => .ok v
      | none => .error errNotFound := by
  unfold Program.read get
  rw [Program.runAlone]
  cases db.get key <;> rfl

theorem read_get_ok (key v : Bytes) (db : Database) :
    (get key).read db = .ok v ↔ db.get key = some v := by
  rw [read_get]
  cases db.get key <;> simp

theorem writeBatch_singleCommit (writes : List (Write Bytes Bytes)) :
    (writeBatch writes).SingleCommit := by
  intro e
  cases e with
  | none => exact ⟨.ok (),rfl⟩
  | some e => exact ⟨.error e,rfl⟩

theorem runAlone_writeBatch (fault : Option GoError) (writes : List (Write Bytes Bytes))
    (db : Database) : (writeBatch writes).runAlone fault db = match fault with
      | none => (.ok (), applyBatch db writes)
      | some e => (.error e, db) := by
  cases fault <;> rfl

end Aevia.Storage
