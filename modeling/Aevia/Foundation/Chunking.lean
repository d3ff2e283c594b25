import Mathlib.Data.List.Flatten

/-!
# A stream cut into chunks

What has arrived is a list of closed chunks, each kept or dropped, followed by
what is pending. Pushing and cutting never lose, repeat or reorder anything.
-/

set_option autoImplicit false

namespace Aevia.Chunking

variable {α : Type*}

structure Chunks (α : Type*) where
  closed : List (List α × Bool)
  pending : List α

namespace Chunks

def empty : Chunks α := ⟨[], []⟩

def contents (c : Chunks α) : List α := (c.closed.map Prod.fst).flatten++c.pending

def kept (c : Chunks α) : List (List α) := (c.closed.filter (fun x => x.2)).map Prod.fst

def dropped (c : Chunks α) : List (List α) := (c.closed.filter (fun x => !x.2)).map Prod.fst

def push (c : Chunks α) (a : α) : Chunks α := { c with pending := c.pending++[a] }

def cut (c : Chunks α) (keep : Bool) : Chunks α := ⟨c.closed++[(c.pending, keep)], []⟩

@[simp] theorem contents_push (c : Chunks α) (a : α) : (c.push a).contents = c.contents++[a] := by
  simp [push, contents]

@[simp] theorem contents_cut (c : Chunks α) (keep : Bool) : (c.cut keep).contents = c.contents := by
  simp [cut, contents]

@[simp] theorem kept_cut_true (c : Chunks α) : (c.cut true).kept = c.kept++[c.pending] := by
  simp [cut, kept]

@[simp] theorem kept_cut_false (c : Chunks α) : (c.cut false).kept = c.kept := by
  simp [cut, kept]

@[simp] theorem dropped_cut_true (c : Chunks α) : (c.cut true).dropped = c.dropped := by
  simp [cut, dropped]

@[simp] theorem dropped_cut_false (c : Chunks α) :
    (c.cut false).dropped = c.dropped++[c.pending] := by
  simp [cut, dropped]

theorem kept_sublist (c : Chunks α) : (c.kept.flatten++c.pending).Sublist c.contents := by
  apply List.Sublist.append_right
  have hclosed : (c.closed.filter (fun x => x.2)).Sublist c.closed := List.filter_sublist
  exact (hclosed.map Prod.fst).flatten

end Chunks

end Aevia.Chunking
