import Mathlib.Data.List.Rotate
import Mathlib.Data.List.TakeDrop

/-!
# Buffer buffers

A ring overwrites its cells in turn and counts those that are filled. Read from
the next cell on, a full ring is the latest values in the order in which they
came; read from the first cell on, it is the same values.
-/

set_option autoImplicit false

namespace Aevia.RingBuffer

variable {α : Type*}

structure Buffer (α : Type*) where
  cells : List α
  idx : ℕ
  n : ℕ

namespace Buffer

def empty (width : ℕ) (zero : α) : Buffer α := ⟨List.replicate width zero, 0, 0⟩

def record (r : Buffer α) (d : α) : Buffer α where
  cells := r.cells.set (r.idx%r.cells.length) d
  idx := r.idx+1
  n := if r.n < r.cells.length then r.n+1 else r.n

def samples (r : Buffer α) : List α := r.cells.take r.n

end Buffer

def latest (width : ℕ) (xs : List α) : List α := xs.drop (xs.length-width)

theorem length_latest (width : ℕ) (xs : List α) :
    (latest width xs).length = min xs.length width := by
  rw [latest, List.length_drop]
  omega

theorem latest_append_of_short (width : ℕ) (xs : List α) (d : α) (h : xs.length < width) :
    latest width (xs++[d]) = xs++[d] := by
  rw [latest, List.length_append, List.length_singleton, Nat.sub_eq_zero_of_le h, List.drop_zero]

theorem latest_append_of_long (width : ℕ) (xs : List α) (d : α) (hwidth : 0 < width)
    (h : width ≤ xs.length) : latest width (xs++[d]) = (latest width xs).tail++[d] := by
  rw [latest, List.length_append, List.length_singleton, List.drop_append_of_le_length (by omega),
    latest, List.tail_drop, show xs.length+1-width = xs.length-width+1 by omega]

theorem rotate_set (cells : List α) (i : ℕ) (d : α) (h : cells ≠ []) :
    (cells.set (i%cells.length) d).rotate (i+1) = (cells.rotate i).tail++[d] := by
  have hlt : i%cells.length < cells.length := Nat.mod_lt _ (List.length_pos_iff.mpr h)
  have hhere : (cells.set (i%cells.length) d).rotate i = d::(cells.rotate i).tail := by
    rw [List.rotate_eq_drop_append_take_mod, List.rotate_eq_drop_append_take_mod, List.length_set,
      List.drop_set, if_neg (lt_irrefl _), Nat.sub_self, List.take_set_of_le le_rfl,
      List.drop_eq_getElem_cons hlt, List.set_cons_zero]
    rfl
  rw [← List.rotate_rotate, hhere, List.rotate_cons_succ, List.rotate_zero]

structure Remembers (width : ℕ) (xs : List α) (r : Buffer α) : Prop where
  length : r.cells.length = width
  idx : r.idx = xs.length
  n : r.n = min xs.length width
  filling : xs.length ≤ width → r.cells.take xs.length = xs
  full : width ≤ xs.length → r.cells.rotate xs.length = latest width xs

theorem remembers_empty (width : ℕ) (zero : α) : Remembers width [] (Buffer.empty width zero) where
  length := List.length_replicate
  idx := rfl
  n := (Nat.zero_min width).symm
  filling := fun _ => List.take_zero
  full := fun h => by
    rw [Nat.le_zero.mp h]
    rfl

theorem remembers_record (width : ℕ) (hwidth : 0 < width) (xs : List α) (r : Buffer α) (d : α)
    (h : Remembers width xs r) : Remembers width (xs++[d]) (r.record d) := by
  have hne : r.cells ≠ [] := List.length_pos_iff.mp (by rw [h.length]; exact hwidth)
  have hlen : (xs++[d]).length = xs.length+1 := by
    rw [List.length_append, List.length_singleton]
  have hcells : (r.record d).cells = r.cells.set (xs.length%r.cells.length) d := by
    rw [Buffer.record, h.idx]
  have hlength : (r.record d).cells.length = width := by
    rw [hcells, List.length_set, h.length]
  -- While the ring fills up, the next cell is the first free one.
  have hfilling : xs.length < width → (r.record d).cells.take (xs.length+1) = xs++[d] := by
    intro hlt
    have hcell : xs.length < r.cells.length := by
      rw [h.length]
      exact hlt
    rw [hcells, Nat.mod_eq_of_lt hcell, List.set_eq_take_append_cons_drop, if_pos hcell,
      h.filling hlt.le, List.take_length_add_append, List.take_succ_cons, List.take_zero]
  refine ⟨hlength, ?_, ?_, ?_, ?_⟩
  · rw [hlen, Buffer.record, h.idx]
  · rw [hlen]
    show (if r.n < r.cells.length then r.n+1 else r.n) = _
    rw [h.n, h.length]
    split_ifs <;> omega
  · intro hle
    rw [hlen] at hle ⊢
    exact hfilling hle
  · intro hle
    rw [hlen] at hle ⊢
    rcases Nat.lt_or_ge xs.length width with hlt | hge
    · have hwhole : xs.length+1 = (r.record d).cells.length := by
        rw [hlength]
        omega
      have hcellsEq := hfilling hlt
      rw [hwhole, List.take_length] at hcellsEq
      rw [hwhole, List.rotate_length, hcellsEq, latest_append_of_short width xs d hlt]
    · rw [hcells, rotate_set _ _ _ hne, h.full hge, latest_append_of_long width xs d hwidth hge]

theorem remembers_foldl (width : ℕ) (hwidth : 0 < width) (ds xs : List α) (r : Buffer α)
    (h : Remembers width xs r) : Remembers width (xs++ds) (ds.foldl Buffer.record r) := by
  induction ds generalizing xs r with
  | nil => rwa [List.append_nil]
  | cons d ds ih =>
    have hnext := ih _ _ (remembers_record width hwidth xs r d h)
    rwa [List.append_assoc] at hnext

theorem samples_perm (width : ℕ) (xs : List α) (r : Buffer α) (h : Remembers width xs r) :
    r.samples.Perm (latest width xs) := by
  rw [Buffer.samples, h.n]
  rcases Nat.le_total xs.length width with hshort | hlong
  · rw [Nat.min_eq_left hshort, h.filling hshort, latest, Nat.sub_eq_zero_of_le hshort,
      List.drop_zero]
  · rw [Nat.min_eq_right hlong, ← h.full hlong, List.take_of_length_le h.length.le]
    exact (List.rotate_perm _ _).symm

end Aevia.RingBuffer
