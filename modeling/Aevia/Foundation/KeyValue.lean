import Mathlib.Algebra.BigOperators.Group.List.Basic
import Mathlib.Order.Defs.LinearOrder
import Mathlib.Data.List.Basic
import Mathlib.Tactic.Linarith

/-!
# Ordered key-value maps

A map is the list of its entries in ascending order of the keys. Writing a key
splits the list around it, so a sum over all entries changes by the new value
and the value that was there before. A batch of writes to different keys
changes it by the batch's values and the values they replace.
-/

set_option autoImplicit false

namespace Aevia.KeyValue

structure Map (κ ν : Type) [LinearOrder κ] where
  entries : List (κ × ν)
  sorted : entries.Pairwise (fun a b => a.1 < b.1)

variable {κ ν : Type} [LinearOrder κ]

namespace Map

def empty : Map κ ν := ⟨[], List.Pairwise.nil⟩

def get (m : Map κ ν) (k : κ) : Option ν := (m.entries.find? (fun e => e.1 == k)).map Prod.snd

def keys (m : Map κ ν) : List κ := m.entries.map Prod.fst

def below (m : Map κ ν) (k : κ) : List (κ × ν) := m.entries.filter (fun e => e.1 < k)
def above (m : Map κ ν) (k : κ) : List (κ × ν) := m.entries.filter (fun e => k < e.1)

theorem below_lt (m : Map κ ν) (k : κ) : ∀ e ∈ m.below k, e.1 < k := by
  simp [below]

theorem lt_above (m : Map κ ν) (k : κ) : ∀ e ∈ m.above k, k < e.1 := by
  simp [above]

theorem below_above_sorted (m : Map κ ν) (k : κ) :
    (m.below k++m.above k).Pairwise (fun a b => a.1 < b.1) := by
  refine List.pairwise_append.mpr ⟨m.sorted.filter _, m.sorted.filter _, ?_⟩
  intro a ha b hb
  exact (m.below_lt k a ha).trans (m.lt_above k b hb)

def put (m : Map κ ν) (k : κ) (v : ν) : Map κ ν where
  entries := m.below k++(k, v)::m.above k
  sorted := by
    refine List.pairwise_append.mpr ⟨m.sorted.filter _, ?_, ?_⟩
    · exact List.pairwise_cons.mpr ⟨m.lt_above k,m.sorted.filter _⟩
    · intro a ha b hb
      rcases List.mem_cons.mp hb with rfl | hb
      · exact m.below_lt k a ha
      · exact (m.below_lt k a ha).trans (m.lt_above k b hb)

def delete (m : Map κ ν) (k : κ) : Map κ ν := ⟨m.below k++m.above k, m.below_above_sorted k⟩

theorem mem_entries (m : Map κ ν) (k : κ) (v : ν) : (k, v) ∈ m.entries ↔ m.get k = some v := by
  obtain ⟨es, hes⟩ := m
  unfold get
  induction es with
  | nil => simp
  | cons e es ih =>
    rw [List.pairwise_cons] at hes
    by_cases hk : e.1 = k
    · have hnot : ∀ v, (k, v) ∉ es := by
        intro v hv
        have hlt := hes.1 (k, v) hv
        rw [hk] at hlt
        exact lt_irrefl k hlt
      rw [List.find?_cons_of_pos (by simpa using hk), List.mem_cons]
      simp only [hnot, or_false, Option.map_some, Option.some.injEq]
      constructor
      · rintro rfl
        rfl
      · rintro rfl
        rw [← hk]
    · have hne : (k, v) ≠ e := fun h => hk (by rw [← h])
      rw [List.find?_cons_of_neg (by simpa using hk), List.mem_cons]
      simp only [hne, false_or]
      exact ih hes.2

theorem mem_keys (m : Map κ ν) (k : κ) : k ∈ m.keys ↔ (m.get k).isSome := by
  rw [Option.isSome_iff_exists]
  simp only [← mem_entries, keys, List.mem_map, Prod.exists, exists_and_right, exists_eq_right]

theorem keys_sorted (m : Map κ ν) : m.keys.Pairwise (fun a b => a < b) :=
  List.pairwise_map.mpr m.sorted

theorem keys_nodup (m : Map κ ν) : m.keys.Nodup := m.keys_sorted.imp (fun h => h.ne)

theorem get_eq_iff (m m' : Map κ ν) (k k' : κ)
    (h : ∀ v, (k, v) ∈ m.entries ↔ (k', v) ∈ m'.entries) : m.get k = m'.get k' := by
  refine Option.ext (fun v => ?_)
  have hv := h v
  rw [mem_entries, mem_entries] at hv
  exact hv

theorem ext_get (m m' : Map κ ν) (h : ∀ k, m.get k = m'.get k) : m = m' := by
  have hmem : ∀ e, e ∈ m.entries ↔ e ∈ m'.entries := by
    rintro ⟨k, v⟩
    rw [mem_entries, mem_entries, h]
  have hperm : m.entries.Perm m'.entries :=
    (List.perm_ext_iff_of_nodup (m.sorted.imp (fun hlt heq => (heq ▸ hlt).false))
      (m'.sorted.imp (fun hlt heq => (heq ▸ hlt).false))).mpr hmem
  have heq : m.entries = m'.entries :=
    hperm.eq_of_pairwise (fun _ _ _ _ hab hba => (hab.asymm hba).elim) m.sorted m'.sorted
  obtain ⟨entries, _⟩ := m
  obtain ⟨entries', _⟩ := m'
  subst heq
  rfl

def Extends (m m' : Map κ ν) : Prop := ∀ k v, m.get k = some v → m'.get k = some v

theorem Extends.trans {m m' m'' : Map κ ν} (h : m.Extends m') (h' : m'.Extends m'') :
    m.Extends m'' := fun k v hk => h' k v (h k v hk)

@[simp] theorem get_empty (k : κ) : (empty : Map κ ν).get k = none := rfl

@[simp] theorem get_put (m : Map κ ν) (k k' : κ) (v : ν) :
    (m.put k v).get k' = if k' = k then some v else m.get k' := by
  split
  · rename_i hk
    rw [← mem_entries, hk]
    simp [put]
  · rename_i hk
    refine get_eq_iff _ _ _ _ (fun w => ?_)
    have hcases := lt_or_gt_of_ne hk
    simp only [put, below, above, List.mem_append, List.mem_cons, List.mem_filter,
      decide_eq_true_eq, Prod.mk.injEq, hk, false_and, false_or]
    tauto

theorem put_comm (m : Map κ ν) (k k' : κ) (h : k ≠ k') (v v' : ν) :
    (m.put k v).put k' v' = (m.put k' v').put k v := by
  refine ext_get _ _ (fun i => ?_)
  simp only [get_put]
  by_cases hi : i = k'
  · rw [if_pos hi, if_neg (fun hk => h (hk.symm.trans hi)), if_pos hi]
  · rw [if_neg hi, if_neg hi]

@[simp] theorem get_delete (m : Map κ ν) (k k' : κ) :
    (m.delete k).get k' = if k' = k then none else m.get k' := by
  split
  · rename_i hk
    rw [← Option.not_isSome_iff_eq_none, ← mem_keys, hk]
    simp [keys, delete, below, above]
  · rename_i hk
    refine get_eq_iff _ _ _ _ (fun w => ?_)
    have hcases := lt_or_gt_of_ne hk
    simp only [delete, below, above, List.mem_append, List.mem_filter, decide_eq_true_eq]
    tauto

theorem entries_split (m : Map κ ν) (k : κ) :
    m.entries = m.below k++((m.get k).toList.map (fun v => (k, v)))++m.above k := by
  obtain ⟨es, hes⟩ := m
  simp only [below, above, get]
  induction es with
  | nil => simp
  | cons e es ih =>
    rw [List.pairwise_cons] at hes
    have hrest := ih hes.2
    rcases lt_trichotomy e.1 k with h | h | h
    · rw [List.find?_cons_of_neg (by simpa using h.ne), List.filter_cons_of_pos (by simpa using h),
        List.filter_cons_of_neg (by simpa using h.le), List.cons_append, List.cons_append, ← hrest]
    · have habove : es.filter (fun e => k < e.1) = es := by
        refine List.filter_eq_self.mpr (fun a ha => ?_)
        simpa [← h] using hes.1 a ha
      have hbelow : es.filter (fun e => e.1 < k) = [] := by
        refine List.filter_eq_nil_iff.mpr (fun a ha => ?_)
        simpa [← h] using (hes.1 a ha).le
      rw [List.find?_cons_of_pos (by simpa using h), List.filter_cons_of_neg (by simp [h]),
        List.filter_cons_of_neg (by simp [h]), hbelow, habove]
      simp [← h]
    · have habove : es.filter (fun e => k < e.1) = es := by
        refine List.filter_eq_self.mpr (fun a ha => ?_)
        simpa using h.trans (hes.1 a ha)
      have hbelow : es.filter (fun e => e.1 < k) = [] := by
        refine List.filter_eq_nil_iff.mpr (fun a ha => ?_)
        simpa using (h.trans (hes.1 a ha)).le
      have hnone : es.find? (fun e => e.1 == k) = none := by
        refine List.find?_eq_none.mpr (fun a ha => ?_)
        simpa using (h.trans (hes.1 a ha)).ne'
      rw [List.find?_cons_of_neg (by simpa using h.ne'), List.filter_cons_of_neg (by simpa using h.le),
        List.filter_cons_of_pos (by simpa using h), hbelow, habove, hnone]
      rfl

section Keys
variable (m : Map κ ν)

def filter (p : κ × ν → Bool) : Map κ ν := ⟨m.entries.filter p, m.sorted.filter p⟩

theorem keys_filter (p : κ × ν → Bool) :
    ((m.filter p).keys++(m.filter (fun e => !p e)).keys).Perm m.keys := by
  rw [keys, keys, ← List.map_append]
  exact (List.filter_append_perm p m.entries).map Prod.fst

theorem keys_put (k : κ) (v : ν) (h : m.get k = none) : (m.put k v).keys.Perm (k::m.keys) := by
  have hsplit := m.entries_split k
  rw [h] at hsplit
  have hkeys : m.keys = (m.below k).map Prod.fst++(m.above k).map Prod.fst := by
    rw [keys, hsplit]
    simp
  rw [hkeys, keys, put, List.map_append, List.map_cons]
  exact List.perm_middle

theorem keys_delete (k : κ) (v : ν) (h : m.get k = some v) : m.keys.Perm (k::(m.delete k).keys) := by
  have hsplit := m.entries_split k
  rw [h] at hsplit
  have hkeys : m.keys = (m.below k).map Prod.fst++k::(m.above k).map Prod.fst := by
    rw [keys, hsplit]
    simp
  rw [hkeys, keys, delete, List.map_append]
  exact List.perm_middle

end Keys

section Total
variable (f : κ → ν → ℕ)

def total (m : Map κ ν) : ℕ := (m.entries.map (fun e => f e.1 e.2)).sum

def weight (m : Map κ ν) (k : κ) : ℕ := ((m.get k).map (f k)).getD 0

theorem total_split (m : Map κ ν) (k : κ) :
    m.total f = ((m.below k++m.above k).map (fun e => f e.1 e.2)).sum+m.weight f k := by
  have hkey : (((m.get k).toList.map (fun v => (k, v))).map (fun e => f e.1 e.2)).sum =
      m.weight f k := by
    unfold weight
    cases m.get k <;> simp
  rw [total, m.entries_split k, List.map_append, List.map_append, List.sum_append, List.sum_append,
    hkey, List.map_append, List.sum_append]
  omega

theorem total_put (m : Map κ ν) (k : κ) (v : ν) :
    (m.put k v).total f+m.weight f k = m.total f+f k v := by
  rw [m.total_split f k]
  simp only [total, put, List.map_append, List.sum_append, List.map_cons, List.sum_cons]
  omega

theorem total_delete (m : Map κ ν) (k : κ) : (m.delete k).total f+m.weight f k = m.total f := by
  rw [m.total_split f k]
  rfl

theorem total_empty : (empty : Map κ ν).total f = 0 := rfl

end Total

end Map

inductive Write (κ ν : Type) where
  | put (key : κ) (value : ν)
  | delete (key : κ)

namespace Write

def key : Write κ ν → κ
  | put k _ => k
  | delete k => k

def result : Write κ ν → Option ν
  | put _ v => some v
  | delete _ => none

def apply (m : Map κ ν) : Write κ ν → Map κ ν
  | put k v => m.put k v
  | delete k => m.delete k

theorem get_apply (m : Map κ ν) (w : Write κ ν) (k : κ) :
    (w.apply m).get k = if k = w.key then w.result else m.get k := by
  cases w with
  | put k' v => exact m.get_put k' k v
  | delete k' => exact m.get_delete k' k

end Write

def applyBatch (m : Map κ ν) (ws : List (Write κ ν)) : Map κ ν := ws.foldl (fun m w => w.apply m) m

theorem get_applyBatch_other (m : Map κ ν) (ws : List (Write κ ν)) (k : κ)
    (hk : k ∉ ws.map Write.key) : (applyBatch m ws).get k = m.get k := by
  induction ws generalizing m with
  | nil => rfl
  | cons w ws ih =>
    simp only [List.map_cons, List.mem_cons, not_or] at hk
    rw [applyBatch, List.foldl_cons]
    refine (ih (w.apply m) hk.2).trans ?_
    rw [Write.get_apply, if_neg hk.1]

theorem get_applyBatch (m : Map κ ν) (ws : List (Write κ ν)) (hws : (ws.map Write.key).Nodup)
    (w : Write κ ν) (hw : w ∈ ws) : (applyBatch m ws).get w.key = w.result := by
  induction ws generalizing m with
  | nil => cases hw
  | cons w' ws ih =>
    rw [List.map_cons, List.nodup_cons] at hws
    rw [applyBatch, List.foldl_cons]
    rcases List.mem_cons.mp hw with rfl | hw
    · refine (get_applyBatch_other _ ws w.key hws.1).trans ?_
      rw [Write.get_apply, if_pos rfl]
    · exact ih (w'.apply m) hws.2 hw

theorem total_applyBatch (f : κ → ν → ℕ) (m : Map κ ν) (ws : List (Write κ ν))
    (hws : (ws.map Write.key).Nodup) :
    (applyBatch m ws).total f+(ws.map (fun w => m.weight f w.key)).sum =
      m.total f+(ws.map (fun w => (w.result.map (f w.key)).getD 0)).sum := by
  induction ws generalizing m with
  | nil => simp [applyBatch]
  | cons w ws ih =>
    rw [List.map_cons, List.nodup_cons] at hws
    have hstep : (w.apply m).total f+m.weight f w.key =
        m.total f+(w.result.map (f w.key)).getD 0 := by
      cases w with
      | put k v => exact m.total_put f k v
      | delete k => exact m.total_delete f k
    have hsame : ws.map (fun w' => (w.apply m).weight f w'.key) =
        ws.map (fun w' => m.weight f w'.key) := by
      refine List.map_congr_left (fun w' hw' => ?_)
      have hne : w'.key ≠ w.key := fun h => hws.1 (h ▸ List.mem_map_of_mem hw')
      rw [Map.weight, Map.weight, Write.get_apply, if_neg hne]
    have hrest := ih (w.apply m) hws.2
    rw [hsame] at hrest
    rw [applyBatch, List.foldl_cons]
    change (applyBatch (w.apply m) ws).total f+_ = _
    simp only [List.map_cons, List.sum_cons]
    omega

/-- The map of a list of entries; of two for one key the later one stays. -/
def ofEntries (es : List (κ × ν)) : Map κ ν := es.foldl (fun m e => m.put e.1 e.2) Map.empty

theorem ofEntries_eq (es : List (κ × ν)) :
    ofEntries es = applyBatch Map.empty (es.map (fun e => .put e.1 e.2)) := by
  rw [ofEntries, applyBatch, List.foldl_map]
  rfl

theorem get_ofEntries (es : List (κ × ν)) (hes : (es.map Prod.fst).Nodup) (k : κ) (v : ν) :
    (ofEntries es).get k = some v ↔ (k, v) ∈ es := by
  have hkeys : (es.map (fun e => Write.put e.1 e.2)).map Write.key = es.map Prod.fst := by
    rw [List.map_map]
    rfl
  have hput : ∀ e ∈ es, (ofEntries es).get e.1 = some e.2 := by
    intro e he
    rw [ofEntries_eq]
    exact get_applyBatch Map.empty _ (by rwa [hkeys]) _ (List.mem_map_of_mem he)
  constructor
  · intro h
    by_cases hk : k ∈ es.map Prod.fst
    · obtain ⟨e, he, rfl⟩ := List.mem_map.mp hk
      rw [hput e he, Option.some.injEq] at h
      rw [← h]
      exact he
    · rw [ofEntries_eq, get_applyBatch_other Map.empty _ k (by rwa [hkeys])] at h
      cases h
  · exact fun h => hput _ h

theorem total_ofEntries (f : κ → ν → ℕ) (es : List (κ × ν)) (hes : (es.map Prod.fst).Nodup) :
    (ofEntries es).total f = (es.map (fun e => f e.1 e.2)).sum := by
  have hkeys : (es.map (fun e => Write.put e.1 e.2)).map Write.key = es.map Prod.fst := by
    rw [List.map_map]
    rfl
  have h := total_applyBatch f Map.empty (es.map (fun e => .put e.1 e.2)) (by rwa [hkeys])
  have hweights : (es.map (fun e => Write.put e.1 e.2)).map
      (fun w => (Map.empty : Map κ ν).weight f w.key) = es.map (fun _ => 0) := by
    rw [List.map_map]
    rfl
  have hzero : (es.map (fun _ => 0)).sum = 0 := by simp
  have hvalues : (es.map (fun e => Write.put e.1 e.2)).map
      (fun w => (w.result.map (f w.key)).getD 0) = es.map (fun e => f e.1 e.2) := by
    rw [List.map_map]
    rfl
  rw [hweights, hzero, hvalues, Map.total_empty] at h
  rw [ofEntries_eq]
  omega

end Aevia.KeyValue
