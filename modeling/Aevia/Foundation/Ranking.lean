import Mathlib.Data.List.Sort
import Mathlib.Data.List.Nodup
import Mathlib.Data.List.Pairwise
import Mathlib.Order.Defs.LinearOrder

/-!
# Ranking and the first few of a ranking

A stable sort by a comparison of keys. With distinct keys there is one sorted
order, so sorting forgets the order of its input and goes through filters. Who
cuts a ranking to its first few and drops the unusable ones among them gets the
first usable ones of another ranking only if no unusable one takes a place and
the rankings agree on the first; at every length, only if the unusable ones come
last and the rankings agree throughout.
-/

set_option autoImplicit false

namespace Aevia.Ranking

variable {α β β' γ δ : Type*} [LinearOrder β] [LinearOrder β']

def sliceStable (less : α → α → Bool) (l : List α) : List α :=
  l.insertionSort (fun a b => less b a = false)

def ByKey (less : α → α → Bool) (key : α → β) : Prop := ∀ a b, less a b = true ↔ key a < key b

theorem sliceStable_perm (less : α → α → Bool) (l : List α) : (sliceStable less l).Perm l :=
  List.perm_insertionSort _ l

theorem mem_sliceStable (less : α → α → Bool) (l : List α) (a : α) :
    a ∈ sliceStable less l ↔ a ∈ l :=
  (sliceStable_perm less l).mem_iff

theorem map_sliceStable (less : α → α → Bool) (less' : δ → δ → Bool) (f : α → δ)
    (h : ∀ a b, less a b = less' (f a) (f b)) (l : List α) :
    (sliceStable less l).map f = sliceStable less' (l.map f) :=
  List.map_insertionSort _ _ f l (fun a _ b _ => by rw [h])

theorem forall_of_sorted (key : α → β) (l : List α) (hsorted : l.Pairwise (fun a b => key a ≤ key b))
    (R : α → α → Prop) (h : l.Pairwise R) : ∀ a ∈ l, ∀ b ∈ l, key a < key b → R a b := by
  intro a ha b hb hlt
  let either : α → α → Prop := fun a b => (key a ≤ key b ∧ R a b) ∨ (key b ≤ key a ∧ R b a)
  have hsymm : Std.Symm either := ⟨fun _ _ h => Or.symm h⟩
  have heither : l.Pairwise either := (List.pairwise_and_iff.mpr ⟨hsorted,h⟩).imp Or.inl
  rcases heither.forall ha hb (fun hab => (hab ▸ hlt).false) with ⟨-, hR⟩ | ⟨hle, -⟩
  · exact hR
  · exact absurd hlt (not_lt.mpr hle)

theorem take_cut_append (k : ℕ) (l rest : List α) (h : l.length < k → rest = []) :
    (l.take k++rest).take k = l.take k := by
  rcases Nat.lt_or_ge l.length k with hshort | hlong
  · rw [h hshort, List.append_nil, List.take_take, Nat.min_self]
  · exact List.take_left' (List.length_take_of_le hlong)

def place (less : α → α → Bool) (l : List α) (a : α) : ℕ := l.countP (fun b => less b a)

section Keys
variable (less : α → α → Bool) (key : α → β) (hless : ByKey less key)

include hless in
theorem ByKey.eq_false (a b : α) : less b a = false ↔ key a ≤ key b := by
  rw [← Bool.not_eq_true, hless, not_lt]

include hless in
theorem sliceStable_sorted (l : List α) :
    (sliceStable less l).Pairwise (fun a b => key a ≤ key b) := by
  have htotal : Std.Total (fun a b => less b a = false) := ⟨fun a b => by
    rw [hless.eq_false, hless.eq_false]
    exact le_total _ _⟩
  have htrans : IsTrans α (fun a b => less b a = false) := ⟨fun a b c => by
    rw [hless.eq_false, hless.eq_false, hless.eq_false]
    exact le_trans⟩
  exact (List.pairwise_insertionSort (fun a b => less b a = false) l).imp
    (fun h => (hless.eq_false less key _ _).mp h)

variable (l : List α) (hkeys : (l.map key).Nodup)

include hless hkeys

theorem sliceStable_unique (l' : List α) (hperm : l'.Perm l)
    (hsorted : l'.Pairwise (fun a b => key a ≤ key b)) : sliceStable less l = l' := by
  refine ((sliceStable_perm less l).trans hperm.symm).eq_of_pairwise ?_
    (sliceStable_sorted less key hless l) hsorted
  intro a b ha hb hab hba
  exact List.inj_on_of_nodup_map hkeys ((mem_sliceStable less l a).mp ha) (hperm.mem_iff.mp hb)
    (le_antisymm hab hba)

theorem sliceStable_of_perm (l' : List α) (hperm : l'.Perm l) :
    sliceStable less l' = sliceStable less l :=
  (sliceStable_unique less key hless l hkeys _ ((sliceStable_perm less l').trans hperm)
    (sliceStable_sorted less key hless l')).symm

theorem filter_sliceStable (p : α → Bool) :
    (sliceStable less l).filter p = sliceStable less (l.filter p) := by
  refine (sliceStable_unique less key hless (l.filter p) ?_ _ ?_ ?_).symm
  · exact hkeys.sublist (List.filter_sublist.map key)
  · exact (sliceStable_perm less l).filter p
  · exact (sliceStable_sorted less key hless l).filter p

theorem pairwise_sliceStable (R : α → α → Prop) :
    (sliceStable less l).Pairwise R ↔ ∀ a ∈ l, ∀ b ∈ l, key a < key b → R a b := by
  have hsorted := sliceStable_sorted less key hless l
  constructor
  · intro h a ha b hb hlt
    exact forall_of_sorted key _ hsorted R h a ((mem_sliceStable less l a).mpr ha) b
      ((mem_sliceStable less l b).mpr hb) hlt
  · intro h
    have hdistinct : (sliceStable less l).Pairwise (fun a b => key a ≠ key b) := by
      have hmap := ((sliceStable_perm less l).map key).nodup_iff.mpr hkeys
      exact List.pairwise_map.mp hmap
    refine (List.pairwise_and_iff.mpr ⟨hsorted,hdistinct⟩).imp_of_mem (fun ha hb hab => ?_)
    exact h _ ((mem_sliceStable less l _).mp ha) _ ((mem_sliceStable less l _).mp hb)
      (lt_of_le_of_ne hab.1 hab.2)

theorem sliceStable_eq_iff (less' : α → α → Bool) (key' : α → β') (hless' : ByKey less' key')
    (hkeys' : (l.map key').Nodup) :
    sliceStable less' l = sliceStable less l ↔
      ∀ a ∈ l, ∀ b ∈ l, key a < key b → key' a < key' b := by
  have hordered : sliceStable less' l = sliceStable less l ↔
      (sliceStable less l).Pairwise (fun a b => key' a ≤ key' b) := by
    constructor
    · intro h
      rw [← h]
      exact sliceStable_sorted less' key' hless' l
    · exact sliceStable_unique less' key' hless' l hkeys' _ (sliceStable_perm less l)
  rw [hordered, pairwise_sliceStable less key hless l hkeys]
  constructor
  · intro h a ha b hb hlt
    refine lt_of_le_of_ne (h a ha b hb hlt) (fun heq => ?_)
    exact (List.inj_on_of_nodup_map hkeys' ha hb heq ▸ hlt).false
  · exact fun h a ha b hb hlt => (h a ha b hb hlt).le

theorem mem_take_sliceStable (k : ℕ) (a : α) :
    a ∈ (sliceStable less l).take k ↔ a ∈ l ∧ place less l a < k := by
  have hmem : a ∈ (sliceStable less l).take k → a ∈ l :=
    fun h => (mem_sliceStable less l a).mp (List.mem_of_mem_take h)
  by_cases ha : a ∈ l
  · obtain ⟨before, after, hsplit⟩ := List.append_of_mem ((mem_sliceStable less l a).mpr ha)
    have hstrict : (sliceStable less l).Pairwise (fun b c => key b < key c) :=
      (pairwise_sliceStable less key hless l hkeys _).mpr (fun _ _ _ _ h => h)
    rw [hsplit] at hstrict
    obtain ⟨-, hafter, hbefore⟩ := List.pairwise_append.mp hstrict
    have hplace : place less l a = before.length := by
      rw [place, ← (sliceStable_perm less l).countP_eq, hsplit, List.countP_append,
        List.countP_eq_length.mpr (fun b hb => (hless b a).mpr (hbefore b hb a List.mem_cons_self)),
        List.countP_eq_zero.mpr ?_, Nat.add_zero]
      intro b hb
      rw [hless]
      rcases List.mem_cons.mp hb with rfl | hb
      · exact lt_irrefl _
      · exact ((List.pairwise_cons.mp hafter).1 b hb).asymm
    have hnot : a ∉ before := fun h => (hbefore a h a List.mem_cons_self).false
    rw [hplace, hsplit, List.take_append]
    constructor
    · intro h
      refine ⟨ha, ?_⟩
      by_contra hle
      rw [Nat.sub_eq_zero_of_le (by omega), List.take_zero, List.append_nil] at h
      exact hnot (List.mem_of_mem_take h)
    · rintro ⟨-, hlt⟩
      obtain ⟨d, hd⟩ := Nat.exists_eq_add_of_lt hlt
      refine List.mem_append_right _ ?_
      rw [hd, show before.length+d+1-before.length = d+1 by omega, List.take_succ_cons]
      exact List.mem_cons_self
  · exact iff_of_false (fun h => ha (hmem h)) (fun h => ha h.1)

/-- Where what is among the first is before the rest for another comparison too, this
one ranks the same ones first. -/
theorem take_sliceStable_of_before (less' : α → α → Bool) (key' : α → β')
    (hless' : ByKey less' key') (hkeys' : (l.map key').Nodup) (k : ℕ)
    (h : ∀ a ∈ l, place less l a < k → ∀ b ∈ l, key a < key b → key' a < key' b) :
    (sliceStable less' l).take k = (sliceStable less l).take k := by
  have hstrict : (sliceStable less l).Pairwise (fun b c => key b < key c) :=
    (pairwise_sliceStable less key hless l hkeys _).mpr (fun _ _ _ _ h => h)
  have hsplit := List.take_append_drop k (sliceStable less l)
  have hfirst := mem_take_sliceStable less key hless l hkeys k
  rw [← hsplit] at hstrict
  obtain ⟨htake, -, hcross⟩ := List.pairwise_append.mp hstrict
  -- The first as they stand, then the rest as the other comparison has it.
  have hperm : ((sliceStable less l).take k++
      sliceStable less' ((sliceStable less l).drop k)).Perm l := by
    refine ((sliceStable_perm less' _).append_left _).trans ?_
    rw [hsplit]
    exact sliceStable_perm less l
  have hsorted : ((sliceStable less l).take k++
      sliceStable less' ((sliceStable less l).drop k)).Pairwise (fun a b => key' a ≤ key' b) := by
    refine List.pairwise_append.mpr ⟨?_, sliceStable_sorted less' key' hless' _, ?_⟩
    · refine htake.imp_of_mem (fun {a b} ha hb hlt => ?_)
      exact (h a ((hfirst a).mp ha).1 ((hfirst a).mp ha).2 b ((hfirst b).mp hb).1 hlt).le
    · intro a ha b hb
      rw [mem_sliceStable] at hb
      exact (h a ((hfirst a).mp ha).1 ((hfirst a).mp ha).2 b
        ((mem_sliceStable less l b).mp (List.mem_of_mem_drop hb)) (hcross a ha b hb)).le
  rw [sliceStable_unique less' key' hless' l hkeys' _ hperm hsorted]
  refine take_cut_append k _ _ (fun hshort => ?_)
  rw [List.drop_of_length_le hshort.le]
  rfl

/-- Two comparisons agree on the first of a ranking if and only if what the one puts
among the first and before another is before it for the other too. -/
theorem take_sliceStable_eq_iff (less' : α → α → Bool) (key' : α → β') (hless' : ByKey less' key')
    (hkeys' : (l.map key').Nodup) (k : ℕ) :
    (sliceStable less' l).take k = (sliceStable less l).take k ↔
      ∀ a ∈ l, place less l a < k → ∀ b ∈ l, key a < key b → key' a < key' b := by
  refine ⟨?_, take_sliceStable_of_before less key hless l hkeys less' key' hless' hkeys' k⟩
  intro h a ha hplace b hb hlt
  have hsorted : ((sliceStable less l).take k).Pairwise (fun b c => key b ≤ key c) :=
    (sliceStable_sorted less key hless l).sublist (List.take_sublist _ _)
  have hstrict' : (sliceStable less' l).Pairwise (fun b c => key' b < key' c) :=
    (pairwise_sliceStable less' key' hless' l hkeys' _).mpr (fun _ _ _ _ h => h)
  have hsplit' := List.take_append_drop k (sliceStable less' l)
  rw [← hsplit', h] at hstrict'
  obtain ⟨htake', -, hcross'⟩ := List.pairwise_append.mp hstrict'
  have hmem := (mem_take_sliceStable less key hless l hkeys k a).mpr ⟨ha,hplace⟩
  have hb' : b ∈ (sliceStable less l).take k ∨ b ∈ (sliceStable less' l).drop k := by
    rw [← h, ← List.mem_append, hsplit', mem_sliceStable]
    exact hb
  rcases hb' with hb' | hb'
  · exact forall_of_sorted key _ hsorted _ htake' a hmem b hb' hlt
  · exact hcross' a hmem b hb'

end Keys

section Selection
variable (f : α → Option γ)

/-- The first few with the unusable ones dropped are the first few usable ones, at
every length, if and only if no usable one follows an unusable one. -/
theorem take_filterMap_iff (l : List α) :
    (∀ k, 0 < k → (l.take k).filterMap f = (l.filterMap f).take k) ↔
      l.Pairwise (fun a b => (f b).isSome → (f a).isSome) := by
  induction l with
  | nil => simp
  | cons a l ih =>
    rw [List.pairwise_cons, ← ih]
    cases ha : f a with
    | some c =>
      constructor
      · intro h
        refine ⟨fun _ _ _ => rfl, fun k _ => ?_⟩
        have hnext := h (k+1) k.succ_pos
        rw [List.take_succ_cons, List.filterMap_cons_some ha, List.filterMap_cons_some ha,
          List.take_succ_cons] at hnext
        exact (List.cons.inj hnext).2
      · rintro ⟨-, h⟩ k hk
        obtain ⟨k, rfl⟩ := Nat.exists_eq_succ_of_ne_zero hk.ne'
        rw [List.take_succ_cons, List.filterMap_cons_some ha, List.filterMap_cons_some ha,
          List.take_succ_cons]
        rcases k.eq_zero_or_pos with rfl | hpos
        · simp
        · rw [h k hpos]
    | none =>
      constructor
      · intro h
        -- The first place is lost, so nothing usable may follow.
        have hfirst := h 1 one_pos
        rw [List.filterMap_cons_none ha, List.take_succ_cons, List.filterMap_cons_none ha,
          List.take_zero, List.filterMap_nil, eq_comm, List.take_eq_nil_iff] at hfirst
        have hnone : l.filterMap f = [] := hfirst.resolve_left Nat.one_ne_zero
        refine ⟨fun b hb hsome => ?_, fun k _ => ?_⟩
        · rw [List.filterMap_eq_nil_iff.mp hnone b hb] at hsome
          cases hsome
        · rw [hnone, List.take_nil, List.filterMap_eq_nil_iff]
          exact fun b hb => List.filterMap_eq_nil_iff.mp hnone b (List.mem_of_mem_take hb)
      · rintro ⟨h, -⟩ k _
        have hnone : ∀ b ∈ a::l, f b = none := by
          intro b hb
          rcases List.mem_cons.mp hb with rfl | hb
          · exact ha
          · exact Option.not_isSome_iff_eq_none.mp (fun hsome => by cases h b hb hsome)
        rw [List.filterMap_eq_nil_iff.mpr hnone, List.take_nil, List.filterMap_eq_nil_iff]
        exact fun b hb => hnone b (List.mem_of_mem_take hb)

theorem filterMap_filter_isSome (l : List α) :
    (l.filter (fun a => (f a).isSome)).filterMap f = l.filterMap f := by
  rw [List.filterMap_filter]
  refine List.filterMap_congr (fun a _ => ?_)
  cases f a <;> rfl

theorem map_some_filterMap (l : List α) (hl : ∀ a ∈ l, (f a).isSome) :
    (l.filterMap f).map some = l.map f := by
  induction l with
  | nil => rfl
  | cons a l ih =>
    obtain ⟨c, hc⟩ := Option.isSome_iff_exists.mp (hl a List.mem_cons_self)
    rw [List.filterMap_cons_some hc, List.map_cons, List.map_cons, hc,
      ih (fun b hb => hl b (List.mem_cons_of_mem _ hb))]

theorem nodup_filterMap_iff (l : List α) (hnodup : l.Nodup) (hl : ∀ a ∈ l, (f a).isSome) :
    (l.filterMap f).Nodup ↔ ∀ a ∈ l, ∀ b ∈ l, f a = f b → a = b := by
  rw [← List.nodup_map_iff (Option.some_injective γ), map_some_filterMap f l hl]
  constructor
  · exact fun h a ha b hb hab => List.inj_on_of_nodup_map h ha hb hab
  · exact fun h => List.Nodup.map_on (fun a ha b hb hab => h a ha b hb hab) hnodup

/-- Lists of usable elements that make the same things are the same, if no two
elements make one thing. -/
theorem filterMap_injOn (l : List α) (hl : ∀ a ∈ l, (f a).isSome)
    (hinj : ∀ a ∈ l, ∀ b ∈ l, f a = f b → a = b) (l₁ l₂ : List α) (h₁ : ∀ a ∈ l₁, a ∈ l)
    (h₂ : ∀ a ∈ l₂, a ∈ l) (h : l₁.filterMap f = l₂.filterMap f) : l₁ = l₂ := by
  have hmap : l₁.map f = l₂.map f := by
    rw [← map_some_filterMap f l₁ (fun a ha => hl a (h₁ a ha)), h,
      map_some_filterMap f l₂ (fun a ha => hl a (h₂ a ha))]
  clear h
  induction l₁ generalizing l₂ with
  | nil => exact (List.map_eq_nil_iff.mp hmap.symm).symm
  | cons a l₁ ih =>
    obtain ⟨b, l₂, rfl, hb, hrest⟩ := List.map_eq_cons_iff.mp hmap.symm
    rw [hinj b (h₂ b List.mem_cons_self) a (h₁ a List.mem_cons_self) hb,
      ih l₂ (fun a ha => h₁ a (List.mem_cons_of_mem _ ha))
        (fun a ha => h₂ a (List.mem_cons_of_mem _ ha)) hrest.symm]

theorem take_sliceStable_iff (less : α → α → Bool) (key : α → β) (hless : ByKey less key)
    (l : List α) (hkeys : (l.map key).Nodup) :
    (∀ k, 0 < k → ((sliceStable less l).take k).filterMap f =
      ((sliceStable less l).filterMap f).take k) ↔
    ∀ u ∈ l, f u = none → ∀ a ∈ l, (f a).isSome → key a < key u := by
  rw [take_filterMap_iff, pairwise_sliceStable less key hless l hkeys]
  constructor
  · intro h u hu hnone a ha hsome
    rcases lt_trichotomy (key a) (key u) with hlt | heq | hgt
    · exact hlt
    · rw [List.inj_on_of_nodup_map hkeys ha hu heq, hnone] at hsome
      cases hsome
    · have husome := h u hu a ha hgt hsome
      rw [hnone] at husome
      cases husome
  · intro h a ha b hb hlt hsome
    cases hfa : f a with
    | some c => rfl
    | none => exact absurd (h a ha hfa b hb hsome) hlt.asymm

section Cut
variable (p : α → Bool) (l : List α) (hnodup : l.Nodup) (k : ℕ)

include hnodup

theorem take_filter_comm (h : ∀ u ∈ l.take k, p u = false → ∀ a ∈ l, p a = true → a ∈ l.take k) :
    (l.take k).filter p = (l.filter p).take k := by
  have hsplit : l.filter p = (l.take k).filter p++(l.drop k).filter p := by
    rw [← List.filter_append, List.take_append_drop]
  by_cases hall : ∀ a ∈ l.take k, p a = true
  · rw [hsplit, List.filter_eq_self.mpr hall]
    refine (take_cut_append k l _ (fun hshort => ?_)).symm
    rw [List.drop_of_length_le hshort.le]
    rfl
  · push Not at hall
    obtain ⟨u, hu, hpu⟩ := hall
    rw [ne_eq, Bool.not_eq_true] at hpu
    -- Something dropped is among the first, so all that is kept is.
    have hrest : (l.drop k).filter p = [] := by
      refine List.filter_eq_nil_iff.mpr (fun a ha hpa => ?_)
      have hmem := h u hu hpu a (List.mem_of_mem_drop ha) hpa
      have hdisjoint := (List.nodup_append.mp ((List.take_append_drop k l).symm ▸ hnodup)).2.2
      exact hdisjoint a hmem a ha rfl
    rw [hsplit, hrest, List.append_nil]
    exact (List.take_of_length_le ((List.length_filter_le _ _).trans (List.length_take_le _ _))).symm

theorem length_take_filter_iff : ((l.take k).filter p).length = min k (l.filter p).length ↔
    ∀ u ∈ l.take k, p u = false → ∀ a ∈ l, p a = true → a ∈ l.take k := by
  constructor
  · intro h u hu hpu a ha hpa
    have hlost : ((l.take k).filter p).length < k := by
      refine lt_of_lt_of_le (List.length_filter_lt_length_iff_exists.mpr ⟨u,hu,?_⟩)
        (List.length_take_le _ _)
      rw [hpu]
      exact Bool.false_ne_true
    have hsame : (l.take k).filter p = l.filter p :=
      ((List.take_sublist k l).filter p).eq_of_length (by omega)
    exact List.mem_of_mem_filter (hsame ▸ List.mem_filter.mpr ⟨ha,hpa⟩)
  · intro h
    rw [take_filter_comm p l hnodup k h, List.length_take]

end Cut

section Exactness
variable (less : α → α → Bool) (key : α → β) (hless : ByKey less key)
  (less' : α → α → Bool) (key' : α → β') (hless' : ByKey less' key')
  (l : List α) (hkeys : (l.map key).Nodup) (hkeys' : (l.map key').Nodup)

def usable (l : List α) : List α := l.filter (fun a => (f a).isSome)

theorem mem_usable (a : α) : a ∈ usable f l ↔ a ∈ l ∧ (f a).isSome := List.mem_filter

/-- Ranking all by `less'`, cutting, and dropping the unusable ones comes to cutting
the ranking of the usable ones by `less`. -/
def SelectsAlike (k : ℕ) : Prop :=
  ((sliceStable less' l).take k).filterMap f = ((sliceStable less (usable f l)).take k).filterMap f

theorem take_usable (k : ℕ) (hk : 0 < k) :
    ((sliceStable less (usable f l)).take k).filterMap f =
      ((sliceStable less (usable f l)).filterMap f).take k := by
  refine (take_filterMap_iff f _).mpr (List.pairwise_of_forall_mem_list ?_) k hk
  intro a ha b _ _
  exact ((mem_usable f l a).mp ((mem_sliceStable less _ a).mp ha)).2

theorem length_take_usable (k : ℕ) (hk : 0 < k) :
    (((sliceStable less (usable f l)).take k).filterMap f).length = min k (usable f l).length := by
  have hall : ∀ a ∈ sliceStable less (usable f l), (f a).isSome :=
    fun a ha => ((mem_usable f l a).mp ((mem_sliceStable less _ a).mp ha)).2
  rw [take_usable f less l k hk, List.length_take, List.length_filterMap_eq_countP,
    List.countP_eq_length.mpr hall, (sliceStable_perm less _).length_eq]

omit [LinearOrder β] in
include hless' hkeys' in
theorem costs_no_place_iff (k : ℕ) :
    (∀ u ∈ (sliceStable less' l).take k, (f u).isSome = false →
      ∀ a ∈ sliceStable less' l, (f a).isSome = true → a ∈ (sliceStable less' l).take k) ↔
    ∀ u ∈ l, f u = none → place less' l u < k → ∀ a ∈ usable f l, place less' l a < k := by
  have hfirst := mem_take_sliceStable less' key' hless' l hkeys' k
  constructor
  · intro h u hu hnone hplace a ha
    have ha' := (mem_usable f l a).mp ha
    exact ((hfirst a).mp (h u ((hfirst u).mpr ⟨hu,hplace⟩) (by rw [hnone]; rfl) a
      ((mem_sliceStable less' l a).mpr ha'.1) ha'.2)).2
  · intro h u hu hnone a ha hasome
    have hu' := (hfirst u).mp hu
    have ha' := (mem_sliceStable less' l a).mp ha
    have hunone : f u = none := by simpa using hnone
    exact (hfirst a).mpr ⟨ha',h u hu'.1 hunone hu'.2 a ((mem_usable f l a).mpr ⟨ha',hasome⟩)⟩

include hless hless' hkeys hkeys'

/-- At every length, with nothing made twice, if and only if the unusable ones rank
last, both comparisons agree on the usable ones, and no two of these make one thing. -/
theorem selection_exact :
    (∀ k, 0 < k → SelectsAlike f less less' l k ∧
      (((sliceStable less' l).take k).filterMap f).Nodup) ↔
    (∀ u ∈ l, f u = none → ∀ a ∈ l, (f a).isSome → key' a < key' u) ∧
    (∀ a ∈ usable f l, ∀ b ∈ usable f l, key a < key b → key' a < key' b) ∧
    ∀ a ∈ usable f l, ∀ b ∈ usable f l, f a = f b → a = b := by
  have hsome : ∀ a ∈ usable f l, (f a).isSome := fun a ha => ((mem_usable f l a).mp ha).2
  have hdropped : (sliceStable less' l).filterMap f = (sliceStable less' (usable f l)).filterMap f := by
    rw [← filterMap_filter_isSome f (sliceStable less' l),
      filter_sliceStable less' key' hless' l hkeys', usable]
  have horder := sliceStable_eq_iff less key hless (usable f l)
    (hkeys.sublist (List.filter_sublist.map key)) less' key' hless'
    (hkeys'.sublist (List.filter_sublist.map key'))
  have hmade : ((sliceStable less (usable f l)).filterMap f).Nodup ↔
      ∀ a ∈ usable f l, ∀ b ∈ usable f l, f a = f b → a = b := by
    rw [((sliceStable_perm less (usable f l)).filterMap f).nodup_iff]
    exact nodup_filterMap_iff f _ (hkeys.of_map.filter _) hsome
  rw [← take_sliceStable_iff f less' key' hless' l hkeys', ← horder, ← hmade]
  constructor
  · intro h
    -- A length beyond the list shows the whole rankings.
    have hlong : ∀ (less : α → α → Bool) (m : List α), m.length ≤ l.length →
        (sliceStable less m).take (l.length+1) = sliceStable less m := by
      intro less m hm
      refine List.take_of_length_le ?_
      rw [(sliceStable_perm less m).length_eq]
      omega
    have hwhole := h (l.length+1) (Nat.succ_pos _)
    unfold SelectsAlike at hwhole
    rw [hlong less' l le_rfl, hlong less (usable f l) (List.length_filter_le _ _)] at hwhole
    obtain ⟨hsame, hnodup⟩ := hwhole
    rw [hsame] at hnodup
    have halike := hsame
    rw [hdropped] at halike
    refine ⟨fun k hk => ?_, ?_, hnodup⟩
    · rw [hsame, (h k hk).1, take_usable f less l k hk]
    · exact filterMap_injOn f (usable f l) hsome (hmade.mp hnodup) _ _
        (fun a ha => (mem_sliceStable less' _ a).mp ha) (fun a ha => (mem_sliceStable less _ a).mp ha)
        halike
  · rintro ⟨hlast, hsame, hnodup⟩ k hk
    have halike : SelectsAlike f less less' l k := by
      rw [SelectsAlike, hlast k hk, hdropped, hsame, take_usable f less l k hk]
    refine ⟨halike, ?_⟩
    rw [halike, take_usable f less l k hk]
    exact hnodup.sublist (List.take_sublist _ _)

/-- At one length, where no two usable elements make one thing: if and only if no
unusable one costs a place, and the other comparison agrees on the first few. -/
theorem selection_exact_at (k : ℕ) (hk : 0 < k)
    (hinj : ∀ a ∈ usable f l, ∀ b ∈ usable f l, f a = f b → a = b) :
    SelectsAlike f less less' l k ↔
    (∀ u ∈ l, f u = none → place less' l u < k → ∀ a ∈ usable f l, place less' l a < k) ∧
    ∀ a ∈ usable f l, place less (usable f l) a < k → ∀ b ∈ usable f l,
      key a < key b → key' a < key' b := by
  have hsome : ∀ a ∈ usable f l, (f a).isSome := fun a ha => ((mem_usable f l a).mp ha).2
  have hnodup : (sliceStable less' l).Nodup :=
    (sliceStable_perm less' l).nodup_iff.mpr hkeys'.of_map
  have hfilter : (sliceStable less' l).filter (fun a => (f a).isSome) =
      sliceStable less' (usable f l) := filter_sliceStable less' key' hless' l hkeys' _
  have hagree := take_sliceStable_eq_iff less key hless (usable f l)
    (hkeys.sublist (List.filter_sublist.map key)) less' key' hless'
    (hkeys'.sublist (List.filter_sublist.map key')) k
  have hdropped : ∀ L : List α, L.filterMap f = (L.filter (fun a => (f a).isSome)).filterMap f :=
    fun L => (filterMap_filter_isSome f L).symm
  rw [← costs_no_place_iff f less' key' hless' l hkeys' k, ← hagree, ← length_take_filter_iff _ _ hnodup k]
  constructor
  · intro h
    have hlength : (((sliceStable less' l).take k).filter (fun a => (f a).isSome)).length =
        min k ((sliceStable less' l).filter (fun a => (f a).isSome)).length := by
      rw [hfilter, (sliceStable_perm less' _).length_eq, ← length_take_usable f less l k hk, ← h,
        List.length_filterMap_eq_countP, List.countP_eq_length_filter]
    have hcomm := take_filter_comm _ _ hnodup k ((length_take_filter_iff _ _ hnodup k).mp hlength)
    refine ⟨hlength, filterMap_injOn f (usable f l) hsome hinj _ _ ?_ ?_ ?_⟩
    · exact fun a ha => (mem_sliceStable less' _ a).mp (List.mem_of_mem_take ha)
    · exact fun a ha => (mem_sliceStable less _ a).mp (List.mem_of_mem_take ha)
    · rw [← hfilter, ← hcomm, ← hdropped]
      exact h
  · rintro ⟨hlength, hsame⟩
    rw [SelectsAlike, hdropped, take_filter_comm _ _ hnodup k
      ((length_take_filter_iff _ _ hnodup k).mp hlength), hfilter, hsame]

end Exactness

end Selection

end Aevia.Ranking
