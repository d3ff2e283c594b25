import Mathlib.Data.List.SplitBy

/-!
# Maximal runs of equal keys

A list cut where the key changes, and what one more element does to it: it joins
the last run or begins one of its own.
-/

set_option autoImplicit false

namespace Aevia.Runs

variable {α κ : Type*} [DecidableEq κ] (key : α → κ)

/-- The maximal runs of consecutive elements with one key. -/
def runs (l : List α) : List (List α) := l.splitBy (fun a b => key a = key b)

@[simp] theorem runs_nil : runs key ([] : List α) = [] := rfl

@[simp] theorem flatten_runs (l : List α) : (runs key l).flatten = l := List.flatten_splitBy _ _

theorem runs_eq_iff (l : List α) (rs : List (List α)) :
    runs key l = rs ↔ l = rs.flatten ∧ [] ∉ rs ∧
      (∀ r ∈ rs, r.IsChain (fun a b => key a = key b)) ∧
      rs.IsChain (fun r s => ∃ hr hs, key (r.getLast hr) ≠ key (s.head hs)) := by
  rw [runs, List.splitBy_eq_iff]
  simp only [decide_eq_true_eq, decide_eq_false_iff_not, ne_eq]

theorem runs_concat_new (l : List α) (a : α) (h : ∀ b ∈ l.getLast?, key b ≠ key a) :
    runs key (l++[a]) = runs key l++[[a]] := by
  rw [runs, List.splitBy_append_cons]
  · rfl
  · exact fun b hb => decide_eq_false (h b hb)

theorem runs_concat_same (l : List α) (a : α) (rs : List (List α)) (r : List α) (b : α)
    (hrs : runs key l = rs++[r++[b]]) (h : key b = key a) :
    runs key (l++[a]) = rs++[r++[b]++[a]] := by
  obtain ⟨hflatten, hne, hchain, hbreaks⟩ := (runs_eq_iff key l _).mp hrs
  refine (runs_eq_iff key _ _).mpr ⟨?_, ?_, ?_, ?_⟩
  · rw [hflatten]
    simp
  · simp only [List.mem_append, List.mem_singleton, not_or] at hne ⊢
    exact ⟨hne.1,by simp⟩
  · intro s hs
    rcases List.mem_append.mp hs with hs | hs
    · exact hchain s (List.mem_append_left _ hs)
    · rw [List.mem_singleton.mp hs]
      have hrun := hchain _ (List.mem_append_right _ (List.mem_singleton_self _))
      refine List.IsChain.append hrun (List.isChain_singleton a) ?_
      intro x hx y hy
      simp only [List.getLast?_concat, Option.mem_some_iff, List.head?_cons] at hx hy
      rw [← hx, ← hy, h]
  · rw [List.isChain_append] at hbreaks ⊢
    obtain ⟨hfront, -, hlast⟩ := hbreaks
    refine ⟨hfront, List.isChain_singleton _, ?_⟩
    intro x hx y hy
    obtain ⟨hxne, hyne, hkey⟩ := hlast x hx _ rfl
    simp only [List.head?_cons, Option.mem_some_iff] at hy
    subst hy
    refine ⟨hxne, by simp, ?_⟩
    have hhead : (r++[b]++[a]).head (by simp) = (r++[b]).head hyne :=
      List.head_append_of_ne_nil hyne
    rwa [hhead]

theorem runs_concat (l : List α) (a : α) : ∃ rs r, runs key (l++[a]) = rs++[r++[a]] := by
  have hne : runs key (l++[a]) ≠ [] := List.splitBy_ne_nil.mpr (by simp)
  obtain ⟨rs, last, hrs⟩ := (List.eq_nil_or_concat (runs key (l++[a]))).resolve_left hne
  rw [List.concat_eq_append] at hrs
  obtain ⟨hflatten, hnil, -⟩ := (runs_eq_iff key _ _).mp hrs
  rcases List.eq_nil_or_concat last with rfl | ⟨r, b, rfl⟩
  · exact absurd (List.mem_append_right _ (List.mem_singleton_self _)) hnil
  · rw [List.concat_eq_append] at hrs hflatten
    rw [List.flatten_append, List.flatten_singleton, ← List.append_assoc] at hflatten
    obtain ⟨-, hab⟩ := List.append_inj' hflatten rfl
    exact ⟨rs,r,by rw [hrs, List.singleton_inj.mp hab]⟩

end Aevia.Runs
