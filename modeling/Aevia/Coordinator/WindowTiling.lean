import Aevia.Coordinator.Settler

/-!
# Adjacent windows

The windows of a chain of bounds cover what is stored before the last bound and
do not overlap. A window is cut from the decoded documents, a scan for one
provider from the binary keys; both see the same timestamps.
-/

set_option autoImplicit false

namespace Aevia.Coordinator
open Aevia.Bytes Aevia.Fallible Aevia.KeyValue Aevia.Por Aevia.Run Aevia.Storage

def boundsFrom (since : Int64) (bounds : List Int64) : List (Int64 × Int64) :=
  (since::bounds).zip bounds

theorem boundsFrom_cons (since til : Int64) (bounds : List Int64) :
    boundsFrom since (til::bounds) = (since,til)::boundsFrom til bounds := rfl

section Windows
variable (all : List Receipt)

theorem mem_windowOf_between (since til : Int64) (htil : 0 < til) (r : Receipt) :
    r ∈ windowOf since til all ↔
      r ∈ all ∧ (0 < since → since ≤ r.timestampUnix) ∧ r.timestampUnix < til := by
  rw [mem_windowOf]
  simp [htil]

theorem windowOf_eq (since til : Int64) (htil : 0 < til) : windowOf since til all =
    all.filter (fun r => decide ((0 < since → since ≤ r.timestampUnix) ∧
      r.timestampUnix < til)) := by
  rw [windowOf, if_neg (fun h => Int64.lt_irrefl (h.2 ▸ htil))]
  apply List.filter_congr
  intro r _
  have hwindow := mem_windowOf_between [r] since til htil r
  rw [windowOf, if_neg (fun h => Int64.lt_irrefl (h.2 ▸ htil)), List.mem_filter] at hwindow
  rw [Bool.eq_iff_iff, decide_eq_true_eq]
  simpa using hwindow

theorem windowOf_append (since mid til : Int64) (hmid : 0 < mid) (hsince : 0 < since → since < mid)
    (htil : mid < til) :
    (windowOf since mid all++windowOf mid til all).Perm (windowOf since til all) := by
  have hpos : 0 < til := Int64.lt_trans hmid htil
  have hbefore : windowOf since mid all =
      (windowOf since til all).filter (fun r => decide (r.timestampUnix < mid)) := by
    rw [windowOf_eq all since mid hmid, windowOf_eq all since til hpos, List.filter_filter]
    apply List.filter_congr
    intro r _
    rw [Bool.eq_iff_iff, Bool.and_eq_true, decide_eq_true_eq, decide_eq_true_eq,
      decide_eq_true_eq]
    exact ⟨fun h => ⟨h.2,h.1,Int64.lt_trans h.2 htil⟩,fun h => ⟨h.2.1,h.1⟩⟩
  have hafter : windowOf mid til all =
      (windowOf since til all).filter (fun r => !decide (r.timestampUnix < mid)) := by
    rw [windowOf_eq all mid til hpos, windowOf_eq all since til hpos, List.filter_filter]
    apply List.filter_congr
    intro r _
    rw [Bool.eq_iff_iff, Bool.and_eq_true, Bool.not_eq_true', decide_eq_true_eq,
      decide_eq_false_iff_not, decide_eq_true_eq, Int64.not_lt]
    constructor
    · rintro ⟨hge, hlt⟩
      exact ⟨hge hmid,fun hs => Int64.le_of_lt (Int64.lt_of_lt_of_le (hsince hs) (hge hmid)),hlt⟩
    · rintro ⟨hge, -, hlt⟩
      exact ⟨fun _ => hge,hlt⟩
  rw [hbefore, hafter]
  exact List.filter_append_perm _ _

theorem windows_perm (since til : Int64) (bounds : List Int64) (htil : 0 < til)
    (hsince : 0 < since → since < til) (hsorted : (til::bounds).Pairwise (fun s t => s < t)) :
    ((boundsFrom since (til::bounds)).map (fun b => windowOf b.1 b.2 all)).flatten.Perm
      (windowOf since ((til::bounds).getLast (List.cons_ne_nil _ _)) all) := by
  induction bounds generalizing since til with
  | nil =>
    rw [boundsFrom_cons]
    simp [boundsFrom]
  | cons next bounds ih =>
    obtain ⟨hlt, hrest⟩ := List.pairwise_cons.mp hsorted
    have hnext : til < next := hlt next List.mem_cons_self
    have hlast : til < (next::bounds).getLast (List.cons_ne_nil _ _) :=
      hlt _ (List.getLast_mem _)
    have htail := ih til next (Int64.lt_trans htil hnext) (fun _ => hnext) hrest
    rw [boundsFrom_cons, List.map_cons, List.flatten_cons, List.getLast_cons (List.cons_ne_nil _ _)]
    exact (htail.append_left _).trans (windowOf_append all since til _ htil hsince hlast)

theorem windows_disjoint (since til : Int64) (bounds : List Int64) (htil : 0 < til)
    (hsorted : (til::bounds).Pairwise (fun s t => s < t)) :
    ((boundsFrom since (til::bounds)).map (fun b => windowOf b.1 b.2 all)).Pairwise
      List.Disjoint := by
  induction bounds generalizing since til with
  | nil =>
    rw [boundsFrom_cons]
    simp [boundsFrom]
  | cons next bounds ih =>
    obtain ⟨hlt, hrest⟩ := List.pairwise_cons.mp hsorted
    have hnext : til < next := hlt next List.mem_cons_self
    rw [boundsFrom_cons, List.map_cons, List.pairwise_cons]
    refine ⟨?_, ih til next (Int64.lt_trans htil hnext) hrest⟩
    intro w hw r hr hr'
    have hperm := windows_perm all til next bounds (Int64.lt_trans htil hnext) (fun _ => hnext) hrest
    have hmem : r ∈ windowOf til ((next::bounds).getLast (List.cons_ne_nil _ _)) all :=
      hperm.mem_iff.mp (List.mem_flatten.mpr ⟨w,hw,hr'⟩)
    have hbefore := ((mem_windowOf_between all since til htil r).mp hr).2.2
    have hafter := ((mem_windowOf til _ all r).mp hmem).2.1 htil
    exact Int64.lt_irrefl (Int64.lt_of_lt_of_le hbefore hafter)

end Windows

section Stores

theorem mem_windowOf_scans (db : Database) (hdb : Recorded db) (all : List Receipt)
    (hall : list db = .ok all) (since til : Int64) (r : Receipt) :
    r ∈ windowOf since til all ↔
      ∃ provider rs, getByProvider provider since til db = .ok rs ∧ r ∈ rs := by
  rw [mem_windowOf, mem_list db hdb all hall]
  constructor
  · rintro ⟨⟨s, hs, rfl⟩, hbounds⟩
    obtain ⟨rs, hscan, hmem⟩ := mem_getByProvider db hdb s.providerPeerID since til
    exact ⟨s.providerPeerID,rs,hscan,(hmem _).mpr ⟨s,hs,rfl,hbounds,rfl⟩⟩
  · rintro ⟨provider, rs, hscan, hr⟩
    obtain ⟨rs', hscan', hmem⟩ := mem_getByProvider db hdb provider since til
    rw [hscan', Except.ok.injEq] at hscan
    rw [← hscan, hmem] at hr
    obtain ⟨s, hs, -, hbounds, rfl⟩ := hr
    exact ⟨⟨s,hs,rfl⟩,hbounds⟩

theorem windowForAllProviders_quiet (db : Database) (since til : Int64) (all : List Receipt)
    (hall : list db = .ok all) :
    (windowForAllProviders [] db since til).1 = .ok (windowOf since til all) := by
  have hlist := listAmid_arrivals db [] trivial
  rw [hall, List.map_nil] at hlist
  unfold windowForAllProviders
  generalize listAmid [] db = listed at hlist ⊢
  obtain ⟨result, db'⟩ := listed
  dsimp only at hlist
  rw [hlist]

/-- In every history of the store: the windows of a chain of positive bounds do
not overlap and hold what is stored before the last bound, and every one of
them is the union of the scans of all providers. -/
theorem windows_tile (ops : List StoreOp) (til : Int64) (bounds : List Int64) (htil : 0 < til)
    (hsorted : (til::bounds).Pairwise (fun s t => s < t)) :
    ∃ all windows, list (run storeStep Map.empty ops) = .ok all ∧
      List.Forall₂ (fun b w =>
        (windowForAllProviders [] (run storeStep Map.empty ops) b.1 b.2).1 = .ok w ∧
        ∀ r, r ∈ w ↔ ∃ provider rs,
          getByProvider provider b.1 b.2 (run storeStep Map.empty ops) = .ok rs ∧ r ∈ rs)
        (boundsFrom 0 (til::bounds)) windows ∧
      windows.Pairwise List.Disjoint ∧
      windows.flatten.Perm (all.filter (fun r =>
        decide (r.timestampUnix < (til::bounds).getLast (List.cons_ne_nil _ _)))) := by
  have hdb := history_recorded ops
  generalize run storeStep Map.empty ops = db at hdb ⊢
  obtain ⟨all, hall, -⟩ := list_ok db hdb
  have hzero : ¬ (0 : Int64) < 0 := by decide
  refine ⟨all, (boundsFrom 0 (til::bounds)).map (fun b => windowOf b.1 b.2 all), hall, ?_,
    windows_disjoint all 0 til bounds htil hsorted, ?_⟩
  · apply List.forall₂_map_right_iff.mpr
    apply List.forall₂_same.mpr
    intro b _
    exact ⟨windowForAllProviders_quiet db b.1 b.2 all hall,mem_windowOf_scans db hdb all hall b.1 b.2⟩
  · have hperm := windows_perm all 0 til bounds htil (fun h => (hzero h).elim) hsorted
    have hlast : 0 < (til::bounds).getLast (List.cons_ne_nil _ _) := by
      rcases List.mem_cons.mp (List.getLast_mem (List.cons_ne_nil til bounds)) with h | h
      · rw [h]
        exact htil
      · exact Int64.lt_trans htil ((List.pairwise_cons.mp hsorted).1 _ h)
    rw [windowOf_eq all 0 _ hlast] at hperm
    simpa [hzero] using hperm

end Stores

section Samples

theorem windows_tile_two : ∃ all windows,
    list (run storeStep Map.empty [.put (sampleServed "p" 10 5), .put (sampleServed "q" 20 15)]) =
      .ok all ∧
    List.Forall₂ (fun b w =>
      (windowForAllProviders [] (run storeStep Map.empty
        [.put (sampleServed "p" 10 5), .put (sampleServed "q" 20 15)]) b.1 b.2).1 = .ok w ∧
      ∀ r, r ∈ w ↔ ∃ provider rs, getByProvider provider b.1 b.2 (run storeStep Map.empty
        [.put (sampleServed "p" 10 5), .put (sampleServed "q" 20 15)]) = .ok rs ∧ r ∈ rs)
      (boundsFrom 0 [10, 20]) windows ∧
    windows.Pairwise List.Disjoint ∧
    windows.flatten.Perm (all.filter (fun r => decide (r.timestampUnix < 20))) :=
  windows_tile _ 10 [20] (by decide) (by decide)

end Samples

end Aevia.Coordinator
