import Aevia.Foundation.Bytes
import Aevia.Foundation.Ranking
import Mathlib.Data.Prod.Lex
import Mathlib.Order.WithBot

/-!
# Providers ranked by region

A provider is scored against the region of the viewer, ties go by distance and
then by the order of the list. The documented tiers put a provider that cannot be
compared before one whose region does not match; the scores put it after.
-/

set_option autoImplicit false

namespace Aevia.Mesh
open Aevia.Bytes Aevia.Ranking

variable {F D : Type} [LinearOrder D]

structure ProviderMeta (F : Type) where
  peerId : Bytes
  httpsBase : Bytes
  region : Option Bytes
  lat : Option F
  lng : Option F

structure ViewerGeo (F : Type) where
  region : Option Bytes
  lat : Option F
  lng : Option F

def present (region : Option Bytes) : Option Bytes := region.filter (· ≠ [])

def topLevel (region : Bytes) : Bytes := region.takeWhile (· ≠ 45)

def topLevelRegion (region : Option Bytes) : Option Bytes := (present region).map topLevel

def scoreMatch (p : ProviderMeta F) (v : ViewerGeo F) (viewerTop : Option Bytes) : ℕ :=
  match present p.region, present v.region with
  | some region, some viewerRegion =>
    if region = viewerRegion then 3
    else if viewerTop ≠ none ∧ topLevelRegion (some region) = viewerTop then 2
    else 1
  | _, _ => 0

variable (greatCircle : F → F → F → F → D)

/-- The great-circle distance, infinite where a coordinate is missing. -/
def haversineKm (v : ViewerGeo F) (p : ProviderMeta F) : WithTop D :=
  match v.lat, v.lng, p.lat, p.lng with
  | some vlat, some vlng, some plat, some plng => greatCircle vlat vlng plat plng
  | _, _, _, _ => ⊤

structure Scored (F D : Type) where
  provider : ProviderMeta F
  score : ℕ
  distance : WithTop D
  originalIdx : ℕ

def Scored.compare (a b : Scored F D) : Ordering :=
  if a.score ≠ b.score then Ord.compare b.score a.score
  else if a.distance ≠ b.distance then compareOfLessAndEq a.distance b.distance
  else Ord.compare a.originalIdx b.originalIdx

def score (viewer : ViewerGeo F) (p : ProviderMeta F × ℕ) : Scored F D where
  provider := p.1
  score := scoreMatch p.1 viewer (topLevelRegion viewer.region)
  distance := haversineKm greatCircle viewer p.1
  originalIdx := p.2

def rankProvidersByRegion (providers : List (ProviderMeta F)) (viewer : ViewerGeo F) :
    List (ProviderMeta F) :=
  if providers.length ≤ 1 then providers
  else
    let scored := providers.zipIdx.map (score greatCircle viewer)
    (sliceStable (fun a b => a.compare b = .lt) scored).map Scored.provider

section Documented
variable (viewer : ViewerGeo F)

def Unknown (p : ProviderMeta F) : Prop := present p.region = none ∨ present viewer.region = none

def Elsewhere (p : ProviderMeta F) : Prop :=
  ∃ region viewerRegion, present p.region = some region ∧
    present viewer.region = some viewerRegion ∧ topLevel region ≠ topLevel viewerRegion

/-- Exact match, same top level, unknown region, another region. -/
def tier (p : ProviderMeta F) : ℕ :=
  match present p.region, present viewer.region with
  | some region, some viewerRegion =>
    if region = viewerRegion then 0
    else if topLevel region = topLevel viewerRegion then 1
    else 3
  | _, _ => 2

/-- The documented order: by tier, then by distance, then by the order of the list. -/
def documentedKey (p : ProviderMeta F × ℕ) : ℕ ×ₗ WithTop D ×ₗ ℕ :=
  toLex (tier viewer p.1, toLex (haversineKm greatCircle viewer p.1, p.2))

/-- The ranking is the list of providers in the documented order. -/
def Documented (providers ranking : List (ProviderMeta F)) : Prop :=
  ∃ ranked : List (ProviderMeta F × ℕ), ranked.Perm providers.zipIdx ∧
    ranked.map Prod.fst = ranking ∧
    ranked.Pairwise fun p q => documentedKey greatCircle viewer p < documentedKey greatCircle viewer q

end Documented

section Order

def Scored.key (s : Scored F D) : ℕᵒᵈ ×ₗ WithTop D ×ₗ ℕ :=
  toLex (OrderDual.toDual s.score, toLex (s.distance, s.originalIdx))

theorem compare_byKey :
    ByKey (fun a b : Scored F D => decide (a.compare b = .lt)) Scored.key := by
  intro a b
  rw [decide_eq_true_eq, Scored.compare, Scored.key, Scored.key, Prod.Lex.toLex_lt_toLex,
    Prod.Lex.toLex_lt_toLex, OrderDual.toDual_lt_toDual, EmbeddingLike.apply_eq_iff_eq]
  by_cases hscore : a.score = b.score
  · by_cases hdistance : a.distance = b.distance
    · simp [hscore, hdistance, Nat.compare_eq_lt]
    · rw [if_neg (not_not.mpr hscore), if_pos hdistance, compareOfLessAndEq_eq_lt]
      simp [hscore, hdistance]
  · rw [if_pos hscore, Nat.compare_eq_lt]
    simp [hscore]

variable (providers : List (ProviderMeta F)) (viewer : ViewerGeo F)

omit [LinearOrder D] in
theorem key_nodup : ((providers.zipIdx.map (score greatCircle viewer)).map Scored.key).Nodup := by
  have hidx : (providers.zipIdx.map Prod.snd).Nodup := by
    rw [List.zipIdx_map_snd]
    exact List.nodup_range'
  rw [List.map_map]
  refine List.Nodup.of_map (fun key => (ofLex (ofLex key).2).2) ?_
  rw [List.map_map]
  exact hidx

def rankedPairs : List (ProviderMeta F × ℕ) :=
  (sliceStable (fun a b => decide (a.compare b = .lt))
    (providers.zipIdx.map (score greatCircle viewer))).map fun s => (s.provider, s.originalIdx)

theorem rankedPairs_perm : (rankedPairs greatCircle providers viewer).Perm providers.zipIdx := by
  have hmap := (sliceStable_perm (fun a b => decide (a.compare b = .lt))
    (providers.zipIdx.map (score greatCircle viewer))).map fun s => (s.provider, s.originalIdx)
  rw [List.map_map] at hmap
  exact hmap.trans (List.Perm.of_eq (List.map_id _))

theorem rankedPairs_ranking :
    (rankedPairs greatCircle providers viewer).map Prod.fst =
      rankProvidersByRegion greatCircle providers viewer := by
  rw [rankedPairs, List.map_map, rankProvidersByRegion]
  split_ifs with hshort
  · match providers, hshort with
    | [], _ => rfl
    | [p], _ => rfl
  · rfl

theorem rankedPairs_pairwise (R : ProviderMeta F × ℕ → ProviderMeta F × ℕ → Prop) :
    (rankedPairs greatCircle providers viewer).Pairwise R ↔
      ∀ p ∈ providers.zipIdx, ∀ q ∈ providers.zipIdx,
        (score greatCircle viewer p).key < (score greatCircle viewer q).key → R p q := by
  rw [rankedPairs, List.pairwise_map, pairwise_sliceStable _ _ compare_byKey _
    (key_nodup greatCircle providers viewer)]
  simp only [List.forall_mem_map]
  rfl

theorem ranking_perm : (rankProvidersByRegion greatCircle providers viewer).Perm providers := by
  have hmap := (rankedPairs_perm greatCircle providers viewer).map Prod.fst
  rwa [rankedPairs_ranking, List.zipIdx_map_fst] at hmap

theorem ranking_scores :
    (rankProvidersByRegion greatCircle providers viewer).Pairwise fun p q =>
      scoreMatch q viewer (topLevelRegion viewer.region) ≤
        scoreMatch p viewer (topLevelRegion viewer.region) := by
  rw [← rankedPairs_ranking, List.pairwise_map, rankedPairs_pairwise]
  intro p _ q _ hlt
  exact OrderDual.toDual_le_toDual.mp (Prod.Lex.monotone_fst _ _ hlt.le)

end Order

section Tiers
variable (viewer : ViewerGeo F) (p q : ProviderMeta F)

theorem region_cases :
    let points := scoreMatch p viewer (topLevelRegion viewer.region)
    points = 3 ∧ tier viewer p = 0 ∧ ¬Unknown viewer p ∧ ¬Elsewhere viewer p ∨
    points = 2 ∧ tier viewer p = 1 ∧ ¬Unknown viewer p ∧ ¬Elsewhere viewer p ∨
    points = 0 ∧ tier viewer p = 2 ∧ Unknown viewer p ∧ ¬Elsewhere viewer p ∨
    points = 1 ∧ tier viewer p = 3 ∧ ¬Unknown viewer p ∧ Elsewhere viewer p := by
  unfold scoreMatch tier Unknown Elsewhere topLevelRegion
  cases hp : present p.region with
  | none => simp
  | some region =>
    cases hv : present viewer.region with
    | none => simp
    | some viewerRegion =>
      have hknown : present (some region) = some region := by
        obtain ⟨-, hne⟩ := Option.filter_eq_some_iff.mp hp
        exact Option.filter_eq_some_iff.mpr ⟨rfl,hne⟩
      by_cases hsame : region = viewerRegion
      · simp [hsame]
      · by_cases htop : topLevel region = topLevel viewerRegion <;> simp [hsame, htop, hknown]

theorem score_tier :
    scoreMatch p viewer (topLevelRegion viewer.region) = 3 ∧ tier viewer p = 0 ∨
    scoreMatch p viewer (topLevelRegion viewer.region) = 2 ∧ tier viewer p = 1 ∨
    scoreMatch p viewer (topLevelRegion viewer.region) = 0 ∧ tier viewer p = 2 ∨
    scoreMatch p viewer (topLevelRegion viewer.region) = 1 ∧ tier viewer p = 3 := by
  rcases region_cases viewer p with h | h | h | h
  · exact .inl ⟨h.1,h.2.1⟩
  · exact .inr (.inl ⟨h.1,h.2.1⟩)
  · exact .inr (.inr (.inl ⟨h.1,h.2.1⟩))
  · exact .inr (.inr (.inr ⟨h.1,h.2.1⟩))

theorem unknown_iff : Unknown viewer p ↔ tier viewer p = 2 := by
  rcases region_cases viewer p with ⟨-, htier, h, -⟩ | ⟨-, htier, h, -⟩ | ⟨-, htier, h, -⟩ |
    ⟨-, htier, h, -⟩ <;> simp [htier, h]

theorem elsewhere_iff : Elsewhere viewer p ↔ tier viewer p = 3 := by
  rcases region_cases viewer p with ⟨-, htier, -, h⟩ | ⟨-, htier, -, h⟩ | ⟨-, htier, -, h⟩ |
    ⟨-, htier, -, h⟩ <;> simp [htier, h]

variable (providers : List (ProviderMeta F))

theorem documentedKey_lt (hapart : ¬ (Unknown viewer q ∧ Elsewhere viewer p)) (i j : ℕ)
    (h : (score greatCircle viewer (p, i)).key < (score greatCircle viewer (q, j)).key) :
    documentedKey greatCircle viewer (p, i) < documentedKey greatCircle viewer (q, j) := by
  rw [unknown_iff, elsewhere_iff] at hapart
  have hp := score_tier viewer p
  have hq := score_tier viewer q
  rw [Scored.key, Scored.key, Prod.Lex.toLex_lt_toLex, OrderDual.toDual_lt_toDual] at h
  rw [documentedKey, documentedKey, Prod.Lex.toLex_lt_toLex]
  rcases h with hscore | ⟨hscore, hrest⟩
  · left
    have hscore' : scoreMatch q viewer (topLevelRegion viewer.region) <
        scoreMatch p viewer (topLevelRegion viewer.region) := hscore
    show tier viewer p < tier viewer q
    omega
  · right
    have hscore' : scoreMatch p viewer (topLevelRegion viewer.region) =
        scoreMatch q viewer (topLevelRegion viewer.region) := OrderDual.toDual.injective hscore
    have htier : tier viewer p = tier viewer q := by omega
    exact ⟨htier,hrest⟩

theorem documented_tiers (ranking : List (ProviderMeta F))
    (h : Documented greatCircle viewer providers ranking) :
    ranking.Pairwise fun p q => tier viewer p ≤ tier viewer q := by
  obtain ⟨ranked, -, rfl, hpairwise⟩ := h
  rw [List.pairwise_map]
  exact hpairwise.imp fun h => Prod.Lex.monotone_fst _ _ h.le

/-- The ranking is the documented one exactly if the list does not have both a provider
that cannot be compared and one whose region does not match. -/
theorem rankProvidersByRegion_exact :
    Documented greatCircle viewer providers (rankProvidersByRegion greatCircle providers viewer) ↔
      ∀ p ∈ providers, ∀ q ∈ providers, ¬ (Unknown viewer p ∧ Elsewhere viewer q) := by
  have hpairs : ∀ pair ∈ providers.zipIdx, pair.1 ∈ providers := by
    intro pair hpair
    exact List.fst_mem_of_mem_zipIdx hpair
  constructor
  · rintro hdocumented p hp q hq ⟨hunknown, helsewhere⟩
    have hp' := (ranking_perm greatCircle providers viewer).mem_iff.mpr hp
    have hq' := (ranking_perm greatCircle providers viewer).mem_iff.mpr hq
    have htiers := documented_tiers greatCircle viewer providers _ hdocumented
    have hscores := forall_of_sorted (tier viewer) _ htiers _
      (ranking_scores greatCircle providers viewer) p hp' q hq'
    rw [unknown_iff] at hunknown
    rw [elsewhere_iff] at helsewhere
    have hle := hscores (by omega)
    have hsp := score_tier viewer p
    have hsq := score_tier viewer q
    omega
  · intro hapart
    refine ⟨_, rankedPairs_perm greatCircle providers viewer,
      rankedPairs_ranking greatCircle providers viewer, ?_⟩
    rw [rankedPairs_pairwise]
    rintro ⟨p, i⟩ hp ⟨q, j⟩ hq hlt
    have hp' := hpairs _ hp
    have hq' := hpairs _ hq
    exact documentedKey_lt greatCircle viewer p q (hapart q hq' p hp') i j hlt

/-- A provider of unknown region comes after one whose region does not match. -/
theorem unknown_region_last :
    let viewer : ViewerGeo ℤ := ⟨some (ascii "BR-SP"), none, none⟩
    let providers : List (ProviderMeta ℤ) :=
      [⟨ascii "unknown", ascii "https://a.example", none, none, none⟩,
        ⟨ascii "virginia", ascii "https://b.example", some (ascii "US-VA"), none, none⟩]
    ¬ Documented (fun _ _ _ _ => (0 : ℕ)) viewer providers
      (rankProvidersByRegion (fun _ _ _ _ => (0 : ℕ)) providers viewer) := by
  intro viewer providers h
  have htiers := documented_tiers _ viewer providers _ h
  exact absurd htiers (by decide)

end Tiers

end Aevia.Mesh
