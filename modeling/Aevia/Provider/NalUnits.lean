import Aevia.Foundation.Delimiter
import Aevia.Foundation.Framing
import Aevia.Provider.Frames

/-!
# Splitting and joining NAL units

A start code cannot overlap itself, so units that do not contain it come back
from a buffer in which it stands between them. The splitters, the keyframe scan
and the length-prefixed form agree on every buffer.
-/

set_option autoImplicit false

namespace Aevia.Whip
open Aevia.Bytes Aevia.Delimiter

def annexBLoop (buf : Bytes) : ℕ → ℕ → List Bytes → List Bytes
  | 0, _, out => out
  | rounds+1, offset, out =>
    if offset < buf.length then
      match findStartCode (buf.drop offset) with
      | none => out++[buf.drop offset]
      | some rel => annexBLoop buf rounds (offset+rel+4)
          (if 0 < rel then out++[(buf.drop offset).take rel] else out)
    else out

def splitAnnexBNALs (buf : Bytes) : List Bytes :=
  if buf = [] then [] else annexBLoop buf buf.length 0 []

theorem startCode_unbordered : Unbordered startCode := by
  intro k hpos hlt
  have hk : k = 1 ∨ k = 2 ∨ k = 3 := by
    have hlen : startCode.length = 4 := rfl
    omega
  rcases hk with rfl | rfl | rfl <;> decide

theorem take_eq_startCode (buf : Bytes) : buf.take 4 = startCode ↔ startCode <+: buf := by
  rw [List.prefix_iff_eq_take, eq_comm]
  rfl

theorem findStartCode_some (buf : Bytes) (i : ℕ) :
    findStartCode buf = some i ↔ FirstAt startCode buf i := by
  induction buf generalizing i with
  | nil =>
    constructor
    · intro h
      cases h
    · rintro ⟨h, -⟩
      rw [List.drop_nil] at h
      exact absurd h (by decide)
  | cons b rest ih =>
    rw [findStartCode]
    by_cases hhere : startCode <+: b::rest
    · rw [if_pos ((take_eq_startCode _).mpr hhere)]
      have hfirst : FirstAt startCode (b::rest) 0 := ⟨hhere,fun j hj => absurd hj (Nat.not_lt_zero j)⟩
      constructor
      · intro h
        rw [← Option.some.inj h]
        exact hfirst
      · exact fun h => congrArg some (hfirst.unique _ _ _ _ h)
    · rw [if_neg (fun h => hhere ((take_eq_startCode _).mp h)), Option.map_eq_some_iff]
      constructor
      · rintro ⟨j, hj, rfl⟩
        obtain ⟨hpre, hbefore⟩ := (ih j).mp hj
        refine ⟨hpre, fun k hk => ?_⟩
        cases k with
        | zero => exact hhere
        | succ k => exact hbefore k (by omega)
      · rintro ⟨hpre, hbefore⟩
        cases i with
        | zero => exact absurd hpre hhere
        | succ i =>
          refine ⟨i, (ih i).mpr ⟨hpre, fun k hk => ?_⟩, rfl⟩
          exact hbefore (k+1) (by omega)

theorem findStartCode_none (buf : Bytes) (h : ¬ startCode <:+: buf) : findStartCode buf = none := by
  rw [Option.eq_none_iff_forall_ne_some]
  intro i hi
  exact h (infix_of_drop _ _ i ((findStartCode_some buf i).mp hi).1)

theorem splitUnits_rounds (rounds rounds' : ℕ) (buf : Bytes) (h : buf.length ≤ rounds)
    (h' : buf.length ≤ rounds') : splitUnits rounds buf = splitUnits rounds' buf := by
  induction rounds generalizing rounds' buf with
  | zero =>
    rw [List.eq_nil_of_length_eq_zero (Nat.le_zero.mp h)]
    cases rounds' <;> rfl
  | succ rounds ih =>
    cases rounds' with
    | zero =>
      rw [List.eq_nil_of_length_eq_zero (Nat.le_zero.mp h')]
      rfl
    | succ rounds' =>
      rw [splitUnits, splitUnits]
      cases hnext : findStartCode buf with
      | none => rfl
      | some next =>
        have hdrop : (buf.drop (next+4)).length ≤ buf.length-4 := by
          rw [List.length_drop]
          omega
        dsimp only
        rw [ih rounds' (buf.drop (next+4)) (by omega) (by omega)]

theorem splitNALUnits_found (buf : Bytes) (next : ℕ) (h : findStartCode buf = some next) :
    splitNALUnits buf =
      (if 0 < next then [buf.take next] else [])++splitNALUnits (buf.drop (next+4)) := by
  have hne : buf ≠ [] := by
    rintro rfl
    cases h
  obtain ⟨n, hn⟩ := Nat.exists_eq_succ_of_ne_zero (List.length_pos_iff.mpr hne).ne'
  rw [splitNALUnits, hn, splitUnits, if_neg hne, h]
  dsimp only
  rw [splitUnits_rounds n (buf.drop (next+4)).length, splitNALUnits]
  · rw [List.length_drop]
    omega
  · exact le_rfl

theorem splitNALUnits_whole (buf : Bytes) (hne : buf ≠ []) (h : findStartCode buf = none) :
    splitNALUnits buf = [buf] := by
  obtain ⟨n, hn⟩ := Nat.exists_eq_succ_of_ne_zero (List.length_pos_iff.mpr hne).ne'
  rw [splitNALUnits, hn, splitUnits, if_neg hne, h]

theorem splitNALUnits_append (unit rest : Bytes) (hne : unit ≠ []) (hfree : ¬ startCode <:+: unit) :
    splitNALUnits (unit++startCode++rest) = unit::splitNALUnits rest := by
  have hnext : findStartCode (unit++startCode++rest) = some unit.length :=
    (findStartCode_some _ _).mpr (firstAt_append _ _ _ startCode_unbordered hfree)
  have htake : (unit++startCode++rest).take unit.length = unit := by
    rw [List.append_assoc, List.take_left]
  have hdrop : (unit++startCode++rest).drop (unit.length+4) = rest :=
    List.drop_left' List.length_append
  rw [splitNALUnits_found _ _ hnext, if_pos (List.length_pos_iff.mpr hne), htake, hdrop]
  rfl

theorem splitNALUnits_intercalate (nals : List Bytes)
    (hnals : ∀ n ∈ nals, n ≠ [] ∧ ¬ startCode <:+: n) :
    splitNALUnits (startCode.intercalate nals) = nals := by
  induction nals with
  | nil => rfl
  | cons n nals ih =>
    obtain ⟨hne, hfree⟩ := hnals n List.mem_cons_self
    have hrest := ih (fun m hm => hnals m (List.mem_cons_of_mem _ hm))
    cases nals with
    | nil =>
      rw [List.intercalate_singleton]
      exact splitNALUnits_whole n hne (findStartCode_none n hfree)
    | cons m nals =>
      rw [List.intercalate_cons_cons, splitNALUnits_append n _ hne hfree, hrest]

theorem splitUnits_ne_nil (rounds : ℕ) (buf : Bytes) : ∀ unit ∈ splitUnits rounds buf, unit ≠ [] := by
  induction rounds generalizing buf with
  | zero => exact fun _ h => (List.not_mem_nil h).elim
  | succ rounds ih =>
    intro unit hunit
    rw [splitUnits] at hunit
    split_ifs at hunit with hempty
    · exact (List.not_mem_nil hunit).elim
    · cases hnext : findStartCode buf with
      | none =>
        rw [hnext] at hunit
        rw [List.mem_singleton.mp hunit]
        exact hempty
      | some next =>
        rw [hnext, List.mem_append] at hunit
        rcases hunit with hunit | hunit
        · split_ifs at hunit with hpos
          · rw [List.mem_singleton.mp hunit, ← List.length_pos_iff, List.length_take]
            exact Nat.lt_min.mpr ⟨hpos,List.length_pos_iff.mpr hempty⟩
          · exact (List.not_mem_nil hunit).elim
        · exact ih _ unit hunit

theorem splitNALUnits_ne_nil (buf : Bytes) : ∀ unit ∈ splitNALUnits buf, unit ≠ [] :=
  splitUnits_ne_nil buf.length buf

theorem annexBLoop_eq (buf : Bytes) (rounds offset : ℕ) (out : List Bytes)
    (h : buf.length-offset ≤ rounds) :
    annexBLoop buf rounds offset out = out++splitNALUnits (buf.drop offset) := by
  have hover : ∀ o, buf.length ≤ o → splitNALUnits (buf.drop o) = [] := by
    intro o ho
    rw [List.drop_of_length_le ho]
    rfl
  induction rounds generalizing offset out with
  | zero => rw [annexBLoop, hover offset (by omega), List.append_nil]
  | succ rounds ih =>
    rw [annexBLoop]
    by_cases hlt : offset < buf.length
    · have hne : buf.drop offset ≠ [] := by
        rw [ne_eq, List.drop_eq_nil_iff]
        omega
      rw [if_pos hlt]
      cases hrel : findStartCode (buf.drop offset) with
      | none => rw [splitNALUnits_whole _ hne hrel]
      | some rel =>
        have hdrop : (buf.drop offset).drop (rel+4) = buf.drop (offset+rel+4) := by
          rw [List.drop_drop, Nat.add_assoc]
        dsimp only
        rw [ih _ _ (by omega), splitNALUnits_found _ _ hrel, hdrop]
        by_cases hpos : 0 < rel
        · rw [if_pos hpos, if_pos hpos, List.append_assoc]
        · rw [if_neg hpos, if_neg hpos, List.nil_append]
    · rw [if_neg hlt, hover offset (by omega), List.append_nil]

theorem splitAnnexBNALs_eq (buf : Bytes) : splitAnnexBNALs buf = splitNALUnits buf := by
  unfold splitAnnexBNALs
  by_cases hempty : buf = []
  · rw [if_pos hempty, hempty]
    rfl
  · rw [if_neg hempty, annexBLoop_eq buf _ _ _ (Nat.sub_le _ _)]
    rfl

def parseAVCCSample (sample : Bytes) : Option (List Bytes) := Framing.parse 4 sample

theorem parseAVCCSample_encode (annexB : Bytes) (hne : splitNALUnits annexB ≠ [])
    (hshort : ∀ unit ∈ splitNALUnits annexB, unit.length < 2^32) :
    parseAVCCSample (encodeAVCCSample annexB) = some (splitNALUnits annexB) := by
  have hfilter : (splitNALUnits annexB).filter (· ≠ []) = splitNALUnits annexB :=
    List.filter_eq_self.mpr (fun unit hunit => decide_eq_true (splitNALUnits_ne_nil _ unit hunit))
  have hsample : encodeAVCCSample annexB = (splitNALUnits annexB).flatMap (Framing.frame 4) := by
    unfold encodeAVCCSample
    dsimp only
    rw [if_neg hne, hfilter]
    rfl
  rw [parseAVCCSample, hsample]
  exact Framing.parse_flatMap 4 (by decide) _ hshort

/-- Units without a start code, whatever zeros they begin or end with, come back from
a buffer in which start codes stand between them. On every buffer both splitters return
the same units, the keyframe scan looks for a unit of type 5 among them, and a sample
is read back as these units by its lengths. -/
theorem nal_splitters_agree :
    (∀ nals : List Bytes, (∀ n ∈ nals, n ≠ [] ∧ ¬ startCode <:+: n) →
      splitNALUnits (startCode.intercalate nals) = nals) ∧
    ∀ buf : Bytes, splitAnnexBNALs buf = splitNALUnits buf ∧
      (isKeyframe buf = true ↔ ∃ unit ∈ splitNALUnits buf, nalType unit = 5) ∧
      (splitNALUnits buf ≠ [] → (∀ unit ∈ splitNALUnits buf, unit.length < 2^32) →
        parseAVCCSample (encodeAVCCSample buf) = some (splitNALUnits buf)) := by
  refine ⟨splitNALUnits_intercalate, fun buf => ⟨splitAnnexBNALs_eq buf, isKeyframe_iff buf, ?_⟩⟩
  exact parseAVCCSample_encode buf

/-- A unit that ends with zeros, and one that begins with them. -/
theorem nal_splitters_agree_zeros :
    splitNALUnits (startCode.intercalate [[0x41, 0, 0], [0, 0, 1, 0x65]]) =
      [[0x41, 0, 0], [0, 0, 1, 0x65]] ∧
    parseAVCCSample (encodeAVCCSample [0x41, 0, 0, 0, 0, 0, 0, 1, 0x65]) =
      some (splitNALUnits [0x41, 0, 0, 0, 0, 0, 0, 1, 0x65]) :=
  ⟨nal_splitters_agree.1 _ (by decide),
    (nal_splitters_agree.2 _).2.2 (by decide) (by decide)⟩

end Aevia.Whip
