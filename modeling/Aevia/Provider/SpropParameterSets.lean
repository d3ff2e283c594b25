import Aevia.Foundation.BaseEncoding
import Aevia.Foundation.TextFields
import Aevia.Provider.Frames

/-!
# Parameter sets of an offer

An H.264 fmtp line names its payload type and then its parameters, between
semicolons. The scan takes the pieces of the whole line, so it misses a parameter
that stands behind the payload type, and cuts a value once, so it takes only a
value of exactly two sets. The first it can take need not be the first to qualify.
-/

set_option autoImplicit false

namespace Aevia.Whip
open Aevia.Bytes Aevia.BaseEncoding Aevia.TextFields

def fmtpPrefix : Bytes := ascii "a=fmtp:"

def spropPrefix : Bytes := ascii "sprop-parameter-sets="

/-- The body of the inner loop; nothing is its `continue`. -/
def parameterPair (kv : Bytes) : Option (Bytes × Bytes) :=
  let kv := trimSpace kv
  if spropPrefix.isPrefixOf kv then
    let val := kv.drop spropPrefix.length
    match splitN2 44 val with
    | [part0, part1] =>
      match base64Decode (trimSpace part0), base64Decode (trimSpace part1) with
      | some spsB, some ppsB => if spsB = [] ∨ ppsB = [] then none else some (spsB, ppsB)
      | _, _ => none
    | _ => none
  else none

def linePair (line : Bytes) : Option (Bytes × Bytes) :=
  let line := trimRight [[13]] line
  if fmtpPrefix.isPrefixOf line then (line.splitOn 59).findSome? parameterPair else none

def parseSpropParameterSets (sdp : Bytes) : Bytes × Bytes :=
  ((sdp.splitOn 10).findSome? linePair).getD ([], [])

/-- A parameter of an fmtp line and whether it is the first one. -/
structure Parameter where
  leads : Bool
  text : Bytes
  deriving DecidableEq

def parameters (line : Bytes) : List Parameter :=
  match line.splitOn 59 with
  | [] => []
  | head::rest => ⟨true, trimSpace (head.dropWhile (fun c => c ≠ 32))⟩::
      rest.map (fun kv => ⟨false, trimSpace kv⟩)

def fmtpLines (sdp : Bytes) : List Bytes :=
  ((sdp.splitOn 10).map (trimRight [[13]])).filter (fun line => fmtpPrefix.isPrefixOf line)

def fmtpParameters (sdp : Bytes) : List Parameter := (fmtpLines sdp).flatMap parameters

/-- The comma-separated entries of a sprop-parameter-sets value, as far as they decode. -/
def Parameter.sets (p : Parameter) : List (Option Bytes) :=
  if spropPrefix.isPrefixOf p.text then
    ((p.text.drop spropPrefix.length).splitOn 44).map (fun e => base64Decode (trimSpace e))
  else []

/-- At least two sets, all of them valid and not empty, an SPS and then a PPS. -/
def Parameter.qualifying (p : Parameter) : Option (Bytes × Bytes) :=
  match p.sets with
  | some sps::some pps::more =>
    if sps ≠ [] ∧ pps ≠ [] ∧ (∀ set ∈ more, set ≠ none ∧ set ≠ some []) ∧
      nalType sps = 7 ∧ nalType pps = 8 then some (sps, pps) else none
  | _ => none

/-- The two sets of a parameter that has no others and does not stand in first place. -/
def Parameter.plain (p : Parameter) : Option (Bytes × Bytes) :=
  match p.leads, p.sets with
  | false, [some sps, some pps] => if sps = [] ∨ pps = [] then none else some (sps, pps)
  | _, _ => none

theorem Parameter.plain_iff (p : Parameter) (sps pps : Bytes) :
    p.plain = some (sps, pps) ↔
      p.leads = false ∧ p.sets = [some sps, some pps] ∧ sps ≠ [] ∧ pps ≠ [] := by
  rw [plain]
  constructor
  · intro h
    split at h
    · rename_i spsB ppsB hleads hsets
      split_ifs at h with hempty
      obtain ⟨rfl, rfl⟩ := Prod.mk.inj (Option.some.inj h)
      exact ⟨hleads,hsets,not_or.mp hempty⟩
    · cases h
  · rintro ⟨hleads, hsets, hne⟩
    rw [hleads, hsets]
    exact if_neg (not_or.mpr hne)

section Decoding

theorem mapM_none {α β : Type} (f : α → Option β) (a : α) (ha : f a = none) (s : List α)
    (h : a ∈ s) : s.mapM f = none := by
  induction s with
  | nil => cases h
  | cons b s ih =>
    rw [List.mapM_cons]
    rcases List.mem_cons.mp h with rfl | h
    · rw [ha]
      rfl
    · rw [ih h]
      cases f b <;> rfl

theorem base64Decode_none (c : UInt8) (hnewline : isNewline c = false) (hpad : c ≠ padChar)
    (hvalue : base64Std.value c = none) (s : Bytes) (hc : c ∈ s) : base64Decode s = none := by
  have hkept : c ∈ s.filter (fun c => !isNewline c) :=
    List.mem_filter.mpr ⟨hc,by rw [hnewline]; rfl⟩
  have hbody : c ∈ (s.filter (fun c => !isNewline c)).rdropWhile (fun c => c == padChar) := by
    have hsplit := List.takeWhile_append_dropWhile
      (p := fun c => c == padChar) (l := (s.filter (fun c => !isNewline c)).reverse)
    rw [← List.mem_reverse, ← hsplit, List.mem_append] at hkept
    rw [List.rdropWhile, List.mem_reverse]
    refine hkept.resolve_left (fun htake => hpad ?_)
    simpa using List.mem_takeWhile_imp htake
  simp only [base64Decode, decode, mapM_none _ c hvalue _ hbody, Option.map_none, ite_self]

theorem no_comma (part : Bytes) (h : base64Decode (trimSpace part) ≠ none) : (44 : UInt8) ∉ part := by
  intro hmem
  refine h (base64Decode_none 44 (by decide) (by decide) (by decide) _ ?_)
  exact mem_trimSpace 44 (by decide) part hmem

end Decoding

section Scan

/-- The piece with the payload type is no parameter. -/
theorem parameterPair_head (head : Bytes) : parameterPair (fmtpPrefix++head) = none := by
  have hpre := trimSpace_prefix 97 (by decide) ((fmtpPrefix++head).tail)
  have hnot : ¬ spropPrefix.isPrefixOf (trimSpace (fmtpPrefix++head)) = true := by
    intro h
    have hsprop := List.isPrefixOf_iff_prefix.mp h
    have hfirst := hsprop.trans hpre
    exact absurd (List.cons_prefix_cons.mp hfirst).1 (by decide)
  rw [parameterPair, if_neg hnot]

theorem two_sets (val : Bytes) (sps pps : Bytes) :
    (val.splitOn 44).map (fun e => base64Decode (trimSpace e)) = [some sps, some pps] ↔
      ∃ part0 part1, splitN2 44 val = [part0, part1] ∧
        base64Decode (trimSpace part0) = some sps ∧ base64Decode (trimSpace part1) = some pps := by
  rcases splitN2_splitOn 44 val with ⟨hcut, hsplit⟩ | ⟨first, rest, hcut, hsplit⟩
  · rw [hcut, hsplit]
    refine iff_of_false (fun h => ?_) ?_
    · exact absurd (congrArg List.length h) (by simp)
    · rintro ⟨part0, part1, h, -⟩
      cases h
  · rw [hcut, hsplit, List.map_cons]
    constructor
    · intro h
      obtain ⟨hfirst, hrest⟩ := List.cons.inj h
      obtain ⟨field, hfields, hfield⟩ := List.map_eq_singleton_iff.mp hrest
      obtain ⟨rfl, -⟩ := splitOn_singleton 44 rest field hfields
      exact ⟨first,field,rfl,hfirst,hfield⟩
    · rintro ⟨part0, part1, h, hsps, hpps⟩
      obtain ⟨rfl, hparts⟩ := List.cons.inj h
      obtain rfl := List.singleton_inj.mp hparts
      have hcomma := no_comma rest (by rw [hpps]; exact Option.some_ne_none pps)
      rw [List.splitOn_eq_singleton hcomma, List.map_singleton, hsps, hpps]

theorem parameterPair_iff (kv sps pps : Bytes) :
    parameterPair kv = some (sps, pps) ↔
      (⟨false, trimSpace kv⟩ : Parameter).sets = [some sps, some pps] ∧ sps ≠ [] ∧ pps ≠ [] := by
  rw [parameterPair, Parameter.sets]
  dsimp only
  by_cases hname : spropPrefix.isPrefixOf (trimSpace kv) = true
  · rw [if_pos hname, if_pos hname, two_sets]
    generalize (trimSpace kv).drop spropPrefix.length = val
    constructor
    · intro h
      split at h
      · rename_i part0 part1 hcut
        split at h
        · rename_i spsB ppsB hsps hpps
          split_ifs at h with hempty
          obtain ⟨rfl, rfl⟩ := Prod.mk.inj (Option.some.inj h)
          exact ⟨⟨part0,part1,hcut,hsps,hpps⟩,not_or.mp hempty⟩
        · cases h
      · cases h
    · rintro ⟨⟨part0, part1, hcut, hsps, hpps⟩, hne⟩
      simp only [hcut, hsps, hpps]
      exact if_neg (not_or.mpr hne)
  · rw [if_neg hname, if_neg hname]
    refine iff_of_false (fun h => ?_) (fun h => ?_)
    · cases h
    · cases h.1

theorem parameterPair_plain (kv : Bytes) :
    parameterPair kv = (⟨false, trimSpace kv⟩ : Parameter).plain := by
  refine Option.ext (fun pair => ?_)
  obtain ⟨sps, pps⟩ := pair
  rw [parameterPair_iff, Parameter.plain_iff]
  exact (and_iff_right rfl).symm

/-- A leading parameter is never taken. -/
theorem parameterPair_piece (line : Bytes) (hline : fmtpPrefix.isPrefixOf line = true) :
    ∃ head rest, line.splitOn 59 = head::rest ∧ parameterPair head = none := by
  obtain ⟨body, rfl⟩ := List.isPrefixOf_iff_prefix.mp hline
  by_cases h : (59 : UInt8) ∈ body
  · obtain ⟨first, rest, rfl, hfirst⟩ := List.eq_append_cons_of_mem h
    have hhead : (59 : UInt8) ∉ fmtpPrefix++first := List.not_mem_append (by decide) hfirst
    refine ⟨fmtpPrefix++first, rest.splitOn 59, ?_, parameterPair_head first⟩
    rw [← List.append_assoc, List.splitOn_append_cons_self_of_not_mem hhead]
  · have hhead : (59 : UInt8) ∉ fmtpPrefix++body := List.not_mem_append (by decide) h
    exact ⟨fmtpPrefix++body,[],List.splitOn_eq_singleton hhead,parameterPair_head body⟩

theorem linePair_plain (line : Bytes) (hline : fmtpPrefix.isPrefixOf line = true) :
    (line.splitOn 59).findSome? parameterPair = (parameters line).findSome? Parameter.plain := by
  obtain ⟨head, rest, hpieces, hhead⟩ := parameterPair_piece line hline
  have hrest : rest.findSome? parameterPair =
      (rest.map (fun kv => (⟨false, trimSpace kv⟩ : Parameter))).findSome? Parameter.plain := by
    rw [List.findSome?_map]
    exact congrArg rest.findSome? (funext parameterPair_plain)
  rw [parameters, hpieces, List.findSome?_cons, hhead, hrest]
  rfl

theorem parse_plain (sdp : Bytes) :
    parseSpropParameterSets sdp =
      ((fmtpParameters sdp).findSome? Parameter.plain).getD ([], []) := by
  have hlines : ∀ lines : List Bytes, lines.findSome? linePair =
      (((lines.map (trimRight [[13]])).filter (fun line => fmtpPrefix.isPrefixOf line)).flatMap
        parameters).findSome? Parameter.plain := by
    intro lines
    induction lines with
    | nil => rfl
    | cons line lines ih =>
      rw [List.findSome?_cons, linePair, List.map_cons]
      by_cases hline : fmtpPrefix.isPrefixOf (trimRight [[13]] line) = true
      · rw [if_pos hline, linePair_plain _ hline, List.filter_cons_of_pos hline, List.flatMap_cons,
          List.findSome?_append, ih]
        cases (parameters (trimRight [[13]] line)).findSome? Parameter.plain <;> rfl
      · rw [if_neg hline, List.filter_cons_of_neg hline, ih]
  rw [parseSpropParameterSets, hlines, fmtpParameters, fmtpLines]

end Scan

section Qualifying

def Parameter.Pairs (p : Parameter) : Prop :=
  ∃ sps pps, p.sets = [some sps, some pps] ∧ sps ≠ [] ∧ pps ≠ []

theorem Parameter.plain_none (p : Parameter) :
    p.plain = none ↔ (p.leads = false → ¬ p.Pairs) := by
  constructor
  · rintro hnone hleads ⟨sps, pps, hsets, hne⟩
    have hsome := (p.plain_iff sps pps).mpr ⟨hleads,hsets,hne⟩
    rw [hnone] at hsome
    cases hsome
  · intro h
    cases hplain : p.plain with
    | none => rfl
    | some pair =>
      obtain ⟨hleads, hsets, hne⟩ := (p.plain_iff pair.1 pair.2).mp hplain
      exact (h hleads ⟨_,_,hsets,hne⟩).elim

theorem Parameter.qualifying_sets (p : Parameter) (pair : Bytes × Bytes)
    (h : p.qualifying = some pair) :
    (∃ more, p.sets = some pair.1::some pair.2::more) ∧ pair.1 ≠ [] ∧ pair.2 ≠ [] := by
  rw [qualifying] at h
  split at h
  · rename_i sps pps more hsets
    split_ifs at h with hvalid
    cases h
    exact ⟨⟨more,hsets⟩,hvalid.1,hvalid.2.1⟩
  · cases h

/-- A qualifying parameter that stands behind another and has no third set, with
no two-set parameter before it in a place that is scanned. -/
structure Reached (before : List Parameter) (p : Parameter) : Prop where
  behind : p.leads = false
  two : p.sets.length = 2
  first : ∀ q ∈ before, q.leads = false → ¬ q.Pairs

/-- The first qualifying parameter of an offer, between the other parameters. -/
structure FirstQualifying (sdp : Bytes) (before : List Parameter) (p : Parameter)
    (after : List Parameter) (pair : Bytes × Bytes) : Prop where
  split : fmtpParameters sdp = before++p::after
  qualifies : p.qualifying = some pair
  first : ∀ q ∈ before, q.qualifying = none

theorem firstQualifying_exists (sdp : Bytes) (pair : Bytes × Bytes) :
    (∃ before p after, FirstQualifying sdp before p after pair) ↔
      (fmtpParameters sdp).findSome? Parameter.qualifying = some pair := by
  rw [List.findSome?_eq_some_iff]
  constructor
  · rintro ⟨before, p, after, h⟩
    exact ⟨before,p,after,h.split,h.qualifies,h.first⟩
  · rintro ⟨before, p, after, hsplit, hp, hfirst⟩
    exact ⟨before,p,after,hsplit,hp,hfirst⟩

/-- The scan returns the two sets of the first qualifying parameter if it is reached,
and only then unless another parameter carries the same two sets. -/
theorem sprop_sets_exact (sdp : Bytes) (before after : List Parameter) (p : Parameter)
    (pair : Bytes × Bytes) (h : FirstQualifying sdp before p after pair) :
    (Reached before p → parseSpropParameterSets sdp = pair) ∧
    ((∀ q ∈ before++after, q.sets ≠ [some pair.1, some pair.2]) →
      parseSpropParameterSets sdp = pair → Reached before p) := by
  obtain ⟨⟨more, hsets⟩, hne⟩ := p.qualifying_sets pair h.qualifies
  rw [parse_plain, h.split]
  constructor
  · rintro ⟨hbehind, htwo, hbefore⟩
    have hmore : more = [] := by
      rw [hsets, List.length_cons, List.length_cons] at htwo
      exact List.length_eq_zero_iff.mp (by omega)
    rw [hmore] at hsets
    have hplain : p.plain = some pair := (p.plain_iff pair.1 pair.2).mpr ⟨hbehind,hsets,hne⟩
    have hfound := List.findSome?_eq_some_iff.mpr
      ⟨before,p,after,rfl,hplain,fun q hq => q.plain_none.mpr (hbefore q hq)⟩
    rw [hfound]
    rfl
  · intro hother hparse
    cases hfound : (before++p::after).findSome? Parameter.plain with
    | none =>
      rw [hfound] at hparse
      exact (hne.1 (congrArg Prod.fst hparse).symm).elim
    | some found =>
      rw [hfound] at hparse
      obtain rfl : found = pair := hparse
      obtain ⟨before', q, after', hlist, hplain, hbefore⟩ := List.findSome?_eq_some_iff.mp hfound
      obtain ⟨hbehind, hpair, -⟩ := (q.plain_iff found.1 found.2).mp hplain
      -- no other parameter has the two sets, so the one that is taken is the qualifying one
      have hout : q ∉ before ∧ q ∉ after :=
        ⟨fun hq => hother q (List.mem_append_left _ hq) hpair,
          fun hq => hother q (List.mem_append_right _ hq) hpair⟩
      obtain ⟨rfl, rfl, -⟩ := (List.append_cons_inj_of_notMem hout.1 hout.2).mp hlist
      refine ⟨hbehind, by rw [hpair]; rfl, fun r hr => ?_⟩
      exact r.plain_none.mp (hbefore r hr)

end Qualifying

section Samples

def usualOffer : Bytes :=
  ascii "v=0\na=fmtp:96 packetization-mode=1; sprop-parameter-sets=ZwE=,aAI=; level=31\n"

/-- One parameter without sets leads and another follows. -/
theorem sprop_sets_exact_usual : parseSpropParameterSets usualOffer = ([0x67, 1], [0x68, 2]) := by
  refine (sprop_sets_exact usualOffer [⟨true, ascii "packetization-mode=1"⟩]
    [⟨false, ascii "level=31"⟩] ⟨false, ascii "sprop-parameter-sets=ZwE=,aAI="⟩
    ([0x67, 1], [0x68, 2]) ⟨by decide +kernel,by decide +kernel,by decide +kernel⟩).1
      ⟨rfl,by decide +kernel,?_⟩
  intro q hq hleads
  rw [List.mem_singleton.mp hq] at hleads
  cases hleads

def leadingOffer : Bytes := ascii "a=fmtp:96 sprop-parameter-sets=ZwE=,aAI=;packetization-mode=1"

def threeSetsOffer : Bytes := ascii "a=fmtp:96 packetization-mode=1;sprop-parameter-sets=ZwE=,aAI=,aAM="

/-- A parameter behind the payload type is not found, nor is one of three sets. -/
theorem qualifying_sets_missed :
    (fmtpParameters leadingOffer).findSome? Parameter.qualifying = some ([0x67, 1], [0x68, 2]) ∧
    parseSpropParameterSets leadingOffer = ([], []) ∧
    (fmtpParameters threeSetsOffer).findSome? Parameter.qualifying = some ([0x67, 1], [0x68, 2]) ∧
    parseSpropParameterSets threeSetsOffer = ([], []) := by
  decide +kernel

end Samples

end Aevia.Whip
