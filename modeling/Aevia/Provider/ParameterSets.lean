import Aevia.Provider.HlsMuxer

/-!
# Parameter sets in front of IDR units

A cache holds the first parameter set of its kind that was supplied or seen, and
an IDR unit that lacks one gets it from there.
-/

set_option autoImplicit false

namespace Aevia.Whip
open Aevia.Run

structure ParameterSets where
  sps : Bytes
  pps : Bytes
  sps_type : sps = [] ∨ nalType sps = 7
  pps_type : pps = [] ∨ nalType pps = 8

def hasType (kind : UInt8) (nals : List Bytes) : Bool := nals.any (fun nal => nalType nal = kind)

def ofType (kind : UInt8) (nals : List Bytes) : List Bytes :=
  nals.filter (fun nal => nalType nal = kind)

def supplied (set : Bytes) : List Bytes := if set = [] then [] else [set]

def seen (set : Bytes) (kind : UInt8) (written : List Write) : List Bytes :=
  supplied set++ofType kind (written.flatMap Write.nals)

theorem supplied_ne_nil (set : Bytes) : ∀ nal ∈ supplied set, nal ≠ [] := by
  intro nal hnal
  unfold supplied at hnal
  split_ifs at hnal with hset
  · exact (List.not_mem_nil hnal).elim
  · rw [List.mem_singleton.mp hnal]
    exact hset

theorem ofType_type (kind : UInt8) (nals : List Bytes) :
    ∀ nal ∈ ofType kind nals, nalType nal = kind :=
  fun _ h => of_decide_eq_true (List.mem_filter.mp h).2

theorem type_ne_nil (kind : UInt8) (hkind : kind ≠ 0) (nal : Bytes) (h : nalType nal = kind) :
    nal ≠ [] := by
  rintro rfl
  exact hkind h.symm

theorem seen_ne_nil (set : Bytes) (kind : UInt8) (hkind : kind ≠ 0) (written : List Write) :
    ∀ nal ∈ seen set kind written, nal ≠ [] := by
  intro nal hnal
  rcases List.mem_append.mp hnal with hnal | hnal
  · exact supplied_ne_nil set nal hnal
  · exact type_ne_nil kind hkind nal (ofType_type kind _ nal hnal)

theorem seen_type (set : Bytes) (kind : UInt8) (hset : set = [] ∨ nalType set = kind)
    (written : List Write) : ∀ nal ∈ seen set kind written, nalType nal = kind := by
  intro nal hnal
  rcases List.mem_append.mp hnal with hnal | hnal
  · unfold supplied at hnal
    split_ifs at hnal with hempty
    · exact (List.not_mem_nil hnal).elim
    · rw [List.mem_singleton.mp hnal]
      exact hset.resolve_left hempty
  · exact ofType_type kind _ nal hnal

theorem seen_append (set : Bytes) (kind : UInt8) (written more : List Write) :
    seen set kind (written++more) =
      seen set kind written++ofType kind (more.flatMap Write.nals) := by
  rw [seen, seen, List.flatMap_append, ofType, List.filter_append, ← List.append_assoc]
  rfl

def earliest : List Bytes → Bytes
  | [] => []
  | nal::_ => nal

theorem earliest_supplied (l more : List Bytes) (hl : ∀ nal ∈ l, nal ≠ []) :
    earliest (supplied (earliest l)++more) = earliest (l++more) := by
  cases l with
  | nil => rfl
  | cons nal l =>
    have hne : nal ≠ [] := hl nal List.mem_cons_self
    rw [earliest, supplied, if_neg hne]
    rfl

theorem earliest_eq_nil (l : List Bytes) (hl : ∀ nal ∈ l, nal ≠ []) : earliest l = [] ↔ l = [] := by
  cases l with
  | nil => exact iff_of_true rfl rfl
  | cons nal l => exact iff_of_false (hl nal List.mem_cons_self) (List.cons_ne_nil nal l)

section Scanning

def Scan.after (s : Scan) (nals : List Bytes) : Scan where
  hasIDR := s.hasIDR || hasType 5 nals
  hasSPS := s.hasSPS || hasType 7 nals
  hasPPS := s.hasPPS || hasType 8 nals
  spsCache := earliest (supplied s.spsCache++ofType 7 nals)
  ppsCache := earliest (supplied s.ppsCache++ofType 8 nals)

theorem supplied_alone (set : Bytes) : earliest (supplied set) = set := by
  unfold supplied
  split_ifs with hset
  · exact hset.symm
  · rfl

theorem Scan.after_nil (s : Scan) : s.after [] = s := by
  simp only [Scan.after, hasType, ofType, List.any_nil, Bool.or_false, List.filter_nil,
    List.append_nil, supplied_alone]

theorem supplied_offered (set nal : Bytes) :
    earliest (supplied set++[nal]) = if set = [] then nal else set := by
  unfold supplied
  split_ifs <;> rfl

theorem scanUnit_after (s : Scan) (nal : Bytes) : scanUnit s nal = s.after [nal] := by
  have hhas : ∀ kind, hasType kind [nal] = decide (nalType nal = kind) := by
    intro kind
    rw [hasType, List.any_cons, List.any_nil, Bool.or_false]
  have hof : ∀ kind, ofType kind [nal] = if nalType nal = kind then [nal] else [] := by
    intro kind
    rw [ofType, List.filter_cons, List.filter_nil]
    simp only [decide_eq_true_eq]
  unfold scanUnit Scan.after
  simp only [hhas, hof]
  by_cases hempty : nal = []
  · have hzero : nalType nal = 0 := by
      rw [hempty]
      rfl
    rw [if_pos hempty, hzero]
    simp [supplied_alone]
  · by_cases h5 : nalType nal = 5
    · simp [hempty, h5, supplied_alone]
    · by_cases h7 : nalType nal = 7
      · simp [hempty, h7, supplied_alone, supplied_offered]
      · by_cases h8 : nalType nal = 8
        · simp [hempty, h8, supplied_alone, supplied_offered]
        · simp [hempty, h5, h7, h8, supplied_alone]

theorem Scan.after_cons (s : Scan) (nal : Bytes) (nals : List Bytes) :
    (s.after [nal]).after nals = s.after (nal::nals) := by
  have hany : ∀ kind, hasType kind (nal::nals) = (hasType kind [nal] || hasType kind nals) :=
    fun _ => @List.any_append _ _ [nal] nals
  have hfilter : ∀ kind, ofType kind (nal::nals) = ofType kind [nal]++ofType kind nals :=
    fun kind => List.filter_append [nal] nals
  have hne : ∀ set kind, kind ≠ 0 → ∀ x ∈ supplied set++ofType kind [nal], x ≠ [] := by
    intro set kind hkind x hx
    rcases List.mem_append.mp hx with hx | hx
    · exact supplied_ne_nil set x hx
    · exact type_ne_nil kind hkind x (ofType_type kind _ x hx)
  simp only [Scan.after, hany, hfilter, Bool.or_assoc,
    earliest_supplied _ _ (hne s.spsCache 7 (by decide)),
    earliest_supplied _ _ (hne s.ppsCache 8 (by decide)), List.append_assoc]

theorem scan_units (nals : List Bytes) (s : Scan) : nals.foldl scanUnit s = s.after nals := by
  induction nals generalizing s with
  | nil => exact s.after_nil.symm
  | cons nal nals ih => rw [List.foldl_cons, ih, scanUnit_after, Scan.after_cons]

end Scanning

/-- What goes in front of a unit, by the parameter sets seen up to it. -/
def injected (spss ppss nals : List Bytes) : List Bytes :=
  if hasType 5 nals ∧ (hasType 7 nals = false ∨ hasType 8 nals = false) ∧ spss ≠ [] ∧ ppss ≠ [] then
    (if hasType 7 nals then [] else [earliest spss])++(if hasType 8 nals then [] else [earliest ppss])
  else []

section Caching
variable (sps pps : Bytes)

structure Caching (m : HLSMuxer) : Prop where
  spsCache : m.spsCache = earliest (seen sps 7 m.mux.written)
  ppsCache : m.ppsCache = earliest (seen pps 8 m.mux.written)
  written : ∀ before w, before++[w] <+: m.mux.written → w.prepended =
    injected (seen sps 7 (before++[w])) (seen pps 8 (before++[w])) w.nals

theorem newHLSMuxer_caching (startTime : ℤ) : Caching sps pps (newHLSMuxer startTime sps pps) where
  spsCache := by
    show sps = earliest (supplied sps++[])
    rw [List.append_nil, supplied_alone]
  ppsCache := by
    show pps = earliest (supplied pps++[])
    rw [List.append_nil, supplied_alone]
  written := by
    intro before w h
    have hlen := h.length_le
    rw [List.length_append] at hlen
    exact absurd hlen (by simp [newHLSMuxer])

theorem cache_offered (set : Bytes) (kind : UInt8) (hkind : kind ≠ 0) (written : List Write)
    (w : Write) : earliest (supplied (earliest (seen set kind written))++ofType kind w.nals) =
      earliest (seen set kind (written++[w])) := by
  rw [earliest_supplied _ _ (seen_ne_nil set kind hkind written), seen_append,
    List.flatMap_singleton]

theorem scan_prepended (m : HLSMuxer) (h : Caching sps pps m) (w : Write)
    (hw : w.nals = m.currentAU) :
    m.scan.spsCache = earliest (seen sps 7 (m.mux.written++[w])) ∧
    m.scan.ppsCache = earliest (seen pps 8 (m.mux.written++[w])) ∧
    m.scan.prepended =
      injected (seen sps 7 (m.mux.written++[w])) (seen pps 8 (m.mux.written++[w])) w.nals := by
  have hscan : m.scan = {
      hasIDR := hasType 5 w.nals
      hasSPS := hasType 7 w.nals
      hasPPS := hasType 8 w.nals
      spsCache := earliest (seen sps 7 (m.mux.written++[w]))
      ppsCache := earliest (seen pps 8 (m.mux.written++[w])) } := by
    rw [HLSMuxer.scan, scan_units, ← hw]
    simp only [Scan.after, Bool.false_or, h.spsCache, h.ppsCache, cache_offered sps 7 (by decide),
      cache_offered pps 8 (by decide)]
  have hsps := earliest_eq_nil _ (seen_ne_nil sps 7 (by decide) (m.mux.written++[w]))
  have hpps := earliest_eq_nil _ (seen_ne_nil pps 8 (by decide) (m.mux.written++[w]))
  refine ⟨by rw [hscan], by rw [hscan], ?_⟩
  rw [hscan, Scan.prepended, injected]
  simp only [ne_eq, hsps, hpps]

theorem flush_caching (m : HLSMuxer) (h : Caching sps pps m) :
    Caching sps pps m.flushCurrentAULocked := by
  unfold HLSMuxer.flushCurrentAULocked
  split_ifs with hempty
  · exact h
  · refine ⟨?_, ?_, ?_⟩
    · exact (scan_prepended sps pps m h ⟨_,_,_,_⟩ rfl).1
    · exact (scan_prepended sps pps m h ⟨_,_,_,_⟩ rfl).2.1
    · intro before w hbefore
      rcases List.prefix_concat_iff.mp hbefore with heq | hold
      · obtain ⟨rfl, hlast⟩ := List.append_inj' heq rfl
        rw [List.singleton_inj.mp hlast]
        exact (scan_prepended sps pps m h ⟨_,_,_,_⟩ rfl).2.2
      · exact h.written before w hold

theorem start_caching (m : HLSMuxer) (f : VideoFrame) (h : Caching sps pps m) :
    Caching sps pps (m.start f) := by
  unfold HLSMuxer.start
  split_ifs
  · exact h
  · exact ⟨h.spsCache,h.ppsCache,h.written⟩

theorem flushDue_caching (m : HLSMuxer) (f : VideoFrame) (h : Caching sps pps m) :
    Caching sps pps (m.flushDue f) := by
  unfold HLSMuxer.flushDue
  split_ifs
  · exact flush_caching sps pps m h
  · exact h

theorem next_caching (m : HLSMuxer) (op : HLSMuxer.Op) (h : Caching sps pps m) :
    Caching sps pps (m.next op) := by
  cases op with
  | onVideoFrame f =>
    have hflushed := flushDue_caching sps pps _ f (start_caching sps pps m f h)
    exact ⟨hflushed.spsCache,hflushed.ppsCache,hflushed.written⟩
  | close =>
    have hflushed := flush_caching sps pps m h
    exact ⟨hflushed.spsCache,hflushed.ppsCache,hflushed.written⟩

theorem run_caching (startTime : ℤ) (ops : List HLSMuxer.Op) :
    Caching sps pps (run HLSMuxer.next (newHLSMuxer startTime sps pps) ops) :=
  run_invariant HLSMuxer.next (Caching sps pps) (fun m op h => next_caching sps pps m op h) _ ops
    (newHLSMuxer_caching sps pps startTime)

end Caching

/-- The unit has both parameter sets, and what was injected is the latest of its kind. -/
structure SelfDecodable (p : ParameterSets) (before : List Write) (w : Write) : Prop where
  sps : hasType 7 w.au = true
  pps : hasType 8 w.au = true
  latest : ∀ nal ∈ w.prepended,
    (nalType nal = 7 → (seen p.sps 7 (before++[w])).getLast? = some nal) ∧
    (nalType nal = 8 → (seen p.pps 8 (before++[w])).getLast? = some nal)

/-- The first parameter set of the kind is also the latest, where the unit has none. -/
def Unchanged (set : Bytes) (kind : UInt8) (before : List Write) (w : Write) : Prop :=
  hasType kind w.nals = false →
    (seen set kind (before++[w])).head? = (seen set kind (before++[w])).getLast?

instance (set : Bytes) (kind : UInt8) (before : List Write) (w : Write) :
    Decidable (Unchanged set kind before w) := inferInstanceAs (Decidable (_ → _))

theorem earliest_head (l : List Bytes) (h : l ≠ []) : l.head? = some (earliest l) := by
  cases l with
  | nil => exact absurd rfl h
  | cons nal l => rfl

theorem earliest_mem (l : List Bytes) (h : l ≠ []) : earliest l ∈ l := by
  cases l with
  | nil => exact absurd rfl h
  | cons nal l => exact List.mem_cons_self

/-- At most one parameter set of each kind, from those seen. -/
theorem injected_seen (spss ppss nals : List Bytes) :
    (injected spss ppss nals).length ≤ 2 ∧
    ∀ nal ∈ injected spss ppss nals, nal ∈ spss ∨ nal ∈ ppss := by
  unfold injected
  split
  · rename_i hinject
    obtain ⟨-, -, hspss, hppss⟩ := hinject
    have hfirst := earliest_mem spss hspss
    have hsecond := earliest_mem ppss hppss
    cases hasType 7 nals <;> cases hasType 8 nals <;> simp [hfirst, hsecond]
  · exact ⟨Nat.zero_le _,fun _ h => (List.not_mem_nil h).elim⟩

theorem mem_injected (spss ppss nals : List Bytes) (hidr : hasType 5 nals = true)
    (hsps : spss ≠ []) (hpps : ppss ≠ []) (nal : Bytes) :
    nal ∈ injected spss ppss nals ↔
      (hasType 7 nals = false ∧ nal = earliest spss) ∨
      (hasType 8 nals = false ∧ nal = earliest ppss) := by
  unfold injected
  cases h7 : hasType 7 nals <;> cases h8 : hasType 8 nals <;> simp [hidr, hsps, hpps]

theorem hasType_append (kind : UInt8) (nals more : List Bytes) :
    hasType kind (nals++more) = (hasType kind nals || hasType kind more) := List.any_append

theorem hasType_of_mem (kind : UInt8) (nals : List Bytes) (nal : Bytes) (h : nal ∈ nals)
    (hkind : nalType nal = kind) : hasType kind nals = true :=
  List.any_eq_true.mpr ⟨nal,h,decide_eq_true hkind⟩

/-- Every IDR unit that is written once both parameter sets were supplied or seen has
both. What was injected into it is the latest of its kind if and only if, where the
unit has none of its own, the first one is the latest. -/
theorem idr_units_current (startTime : ℤ) (p : ParameterSets) (ops : List HLSMuxer.Op)
    (before : List Write) (w : Write)
    (hw : before++[w] <+: (run HLSMuxer.next (newHLSMuxer startTime p.sps p.pps) ops).mux.written)
    (hidr : hasType 5 w.nals = true) (hsps : seen p.sps 7 (before++[w]) ≠ [])
    (hpps : seen p.pps 8 (before++[w]) ≠ []) :
    SelfDecodable p before w ↔ Unchanged p.sps 7 before w ∧ Unchanged p.pps 8 before w := by
  have hprepended := (run_caching p.sps p.pps startTime ops).written before w hw
  have hmem : ∀ nal, nal ∈ w.prepended ↔
      (hasType 7 w.nals = false ∧ nal = earliest (seen p.sps 7 (before++[w]))) ∨
      (hasType 8 w.nals = false ∧ nal = earliest (seen p.pps 8 (before++[w]))) := by
    intro nal
    rw [hprepended]
    exact mem_injected _ _ _ hidr hsps hpps nal
  have h7 := seen_type p.sps 7 p.sps_type _ _ (earliest_mem _ hsps)
  have h8 := seen_type p.pps 8 p.pps_type _ _ (earliest_mem _ hpps)
  have hboth : hasType 7 w.au = true ∧ hasType 8 w.au = true := by
    rw [Write.au, hasType_append, hasType_append]
    constructor
    · cases hown : hasType 7 w.nals with
      | true => exact Bool.or_true _
      | false => rw [hasType_of_mem 7 _ _ ((hmem _).mpr (.inl ⟨hown,rfl⟩)) h7, Bool.true_or]
    · cases hown : hasType 8 w.nals with
      | true => exact Bool.or_true _
      | false => rw [hasType_of_mem 8 _ _ ((hmem _).mpr (.inr ⟨hown,rfl⟩)) h8, Bool.true_or]
  unfold Unchanged
  rw [earliest_head _ hsps, earliest_head _ hpps]
  constructor
  · intro h
    refine ⟨fun hown => ?_, fun hown => ?_⟩
    · exact ((h.latest _ ((hmem _).mpr (.inl ⟨hown,rfl⟩))).1 h7).symm
    · exact ((h.latest _ ((hmem _).mpr (.inr ⟨hown,rfl⟩))).2 h8).symm
  · rintro ⟨hsame, hsame'⟩
    refine ⟨hboth.1, hboth.2, fun nal hnal => ?_⟩
    rcases (hmem nal).mp hnal with ⟨hown, rfl⟩ | ⟨hown, rfl⟩
    · refine ⟨fun _ => (hsame hown).symm, fun h => ?_⟩
      rw [h7] at h
      exact absurd h (by decide)
    · refine ⟨fun h => ?_, fun _ => (hsame' hown).symm⟩
      rw [h8] at h
      exact absurd h (by decide)

section Samples

def idrWith (sps : UInt8) (timestamp : UInt32) : VideoFrame :=
  ⟨[0x67, sps]++startCode++[0x68, 9]++startCode++[0x65, 3], timestamp, true⟩

def idrAlone (timestamp : UInt32) : VideoFrame := ⟨[0x65, 4], timestamp, true⟩

def noSets : ParameterSets := ⟨[], [], .inl rfl, .inl rfl⟩

/-- One SPS throughout. -/
theorem idr_units_current_once : ∃ before w, hasType 7 w.nals = false ∧
    SelfDecodable noSets before w := by
  let m := run HLSMuxer.next (newHLSMuxer 0 [] [])
    [.onVideoFrame (idrWith 1 0), .onVideoFrame (idrAlone 3000), .close]
  refine ⟨m.mux.written.take 1, m.mux.written.getLast (by decide), by decide, ?_⟩
  refine (idr_units_current 0 noSets [.onVideoFrame (idrWith 1 0), .onVideoFrame (idrAlone 3000),
    .close] _ _ ?_ ?_ ?_ ?_).mpr ⟨?_, ?_⟩
  all_goals decide

/-- The SPS changes in the second IDR unit, and the third gets the first one. -/
theorem stale_sps_injected : ∃ before w,
    before++[w] <+: (run HLSMuxer.next (newHLSMuxer 0 [] []) [.onVideoFrame (idrWith 1 0),
      .onVideoFrame (idrWith 2 3000), .onVideoFrame (idrAlone 6000), .close]).mux.written ∧
    hasType 5 w.nals = true ∧ seen [] 7 (before++[w]) = [[0x67, 1], [0x67, 2]] ∧
    seen [] 8 (before++[w]) = [[0x68, 9], [0x68, 9]] ∧
    w.prepended = [[0x67, 1], [0x68, 9]] ∧ ¬SelfDecodable noSets before w := by
  let m := run HLSMuxer.next (newHLSMuxer 0 [] []) [.onVideoFrame (idrWith 1 0),
    .onVideoFrame (idrWith 2 3000), .onVideoFrame (idrAlone 6000), .close]
  refine ⟨m.mux.written.take 2, m.mux.written.getLast (by decide), by decide, by decide, by decide,
    by decide, by decide, ?_⟩
  intro h
  have hlatest := (h.latest [0x67, 1] (by decide)).1 (by decide)
  revert hlatest
  decide

end Samples

end Aevia.Whip
