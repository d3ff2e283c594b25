import Aevia.Provider.Manifest

/-!
# Reading a CID

The text of a CID is decoded with a decoder that skips line breaks and does not
look at the two bits that the last symbol has left over, so a digest has other
texts than the one it is written as.
-/

set_option autoImplicit false

namespace Aevia.Manifests
open Aevia.BaseEncoding Aevia.Bytes Aevia.Fallible

def stripNewlines (s : Bytes) : Bytes := s.filter (fun c => !isNewline c)

/-- Unpadded base32 as the standard library reads it. Line breaks are skipped; one,
three or six symbols after the last whole quantum give no byte. -/
def base32DecodeString (s : Bytes) : Except GoError Bytes :=
  let s := stripNewlines s
  match s.findIdx? (fun c => (base32Lower.value c).isNone) with
  | some i => .error (.errorf "illegal base32 data at input byte %d" [.int i])
  | none =>
    let rest := s.length%8
    let whole := if rest = 1 ∨ rest = 3 ∨ rest = 6 then s.take (s.length-rest) else s
    .ok ((decode base32Lower whole).getD [])

def decodeCIDv1Raw (s : Bytes) : Except GoError Bytes :=
  if s.length < 2 then .error (.new "manifest: CID too short")
  else if s.getD 0 0 ≠ 98 then
    .error (.errorf "manifest: expected multibase prefix 'b', got %q" [.int (s.getD 0 0).toNat])
  else match base32DecodeString (s.drop 1) with
  | .error e => .error (.wrap "manifest: base32 decode: %w" [] e)
  | .ok payload =>
    if payload.length ≠ 4+hashSize then
      .error (.errorf "manifest: CID payload len %d, want %d"
        [.int payload.length, .int (4+hashSize : ℕ)])
    else if payload.getD 0 0 ≠ cidVersion1 then
      .error (.errorf "manifest: CID version = %d, want %d"
        [.int (payload.getD 0 0).toNat, .int cidVersion1.toNat])
    else if payload.getD 1 0 ≠ cidCodecRaw then
      .error (.errorf "manifest: CID codec = 0x%02x, want 0x%02x (raw)"
        [.int (payload.getD 1 0).toNat, .int cidCodecRaw.toNat])
    else if payload.getD 2 0 ≠ mhSHA256 then
      .error (.errorf "manifest: multihash fn = 0x%02x, want 0x%02x (sha256)"
        [.int (payload.getD 2 0).toNat, .int mhSHA256.toNat])
    else if payload.getD 3 0 ≠ mhSHA256Length then
      .error (.errorf "manifest: multihash length = %d, want %d"
        [.int (payload.getD 3 0).toNat, .int mhSHA256Length.toNat])
    else .ok (payload.drop 4)

def cidHeader : Bytes := [cidVersion1, cidCodecRaw, mhSHA256, mhSHA256Length]

theorem payload_header (payload : Bytes) (h : payload.length = 4+hashSize) :
    (payload.getD 0 0 = cidVersion1 ∧ payload.getD 1 0 = cidCodecRaw ∧
      payload.getD 2 0 = mhSHA256 ∧ payload.getD 3 0 = mhSHA256Length) ↔
    payload = cidHeader++payload.drop 4 := by
  obtain _ | ⟨a, _ | ⟨b, _ | ⟨c, _ | ⟨d, rest⟩⟩⟩⟩ := payload
  · cases h
  · simp [hashSize, Sha256.digestSize] at h
  · simp [hashSize, Sha256.digestSize] at h
  · simp [hashSize, Sha256.digestSize] at h
  · simp [cidHeader]

theorem decodeCIDv1Raw_ok (s d : Bytes) : decodeCIDv1Raw s = .ok d ↔
    ∃ body, s = 98::body ∧ base32DecodeString body = .ok (cidHeader++d) ∧ d.length = hashSize := by
  cases s with
  | nil => simp [decodeCIDv1Raw]
  | cons c body =>
    unfold decodeCIDv1Raw
    simp only [guard_ok, List.drop_one, List.tail_cons, List.cons.injEq, not_not, not_lt,
      List.getD_cons_zero]
    cases hbody : base32DecodeString body with
    | error e =>
      simp only [reduceCtorEq, and_false, false_iff, not_exists, not_and]
      rintro body' ⟨-, rfl⟩ h
      rw [hbody] at h
      cases h
    | ok payload =>
      simp only [guard_ok, not_not, Except.ok.injEq]
      constructor
      · rintro ⟨-, hc, hlen, h0, h1, h2, h3, rfl⟩
        have hpayload := (payload_header payload hlen).mp ⟨h0,h1,h2,h3⟩
        refine ⟨body, ⟨hc, rfl⟩, ?_, ?_⟩
        · rw [← hpayload, hbody]
        · rw [List.length_drop, hlen, Nat.add_sub_cancel_left]
      · rintro ⟨body', ⟨hc, rfl⟩, hdecode, hd⟩
        rw [hbody, Except.ok.injEq] at hdecode
        have hlen : payload.length = 4+hashSize := by
          rw [hdecode, List.length_append, hd]
          rfl
        have hdrop : payload.drop 4 = d := by
          rw [hdecode]
          rfl
        obtain ⟨h0, h1, h2, h3⟩ := (payload_header payload hlen).mpr (by rw [hdrop, hdecode])
        refine ⟨?_, hc, hlen, h0, h1, h2, h3, hdrop⟩
        by_contra hshort
        cases body with
        | nil =>
          rw [show base32DecodeString [] = .ok [] from rfl, Except.ok.injEq] at hbody
          rw [← hbody] at hlen
          cases hlen
        | cons b body => simp at hshort

theorem mapM_value_length (s : Bytes) (ds : List ℕ) (h : s.mapM base32Lower.value = some ds) :
    ds.length = s.length := by
  rw [← (mapM_symbols base32Lower base32Lower_exact s ds h).2, List.length_map]

theorem mapM_value_some (s : Bytes) : (∃ ds, s.mapM base32Lower.value = some ds) ↔
    s.findIdx? (fun c => (base32Lower.value c).isNone) = none := by
  rw [List.findIdx?_eq_none_iff]
  induction s with
  | nil => simp
  | cons c s ih =>
    rw [List.mapM_cons, List.forall_mem_cons, ← ih]
    cases base32Lower.value c with
    | none => simp
    | some d => cases s.mapM base32Lower.value <;> simp

theorem decode_getD (text payload : Bytes) (hlen : payload.length = 36) :
    (decode base32Lower text).getD [] = payload ↔ 5*text.length/8 = 36 ∧
      ∃ ds, text.mapM base32Lower.value = some ds ∧
        payload = bitsToBytes (ds.flatMap (natBits 5)) := by
  rw [decode]
  cases hds : text.mapM base32Lower.value with
  | none =>
    simp only [Option.map_none, Option.getD_none, reduceCtorEq, false_and, exists_false, and_false,
      iff_false]
    rintro rfl
    cases hlen
  | some ds =>
    have hcount : (bitsToBytes (ds.flatMap (natBits 5))).length = 5*text.length/8 := by
      rw [bitsToBytes_length, digits_length, mapM_value_length text ds hds]
    rw [Option.map_some, Option.getD_some]
    constructor
    · rintro rfl
      exact ⟨hcount.symm.trans hlen,ds,rfl,rfl⟩
    · rintro ⟨-, ds', hds', rfl⟩
      rw [Option.some.inj hds']

theorem base32DecodeString_payload (s payload : Bytes) (hlen : payload.length = 36) :
    base32DecodeString s = .ok payload ↔ (stripNewlines s).length = 58 ∧
      ∃ ds, (stripNewlines s).mapM base32Lower.value = some ds ∧
        payload = bitsToBytes (ds.flatMap (natBits 5)) := by
  unfold base32DecodeString
  generalize stripNewlines s = text
  dsimp only
  cases hbad : text.findIdx? (fun c => (base32Lower.value c).isNone) with
  | some i =>
    simp only [reduceCtorEq, false_iff, not_and, not_exists]
    intro _ ds hds
    rw [(mapM_value_some text).mp ⟨ds,hds⟩] at hbad
    cases hbad
  | none =>
    obtain ⟨ds, hds⟩ := (mapM_value_some text).mpr hbad
    dsimp only
    rw [Except.ok.injEq, decode_getD _ _ hlen]
    split_ifs with hrest
    · -- whole quanta of five bytes do not make thirty-six
      rw [List.length_take]
      constructor
      · rintro ⟨hcount, -⟩
        omega
      · rintro ⟨hcount, -⟩
        omega
    · refine and_congr_left (fun _ => ?_)
      omega

/-- A text that is read: line breaks aside, fifty-eight digits of which the first are
those of the header (`afkrei` and a letter up to `h`). -/
structure Readable (body : Bytes) (ds : List ℕ) : Prop where
  digits : (stripNewlines body).mapM base32Lower.value = some ds
  count : ds.length = 58
  header : ds.take 6 = [0, 5, 10, 17, 4, 8]
  seventh : ds.getD 6 0 < 8

/-- A text without line breaks whose last digit has no bit set beyond the payload. -/
structure Plain (body : Bytes) (ds : List ℕ) : Prop where
  unbroken : ∀ c ∈ body, isNewline c = false
  slack : ds.getD 57 0%4 = 0

example : (ascii "afkreih").mapM base32Lower.value = some [0, 5, 10, 17, 4, 8, 7] := by decide

theorem natBits_five : ∀ d < 32, ((natBits 5 d).take 2 = [false, false] ↔ d < 8) ∧
    ((∀ b ∈ (natBits 5 d).drop 3, b = false) ↔ d%4 = 0) := by decide

section Digits
variable (ds : List ℕ) (hlt : ∀ d ∈ ds, d < 2^5) (hcount : ds.length = 58)

include hcount in
theorem digits_at (i : ℕ) (hi : i < 58) : ds.flatMap (natBits 5) =
    (ds.take i).flatMap (natBits 5)++natBits 5 (ds.getD i 0)++
      (ds.drop (i+1)).flatMap (natBits 5) := by
  have hi' : i < ds.length := by omega
  rw [List.append_assoc, List.getD_eq_getElem _ _ hi', ← List.flatMap_cons, ← List.flatMap_append,
    ← List.drop_eq_getElem_cons hi', List.take_append_drop]

include hlt hcount in
theorem header_digits : (∃ d, cidHeader++d = bitsToBytes (ds.flatMap (natBits 5))) ↔
    ds.take 6 = [0, 5, 10, 17, 4, 8] ∧ ds.getD 6 0 < 8 := by
  have hheader : toBits cidHeader = [0, 5, 10, 17, 4, 8].flatMap (natBits 5)++[false, false] := by
    decide
  have hsix : (ds.take 6).length = 6 := by
    rw [List.length_take]
    omega
  have hfirst : (ds.flatMap (natBits 5)).take 32 =
      (ds.take 6).flatMap (natBits 5)++(natBits 5 (ds.getD 6 0)).take 2 := by
    rw [digits_at ds hcount 6 (by decide), List.append_assoc, List.take_append,
      List.take_of_length_le (by rw [digits_length, hsix]; decide), digits_length, hsix,
      List.take_append_of_le_length (by rw [natBits_length]; decide)]
  have hseventh : ds.getD 6 0 < 32 := by
    rw [List.getD_eq_getElem _ _ (by omega)]
    exact hlt _ (List.getElem_mem _)
  rw [bitsToBytes_starts, show 8*cidHeader.length = 32 from rfl, hheader, hfirst,
    ← (natBits_five _ hseventh).1]
  constructor
  · intro h
    obtain ⟨hdigits, hslack⟩ := List.append_inj h (by rw [digits_length, digits_length, hsix]; rfl)
    exact ⟨digits_inj _ _ (fun d hd => hlt d (List.mem_of_mem_take hd)) (by decide) hsix hdigits,
      hslack⟩
  · rintro ⟨hdigits, hslack⟩
    rw [hdigits, hslack]

include hlt hcount in
theorem slack_digits : (∀ b ∈ (ds.flatMap (natBits 5)).drop 288, b = false) ↔
    ds.getD 57 0%4 = 0 := by
  have hlast : (ds.flatMap (natBits 5)).drop 288 = (natBits 5 (ds.getD 57 0)).drop 3 := by
    have hfront : (ds.take 57).length = 57 := by
      rw [List.length_take]
      omega
    have hnone : ds.drop (57+1) = [] := List.drop_eq_nil_of_le (by omega)
    have hbefore : ((ds.take 57).flatMap (natBits 5)).length = 285 := by
      rw [digits_length, hfront]
    rw [digits_at ds hcount 57 (by decide), hnone, List.flatMap_nil, List.append_nil,
      show 288 = 285+3 from rfl, ← hbefore, List.drop_length_add_append]
  have hbound : ds.getD 57 0 < 32 := by
    rw [List.getD_eq_getElem _ _ (by omega)]
    exact hlt _ (List.getElem_mem _)
  rw [hlast]
  exact (natBits_five _ hbound).2

end Digits

theorem base32DecodeString_readable (body d : Bytes) :
    (base32DecodeString body = .ok (cidHeader++d) ∧ d.length = hashSize) ↔
      ∃ ds, Readable body ds ∧ cidHeader++d = bitsToBytes (ds.flatMap (natBits 5)) := by
  constructor
  · rintro ⟨hdecode, hd⟩
    have hlen : (cidHeader++d).length = 36 := by
      rw [List.length_append, hd]
      rfl
    obtain ⟨hcount, ds, hds, hpayload⟩ := (base32DecodeString_payload body _ hlen).mp hdecode
    have hcount' := (mapM_value_length _ ds hds).trans hcount
    obtain ⟨hheader, hseventh⟩ := (header_digits ds
      (mapM_symbols base32Lower base32Lower_exact _ ds hds).1 hcount').mp ⟨d,hpayload⟩
    exact ⟨ds,⟨hds,hcount',hheader,hseventh⟩,hpayload⟩
  · rintro ⟨ds, hread, hpayload⟩
    have hlen : (cidHeader++d).length = 36 := by
      rw [hpayload, bitsToBytes_length, digits_length, hread.count]
    have hcount := hread.count
    rw [mapM_value_length _ ds hread.digits] at hcount
    refine ⟨(base32DecodeString_payload body _ hlen).mpr ⟨hcount, ds, hread.digits, hpayload⟩, ?_⟩
    rw [List.length_append] at hlen
    exact Nat.add_left_cancel hlen

theorem decodeCIDv1Raw_readable (s : Bytes) : (∃ d, decodeCIDv1Raw s = .ok d) ↔
    ∃ body ds, s = 98::body ∧ Readable body ds := by
  constructor
  · rintro ⟨d, h⟩
    obtain ⟨body, hs, hdecode⟩ := (decodeCIDv1Raw_ok s d).mp h
    obtain ⟨ds, hread, -⟩ := (base32DecodeString_readable body d).mp hdecode
    exact ⟨body,ds,hs,hread⟩
  · rintro ⟨body, ds, hs, hread⟩
    obtain ⟨d, hd⟩ := (header_digits ds (mapM_symbols base32Lower base32Lower_exact _ ds
      hread.digits).1 hread.count).mpr ⟨hread.header,hread.seventh⟩
    exact ⟨d,(decodeCIDv1Raw_ok s d).mpr ⟨body,hs,(base32DecodeString_readable body d).mpr
      ⟨ds,hread,hd⟩⟩⟩

theorem base32Lower_visible : ∀ d < 2^5, isNewline (base32Lower.symbol d) = false := by decide

theorem cidText_unbroken (payload : Bytes) :
    ∀ c ∈ encode base32Lower payload, isNewline c = false := by
  intro c hc
  obtain ⟨d, hd, rfl⟩ := encode_symbol base32Lower payload c hc
  exact base32Lower_visible d hd

theorem stripNewlines_unbroken (s : Bytes) (h : ∀ c ∈ s, isNewline c = false) :
    stripNewlines s = s :=
  List.filter_eq_self.mpr (fun c hc => by rw [h c hc]; rfl)

theorem decodeCIDv1Raw_cid (d s : Bytes) (h : cidv1Raw d = .ok s) : decodeCIDv1Raw s = .ok d := by
  simp only [cidv1Raw, guard_ok, not_not, Except.ok.injEq] at h
  obtain ⟨hd, rfl⟩ := h
  refine (decodeCIDv1Raw_ok _ d).mpr ⟨encode base32Lower (cidHeader++d), rfl, ?_, hd⟩
  have hlen : (cidHeader++d).length = 36 := by
    rw [List.length_append, hd]
    rfl
  have hstrip := stripNewlines_unbroken _ (cidText_unbroken (cidHeader++d))
  have hdecode := decode_encode base32Lower (by decide) (by decide) (cidHeader++d)
  rw [decode, Option.map_eq_some_iff] at hdecode
  obtain ⟨ds, hds, hpayload⟩ := hdecode
  refine (base32DecodeString_payload _ _ hlen).mpr ?_
  rw [hstrip]
  refine ⟨?_, ds, hds, hpayload.symm⟩
  rw [encode_length, hlen]
  rfl

theorem encode_plain (body d : Bytes) (ds : List ℕ) (hread : Readable body ds)
    (hpayload : cidHeader++d = bitsToBytes (ds.flatMap (natBits 5))) :
    encode base32Lower (cidHeader++d) = body ↔ Plain body ds := by
  have hlen : (cidHeader++d).length = 36 := by
    rw [hpayload, bitsToBytes_length, digits_length, hread.count]
  have hlt := (mapM_symbols base32Lower base32Lower_exact _ ds hread.digits).1
  have hcount : symbolCount 5 (cidHeader++d).length = 58 := by
    rw [hlen]
    rfl
  have hdecoded := encode_decoded base32Lower base32Lower_exact (stripNewlines body) ds hread.digits
    (cidHeader++d) hpayload (by rw [hcount, hlen]; decide)
  rw [hcount, hlen, show 8*36 = 288 from rfl, slack_digits ds hlt hread.count] at hdecoded
  constructor
  · intro h
    have hunbroken : ∀ c ∈ body, isNewline c = false := h ▸ cidText_unbroken (cidHeader++d)
    rw [stripNewlines_unbroken body hunbroken] at hdecoded
    exact ⟨hunbroken,(hdecoded.mp h).2⟩
  · rintro ⟨hunbroken, hslack⟩
    rw [stripNewlines_unbroken body hunbroken] at hdecoded
    exact hdecoded.mpr ⟨hread.count,hslack⟩

theorem cidv1Raw_plain (s : Bytes) : (∃ d, cidv1Raw d = .ok s) ↔
    ∃ body ds, s = 98::body ∧ Readable body ds ∧ Plain body ds := by
  constructor
  · rintro ⟨d, h⟩
    obtain ⟨body, rfl, hdecode⟩ := (decodeCIDv1Raw_ok s d).mp (decodeCIDv1Raw_cid d s h)
    obtain ⟨ds, hread, hpayload⟩ := (base32DecodeString_readable body d).mp hdecode
    simp only [cidv1Raw, guard_ok, Except.ok.injEq] at h
    exact ⟨body,ds,rfl,hread,(encode_plain body d ds hread hpayload).mp (List.cons.inj h.2).2⟩
  · rintro ⟨body, ds, rfl, hread, hplain⟩
    obtain ⟨d, hpayload⟩ := (header_digits ds (mapM_symbols base32Lower base32Lower_exact _ ds
      hread.digits).1 hread.count).mpr ⟨hread.header,hread.seventh⟩
    have hd := ((base32DecodeString_readable body d).mpr ⟨ds,hread,hpayload⟩).2
    have htext := (encode_plain body d ds hread hpayload).mpr hplain
    refine ⟨d, ?_⟩
    simp only [cidv1Raw, guard_ok, not_not, Except.ok.injEq]
    exact ⟨hd,congrArg (List.cons 98) htext⟩

theorem plain_text (s d : Bytes) (h : decodeCIDv1Raw s = .ok d)
    (hplain : ∀ body ds, s = 98::body → Readable body ds → Plain body ds) : cidv1Raw d = .ok s := by
  obtain ⟨body, rfl, hdecode⟩ := (decodeCIDv1Raw_ok s d).mp h
  obtain ⟨ds, hread, hpayload⟩ := (base32DecodeString_readable body d).mp hdecode
  have htext := (encode_plain body d ds hread hpayload).mpr (hplain body ds rfl hread)
  simp only [cidv1Raw, guard_ok, not_not, Except.ok.injEq]
  exact ⟨hdecode.2,congrArg (List.cons 98) htext⟩

theorem plain_texts_distinct (s s' d : Bytes) (hs : decodeCIDv1Raw s = .ok d)
    (hs' : decodeCIDv1Raw s' = .ok d)
    (hplain : ∀ body ds, s = 98::body → Readable body ds → Plain body ds)
    (hplain' : ∀ body ds, s' = 98::body → Readable body ds → Plain body ds) : s = s' :=
  Except.ok.inj ((plain_text s d hs hplain).symm.trans (plain_text s' d hs' hplain'))

/-- A text is read exactly if it is the text of a digest, and then as that digest, if
and only if it has, when it can be read, no line breaks and no left-over bits. -/
theorem decodeCIDv1Raw_canonical (s : Bytes) :
    (((∃ d, decodeCIDv1Raw s = .ok d) ↔ ∃ d, cidv1Raw d = .ok s) ∧
      ∀ d, cidv1Raw d = .ok s → decodeCIDv1Raw s = .ok d) ↔
    ∀ body ds, s = 98::body → Readable body ds → Plain body ds := by
  rw [decodeCIDv1Raw_readable, cidv1Raw_plain]
  constructor
  · rintro ⟨hiff, -⟩ body ds rfl hread
    obtain ⟨body', ds', hbody, hread', hplain⟩ := hiff.mp ⟨body,ds,rfl,hread⟩
    obtain rfl : body = body' := (List.cons.inj hbody).2
    have hsame := hread.digits.symm.trans hread'.digits
    rwa [← Option.some.inj hsame] at hplain
  · intro hall
    refine ⟨⟨?_, ?_⟩, fun d => decodeCIDv1Raw_cid d s⟩
    · rintro ⟨body, ds, hs, hread⟩
      exact ⟨body,ds,hs,hread,hall body ds hs hread⟩
    · rintro ⟨body, ds, hs, hread, -⟩
      exact ⟨body,ds,hs,hread⟩

/-- The digest of zeros in three texts: its own, one with a line break and one with a
bit set that the payload does not have. -/
theorem three_texts_one_digest :
    let own := cidText (List.replicate 32 0)
    let broken := own++[10]
    let slack := own.dropLast++ascii "b"
    cidv1Raw (List.replicate 32 0) = .ok own ∧ own.length = 59 ∧
    decodeCIDv1Raw own = .ok (List.replicate 32 0) ∧
    decodeCIDv1Raw broken = .ok (List.replicate 32 0) ∧
    decodeCIDv1Raw slack = .ok (List.replicate 32 0) ∧
    (∀ d, cidv1Raw d ≠ .ok broken) ∧ ∀ d, cidv1Raw d ≠ .ok slack := by
  have hown : cidv1Raw (List.replicate 32 0) = .ok (cidText (List.replicate 32 0)) := rfl
  have hother : ∀ s, decodeCIDv1Raw s = .ok (List.replicate 32 0) →
      s ≠ cidText (List.replicate 32 0) → ∀ d, cidv1Raw d ≠ .ok s := by
    intro s hdecode hne d hd
    have hback := decodeCIDv1Raw_cid d s hd
    rw [hdecode, Except.ok.injEq] at hback
    subst hback
    rw [hown, Except.ok.injEq] at hd
    exact hne hd.symm
  have hbroken : decodeCIDv1Raw (cidText (List.replicate 32 0)++[10]) = .ok (List.replicate 32 0) := by
    decide +kernel
  have hslack : decodeCIDv1Raw ((cidText (List.replicate 32 0)).dropLast++ascii "b") =
      .ok (List.replicate 32 0) := by
    decide +kernel
  exact ⟨hown,by decide +kernel,decodeCIDv1Raw_cid _ _ hown,hbroken,hslack,
    hother _ hbroken (by decide +kernel),hother _ hslack (by decide +kernel)⟩

end Aevia.Manifests
