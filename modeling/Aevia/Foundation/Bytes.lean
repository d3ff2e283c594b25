import Mathlib.Data.List.Lex
import Mathlib.Data.Nat.Digits.Defs
import Mathlib.Data.Nat.Digits.Lemmas

/-!
# Byte strings and their textual numbers

Big-endian integers, lower-case hexadecimal and decimal numerals over lists of
bytes, each with the law that reading back gives what was written.
-/

set_option autoImplicit false

namespace Aevia

abbrev Bytes := List UInt8

/-- Bytes in numerical order, so byte strings compare lexicographically. -/
instance linearOrderUInt8 : LinearOrder UInt8 where
  le_refl := UInt8.le_refl
  le_trans := fun _ _ _ => UInt8.le_trans
  le_antisymm := fun _ _ => UInt8.le_antisymm
  le_total := UInt8.le_total
  lt_iff_le_not_ge := by
    intro a b
    rw [UInt8.not_le]
    exact ⟨fun h => ⟨UInt8.le_of_lt h,h⟩,fun h => h.2⟩
  toDecidableLE := inferInstance

namespace Bytes

def ascii (s : String) : Bytes := s.toList.map (fun c => UInt8.ofNat c.toNat)

def bigEndian : ℕ → ℕ → Bytes
  | 0, _ => []
  | w+1, n => bigEndian w (n/256)++[UInt8.ofNat n]

def ofBigEndian (b : Bytes) : ℕ := b.foldl (fun n x => n*256+x.toNat) 0

@[simp] theorem bigEndian_length (w n : ℕ) : (bigEndian w n).length = w := by
  induction w generalizing n with
  | zero => rfl
  | succ w ih => simp [bigEndian, ih]

theorem ofBigEndian_concat (b : Bytes) (x : UInt8) :
    ofBigEndian (b++[x]) = ofBigEndian b*256+x.toNat := by
  simp [ofBigEndian]

theorem ofBigEndian_bigEndian (w n : ℕ) : ofBigEndian (bigEndian w n) = n%256^w := by
  induction w generalizing n with
  | zero => simp [bigEndian, ofBigEndian, Nat.mod_one]
  | succ w ih =>
    have hmod : n%256^(w+1) = n%256+256*(n/256%256^w) := by
      rw [Nat.pow_succ', Nat.mod_mul]
    rw [bigEndian, ofBigEndian_concat, ih, hmod]
    simp only [UInt8.toNat_ofNat']
    omega

theorem ofBigEndian_uint64 (n : UInt64) : UInt64.ofNat (ofBigEndian (bigEndian 8 n.toNat)) = n := by
  have hlt : n.toNat < 256^8 := n.toNat_lt
  rw [ofBigEndian_bigEndian, Nat.mod_eq_of_lt hlt, UInt64.ofNat_toNat]

theorem bigEndian_inj (w m n : ℕ) (hm : m < 256^w) (hn : n < 256^w)
    (h : bigEndian w m = bigEndian w n) : m = n := by
  have hv := congrArg ofBigEndian h
  rwa [ofBigEndian_bigEndian, ofBigEndian_bigEndian, Nat.mod_eq_of_lt hm,
    Nat.mod_eq_of_lt hn] at hv

theorem ofBigEndian_lt (b : Bytes) : ofBigEndian b < 256^b.length := by
  induction b using List.reverseRecOn with
  | nil => decide
  | append_singleton b x ih =>
    have hx := x.toNat_lt
    rw [ofBigEndian_concat, List.length_append, List.length_singleton, Nat.pow_succ]
    omega

theorem bigEndian_ofBigEndian (b : Bytes) : bigEndian b.length (ofBigEndian b) = b := by
  induction b using List.reverseRecOn with
  | nil => rfl
  | append_singleton b x ih =>
    have hx := x.toNat_lt
    have hdiv : (ofBigEndian b*256+x.toNat)/256 = ofBigEndian b := by omega
    have hlast : UInt8.ofNat (ofBigEndian b*256+x.toNat) = x := by
      rw [← UInt8.toNat_inj, UInt8.toNat_ofNat']
      omega
    rw [List.length_append, List.length_singleton, ofBigEndian_concat, bigEndian, hdiv, ih, hlast]

theorem ofBigEndian_inj (a b : Bytes) (hlen : a.length = b.length)
    (h : ofBigEndian a = ofBigEndian b) : a = b := by
  rw [← bigEndian_ofBigEndian a, ← bigEndian_ofBigEndian b, hlen, h]

theorem append_lt_append (pre s t : Bytes) (h : s < t) : pre++s < pre++t := by
  induction pre with
  | nil => exact h
  | cons c pre ih => exact List.cons_lt_cons_iff.mpr (.inr ⟨rfl,ih⟩)

theorem bigEndian_lt (w m n : ℕ) (hmn : m < n) (hn : n < 256^w) (s t : Bytes) :
    bigEndian w m++s < bigEndian w n++t := by
  induction w generalizing m n s t with
  | zero =>
    rw [Nat.pow_zero] at hn
    omega
  | succ w ih =>
    rw [bigEndian, bigEndian, List.append_assoc, List.append_assoc]
    rw [Nat.pow_succ] at hn
    by_cases hhigh : m/256 < n/256
    · exact ih _ _ hhigh (Nat.div_lt_of_lt_mul (by omega)) _ _
    · have hsame : m/256 = n/256 := by omega
      rw [hsame]
      refine append_lt_append _ _ _ (List.cons_lt_cons_iff.mpr (.inl ?_))
      rw [UInt8.lt_iff_toNat_lt, UInt8.toNat_ofNat', UInt8.toNat_ofNat']
      omega

section Hex

def hexDigit (d : ℕ) : UInt8 := if d < 10 then UInt8.ofNat (48+d) else UInt8.ofNat (87+d)

/-- Both cases are read. -/
def hexValue (c : UInt8) : Option ℕ :=
  if 48 ≤ c ∧ c ≤ 57 then some (c.toNat-48)
  else if 97 ≤ c ∧ c ≤ 102 then some (c.toNat-87)
  else if 65 ≤ c ∧ c ≤ 70 then some (c.toNat-55)
  else none

theorem hexValue_hexDigit : ∀ d < 16, hexValue (hexDigit d) = some d := by decide

def hexEncode : Bytes → Bytes
  | [] => []
  | b::bs => hexDigit (b.toNat/16)::hexDigit (b.toNat%16)::hexEncode bs

def hexDecode : Bytes → Option Bytes
  | [] => some []
  | [_] => none
  | a::b::rest => do
    let x ← hexValue a
    let y ← hexValue b
    let bs ← hexDecode rest
    some (UInt8.ofNat (16*x+y)::bs)

@[simp] theorem hexDecode_hexEncode (bs : Bytes) : hexDecode (hexEncode bs) = some bs := by
  induction bs with
  | nil => rfl
  | cons b bs ih =>
    have hb := b.toNat_lt
    have hvalue : UInt8.ofNat (16*(b.toNat/16)+b.toNat%16) = b := by
      rw [show 16*(b.toNat/16)+b.toNat%16 = b.toNat by omega, UInt8.ofNat_toNat]
    simp only [hexEncode, hexDecode, hexValue_hexDigit _ (show b.toNat/16 < 16 by omega),
      hexValue_hexDigit _ (show b.toNat%16 < 16 by omega), ih, Option.bind_eq_bind,
      Option.bind_some, hvalue]

theorem hexEncode_digit (bs : Bytes) : ∀ c ∈ hexEncode bs, (hexValue c).isSome := by
  induction bs with
  | nil => nofun
  | cons b bs ih =>
    have hb := b.toNat_lt
    intro c hc
    simp only [hexEncode, List.mem_cons] at hc
    rcases hc with rfl | rfl | hc
    · rw [hexValue_hexDigit _ (by omega)]
      rfl
    · rw [hexValue_hexDigit _ (by omega)]
      rfl
    · exact ih c hc

def isCapitalDigit (c : UInt8) : Bool := 65 ≤ c && c ≤ 70

/-- A digit is written as it was read, unless it is a capital letter. -/
theorem hexDigit_hexValue (c : UInt8) (d : ℕ) (h : hexValue c = some d) :
    d < 16 ∧ (hexDigit d = c ↔ isCapitalDigit c = false) := by
  have hall : ∀ c : Fin 256, ∀ d, hexValue (UInt8.ofNat c.val) = some d →
      d < 16 ∧ (hexDigit d = UInt8.ofNat c.val ↔ isCapitalDigit (UInt8.ofNat c.val) = false) := by
    decide +kernel
  have hc := hall ⟨c.toNat, c.toNat_lt⟩ d
  simp only [UInt8.ofNat_toNat] at hc
  exact hc h

theorem hexEncode_hexDecode (s bs : Bytes) (h : hexDecode s = some bs) :
    hexEncode bs = s ↔ ∀ c ∈ s, isCapitalDigit c = false := by
  induction s using hexDecode.induct generalizing bs with
  | case1 =>
    cases h
    simp [hexEncode]
  | case2 => cases h
  | case3 a b rest ih =>
    simp only [hexDecode, Option.bind_eq_bind, Option.bind_eq_some_iff, Option.some.injEq] at h
    obtain ⟨x, hx, y, hy, ys, hys, rfl⟩ := h
    obtain ⟨hxlt, hxa⟩ := hexDigit_hexValue a x hx
    obtain ⟨hylt, hyb⟩ := hexDigit_hexValue b y hy
    have hbyte : (UInt8.ofNat (16*x+y)).toNat = 16*x+y := by
      rw [UInt8.toNat_ofNat', Nat.mod_eq_of_lt (by omega)]
    have hhigh : (16*x+y)/16 = x := by omega
    have hlow : (16*x+y)%16 = y := by omega
    simp only [hexEncode, hbyte, hhigh, hlow, List.cons.injEq, hxa, hyb, ih ys hys,
      List.forall_mem_cons]

end Hex

section Decimal

def decimal (n : ℕ) : Bytes :=
  if n = 0 then [48] else (Nat.digits 10 n).reverse.map (fun d => UInt8.ofNat (48+d))

def isDigit (c : UInt8) : Bool := 48 ≤ c ∧ c ≤ 57

def ofDecimal (s : Bytes) : ℕ := s.foldl (fun n c => n*10+(c.toNat-48)) 0

theorem digit_value : ∀ d < 10, (UInt8.ofNat (48+d)).toNat-48 = d := by decide

theorem digit_isDigit : ∀ d < 10, isDigit (UInt8.ofNat (48+d)) = true := by decide

theorem foldl_digits (ds : List ℕ) (hds : ∀ d ∈ ds, d < 10) :
    (ds.reverse.map (fun d => UInt8.ofNat (48+d))).foldl (fun n c => n*10+(c.toNat-48)) 0 =
      Nat.ofDigits 10 ds := by
  induction ds with
  | nil => rfl
  | cons d ds ih =>
    have hd : (UInt8.ofNat (48+d)).toNat-48 = d := digit_value d (hds d (by simp))
    rw [List.reverse_cons, List.map_append, List.foldl_append, ih (fun e he => hds e (by simp [he])),
      Nat.ofDigits_cons]
    simp only [List.map_cons, List.map_nil, List.foldl_cons, List.foldl_nil, hd]
    omega

theorem digits_lt (n : ℕ) : ∀ d ∈ Nat.digits 10 n, d < 10 :=
  fun _ hd => Nat.digits_lt_base (by decide) hd

@[simp] theorem ofDecimal_decimal (n : ℕ) : ofDecimal (decimal n) = n := by
  by_cases hn : n = 0
  · subst hn
    rfl
  · rw [decimal, if_neg hn, ofDecimal, foldl_digits _ (digits_lt n), Nat.ofDigits_digits]

theorem decimal_inj (m n : ℕ) (h : decimal m = decimal n) : m = n := by
  have hv := congrArg ofDecimal h
  simpa using hv

theorem decimal_isDigit (n : ℕ) : ∀ c ∈ decimal n, isDigit c = true := by
  intro c hc
  by_cases hn : n = 0
  · subst hn
    simp only [decimal, if_pos, List.mem_singleton] at hc
    rw [hc]
    rfl
  · rw [decimal, if_neg hn, List.mem_map] at hc
    obtain ⟨d, hd, rfl⟩ := hc
    exact digit_isDigit d (digits_lt n d (List.mem_reverse.mp hd))

theorem decimal_ne_nil (n : ℕ) : decimal n ≠ [] := by
  by_cases hn : n = 0
  · simp [decimal, hn]
  · simp [decimal, hn, Nat.digits_ne_nil_iff_ne_zero.mpr hn]

theorem decimal_head (n : ℕ) : decimal n = [48] ∨ (decimal n).head? ≠ some 48 := by
  by_cases hn : n = 0
  · left
    simp [decimal, hn]
  · right
    have hne : Nat.digits 10 n ≠ [] := Nat.digits_ne_nil_iff_ne_zero.mpr hn
    have hlast := Nat.getLast_digit_ne_zero 10 hn
    have hlt := digits_lt n _ (List.getLast_mem hne)
    have hdigit : ∀ d < 10, d ≠ 0 → UInt8.ofNat (48+d) ≠ 48 := by decide
    rw [decimal, if_neg hn, List.head?_map, List.head?_reverse, List.getLast?_eq_some_getLast hne]
    simpa using hdigit _ hlt hlast

end Decimal

theorem append_separator_inj (c : UInt8) (a b s t : Bytes) (ha : c ∉ a) (hb : c ∉ b)
    (h : a++c::s = b++c::t) : a = b ∧ s = t := by
  induction a generalizing b with
  | nil =>
    cases b with
    | nil => exact ⟨rfl,List.tail_eq_of_cons_eq h⟩
    | cons y ys => exact (hb (by rw [List.head_eq_of_cons_eq h]; exact List.mem_cons_self)).elim
  | cons x xs ih =>
    cases b with
    | nil => exact (ha (by rw [← List.head_eq_of_cons_eq h]; exact List.mem_cons_self)).elim
    | cons y ys =>
      rw [List.mem_cons, not_or] at ha hb
      obtain ⟨hxs, hst⟩ := ih ys ha.2 hb.2 (List.tail_eq_of_cons_eq h)
      exact ⟨by rw [List.head_eq_of_cons_eq h, hxs],hst⟩

theorem separator_append_inj (c : UInt8) (a b s t : Bytes) (hs : c ∉ s) (ht : c ∉ t)
    (h : a++c::s = b++c::t) : a = b ∧ s = t := by
  have hreverse := congrArg List.reverse h
  simp only [List.reverse_append, List.reverse_cons, List.append_assoc, List.singleton_append]
    at hreverse
  obtain ⟨htail, hfront⟩ := append_separator_inj c _ _ _ _ (by rwa [List.mem_reverse])
    (by rwa [List.mem_reverse]) hreverse
  exact ⟨List.reverse_injective hfront,List.reverse_injective htail⟩

end Bytes

end Aevia
