import Aevia.Foundation.Bytes
import Mathlib.Data.List.DropRight
import Mathlib.Data.List.GetD
import Mathlib.Tactic.Ring

/-!
# Power-of-two base encodings

Bytes are laid out as bits, cut into groups of `k` with zeros filling the last
group, and every group is written as one symbol of an alphabet. Reading the
symbols back gives the bytes, so an encoding without padding is injective.
-/

set_option autoImplicit false

namespace Aevia.BaseEncoding
open Aevia.Bytes

/-- Symbols for the `k`-bit digits, with the reading that undoes them. -/
structure Alphabet (k : ℕ) where
  symbol : ℕ → UInt8
  value : UInt8 → Option ℕ
  value_symbol : ∀ d < 2^k, value (symbol d) = some d

/-- The low `k` bits of a number, most significant first. -/
def natBits : ℕ → ℕ → List Bool
  | 0, _ => []
  | k+1, n => natBits k (n/2)++[n%2 == 1]

def ofBits (bits : List Bool) : ℕ := bits.foldl (fun n b => 2*n+b.toNat) 0

@[simp] theorem natBits_length (k n : ℕ) : (natBits k n).length = k := by
  induction k generalizing n with
  | zero => rfl
  | succ k ih => simp [natBits, ih]

theorem ofBits_concat (bits : List Bool) (b : Bool) :
    ofBits (bits++[b]) = 2*ofBits bits+b.toNat := by
  simp [ofBits]

theorem natBits_ofBits (bits : List Bool) : natBits bits.length (ofBits bits) = bits := by
  induction bits using List.reverseRecOn with
  | nil => rfl
  | append_singleton bits b ih =>
    have hhalf : (2*ofBits bits+b.toNat)/2 = ofBits bits := by
      have := b.toNat_lt
      omega
    rw [List.length_append, List.length_singleton, natBits, ofBits_concat, hhalf, ih]
    cases b <;> simp [Nat.add_mod]

theorem ofBits_lt (bits : List Bool) : ofBits bits < 2^bits.length := by
  induction bits using List.reverseRecOn with
  | nil => decide
  | append_singleton bits b ih =>
    have := b.toNat_lt
    rw [ofBits_concat, List.length_append, List.length_singleton, Nat.pow_succ]
    omega

theorem ofBits_natBits (k n : ℕ) : ofBits (natBits k n) = n%2^k := by
  induction k generalizing n with
  | zero => simp [natBits, ofBits, Nat.mod_one]
  | succ k ih =>
    have hmod : n%2^(k+1) = n%2+2*(n/2%2^k) := by rw [Nat.pow_succ', Nat.mod_mul]
    have hbit : (n%2 == 1).toNat = n%2 := by
      rcases Nat.mod_two_eq_zero_or_one n with h | h <;> rw [h] <;> rfl
    rw [natBits, ofBits_concat, ih, hmod, hbit]
    omega

def toBits (bs : Bytes) : List Bool := bs.flatMap (fun b => natBits 8 b.toNat)

/-- Whole bytes only; bits that do not fill a byte are dropped. -/
def bitsToBytes : List Bool → Bytes
  | a::b::c::d::e::f::g::h::rest => UInt8.ofNat (ofBits [a, b, c, d, e, f, g, h])::bitsToBytes rest
  | _ => []

theorem bitsToBytes_byte (bits rest : List Bool) (h : bits.length = 8) :
    bitsToBytes (bits++rest) = UInt8.ofNat (ofBits bits)::bitsToBytes rest := by
  match bits, h with
  | [a, b, c, d, e, f, g, h], _ => rfl

theorem bitsToBytes_short (bits : List Bool) (h : bits.length < 8) : bitsToBytes bits = [] := by
  unfold bitsToBytes
  split
  · simp only [List.length_cons] at h
    omega
  · rfl

theorem toBits_length (bs : Bytes) : (toBits bs).length = 8*bs.length := by
  induction bs with
  | nil => rfl
  | cons b bs ih =>
    simp only [toBits, List.flatMap_cons, List.length_append, natBits_length,
      List.length_cons] at ih ⊢
    omega

theorem bitsToBytes_append (bs : Bytes) (bits : List Bool) :
    bitsToBytes (toBits bs++bits) = bs++bitsToBytes bits := by
  induction bs with
  | nil => rfl
  | cons b bs ih =>
    have hb : UInt8.ofNat (ofBits (natBits 8 b.toNat)) = b := by
      rw [ofBits_natBits, Nat.mod_eq_of_lt b.toNat_lt, UInt8.ofNat_toNat]
    rw [toBits, List.flatMap_cons, List.append_assoc, bitsToBytes_byte _ _ (natBits_length 8 _), hb]
    exact congrArg _ ih

theorem bitsToBytes_toBits (bs : Bytes) (filler : List Bool) (h : filler.length < 8) :
    bitsToBytes (toBits bs++filler) = bs := by
  rw [bitsToBytes_append, bitsToBytes_short filler h, List.append_nil]

/-- `n` groups of `k` bits, the last one filled up with zeros. -/
def groups (k : ℕ) : ℕ → List Bool → List (List Bool)
  | 0, _ => []
  | n+1, bits =>
    (bits.take k++List.replicate (k-bits.length) false)::groups k n (bits.drop k)

theorem groups_length (k n : ℕ) (bits : List Bool) : (groups k n bits).length = n := by
  induction n generalizing bits with
  | zero => rfl
  | succ n ih => simp [groups, ih]

theorem group_length (k n : ℕ) (bits : List Bool) : ∀ g ∈ groups k n bits, g.length = k := by
  induction n generalizing bits with
  | zero => simp [groups]
  | succ n ih =>
    intro g hg
    rcases List.mem_cons.mp hg with rfl | hg
    · simp only [List.length_append, List.length_take, List.length_replicate]
      omega
    · exact ih _ g hg

theorem groups_flatten (k n : ℕ) (bits : List Bool) (h : bits.length ≤ k*n) :
    (groups k n bits).flatten = bits++List.replicate (k*n-bits.length) false := by
  induction n generalizing bits with
  | zero =>
    have hnil : bits = [] := List.length_eq_zero_iff.mp (by omega)
    simp [groups, hnil]
  | succ n ih =>
    rw [Nat.mul_succ] at h ⊢
    have hrest := ih (bits.drop k) (by rw [List.length_drop]; omega)
    rw [groups, List.flatten_cons, hrest, List.length_drop]
    by_cases hk : k ≤ bits.length
    · have hfill : k*n-(bits.length-k) = k*n+k-bits.length := by omega
      rw [Nat.sub_eq_zero_of_le hk, List.replicate_zero, List.append_nil, ← List.append_assoc,
        List.take_append_drop, hfill]
    · have hdrop : bits.drop k = [] := List.drop_eq_nil_of_le (by omega)
      have htake : bits.take k = bits := List.take_of_length_le (by omega)
      rw [hdrop, htake, List.nil_append, List.append_assoc, List.replicate_append_replicate]
      congr 2
      omega

variable {k : ℕ}

def symbolCount (k bytes : ℕ) : ℕ := (8*bytes+(k-1))/k

def encode (A : Alphabet k) (bs : Bytes) : Bytes :=
  (groups k (symbolCount k bs.length) (toBits bs)).map (fun g => A.symbol (ofBits g))

def decode (A : Alphabet k) (s : Bytes) : Option Bytes :=
  (s.mapM A.value).map (fun ds => bitsToBytes (ds.flatMap (natBits k)))

@[simp] theorem encode_length (A : Alphabet k) (bs : Bytes) :
    (encode A bs).length = symbolCount k bs.length := by
  rw [encode, List.length_map, groups_length]

theorem encode_symbol (A : Alphabet k) (bs : Bytes) :
    ∀ c ∈ encode A bs, ∃ d < 2^k, c = A.symbol d := by
  intro c hc
  obtain ⟨g, hg, rfl⟩ := List.mem_map.mp hc
  have hlen := group_length k _ _ g hg
  exact ⟨ofBits g,by rw [← hlen]; exact ofBits_lt g,rfl⟩

theorem mapM_value (A : Alphabet k) (gs : List (List Bool)) (h : ∀ g ∈ gs, g.length = k) :
    (gs.map (fun g => A.symbol (ofBits g))).mapM A.value = some (gs.map ofBits) := by
  induction gs with
  | nil => rfl
  | cons g gs ih =>
    have hlt : ofBits g < 2^k := by
      rw [← h g (by simp)]
      exact ofBits_lt g
    rw [List.map_cons, List.mapM_cons, A.value_symbol _ hlt, ih (fun e he => h e (by simp [he]))]
    rfl

theorem flatMap_natBits (gs : List (List Bool)) (h : ∀ g ∈ gs, g.length = k) :
    (gs.map ofBits).flatMap (natBits k) = gs.flatten := by
  induction gs with
  | nil => rfl
  | cons g gs ih =>
    have hg : natBits k (ofBits g) = g := by
      rw [← h g (by simp)]
      exact natBits_ofBits g
    rw [List.map_cons, List.flatMap_cons, hg, ih (fun e he => h e (by simp [he])),
      List.flatten_cons]

theorem decode_encode (A : Alphabet k) (hpos : 0 < k) (hk : k ≤ 8) (bs : Bytes) :
    decode A (encode A bs) = some bs := by
  have hmod := Nat.div_add_mod (8*bs.length+(k-1)) k
  have hlt := Nat.mod_lt (8*bs.length+(k-1)) hpos
  have hfit : 8*bs.length ≤ k*symbolCount k bs.length := by
    unfold symbolCount
    omega
  have hshort : k*symbolCount k bs.length-8*bs.length < 8 := by
    unfold symbolCount
    omega
  have hgroups := group_length k (symbolCount k bs.length) (toBits bs)
  rw [decode, encode, mapM_value A _ hgroups, Option.map_some, flatMap_natBits _ hgroups,
    groups_flatten _ _ _ (by rwa [toBits_length]), toBits_length,
    bitsToBytes_toBits _ _ (by rwa [List.length_replicate])]

theorem encode_inj (A : Alphabet k) (hpos : 0 < k) (hk : k ≤ 8) (a b : Bytes)
    (h : encode A a = encode A b) : a = b := by
  have hd := congrArg (decode A) h
  rw [decode_encode A hpos hk, decode_encode A hpos hk] at hd
  exact Option.some.inj hd

section Canonical

theorem bitsToBytes_split (bits : List Bool) (h : 8 ≤ bits.length) :
    bitsToBytes bits = UInt8.ofNat (ofBits (bits.take 8))::bitsToBytes (bits.drop 8) := by
  have hfirst : (bits.take 8).length = 8 := by
    rw [List.length_take]
    omega
  rw [← bitsToBytes_byte _ _ hfirst, List.take_append_drop]

theorem bitsToBytes_length (bits : List Bool) : (bitsToBytes bits).length = bits.length/8 := by
  generalize hn : bits.length/8 = n
  induction n generalizing bits with
  | zero => rw [bitsToBytes_short bits (by omega), List.length_nil]
  | succ n ih =>
    have hrest := ih (bits.drop 8) (by rw [List.length_drop]; omega)
    rw [bitsToBytes_split bits (by omega), List.length_cons, hrest]

theorem toBits_bitsToBytes (bits : List Bool) :
    toBits (bitsToBytes bits) = bits.take (8*(bits.length/8)) := by
  generalize hn : bits.length/8 = n
  induction n generalizing bits with
  | zero => rw [bitsToBytes_short bits (by omega), Nat.mul_zero, List.take_zero]; rfl
  | succ n ih =>
    have hfirst : (bits.take 8).length = 8 := by
      rw [List.length_take]
      omega
    have hlt := ofBits_lt (bits.take 8)
    have hback := natBits_ofBits (bits.take 8)
    rw [hfirst] at hlt hback
    have hbyte : natBits 8 (UInt8.ofNat (ofBits (bits.take 8))).toNat = bits.take 8 := by
      rw [UInt8.toNat_ofNat_of_lt' hlt, hback]
    have hrest := ih (bits.drop 8) (by rw [List.length_drop]; omega)
    rw [bitsToBytes_split bits (by omega), Nat.mul_succ, Nat.add_comm, List.take_add]
    change natBits 8 _++toBits (bitsToBytes (bits.drop 8)) = _
    rw [hbyte, hrest]

theorem bitsToBytes_starts (bs : Bytes) (bits : List Bool) :
    (∃ more, bs++more = bitsToBytes bits) ↔ bits.take (8*bs.length) = toBits bs := by
  constructor
  · rintro ⟨more, h⟩
    have hlen := congrArg List.length h
    rw [List.length_append, bitsToBytes_length] at hlen
    have hbits := congrArg toBits h
    rw [toBits_bitsToBytes, toBits, List.flatMap_append] at hbits
    change toBits bs++toBits more = _ at hbits
    have htake := congrArg (List.take (8*bs.length)) hbits
    rw [← toBits_length, List.take_left, toBits_length, List.take_take,
      Nat.min_eq_left (by omega)] at htake
    exact htake.symm
  · intro h
    refine ⟨bitsToBytes (bits.drop (8*bs.length)), ?_⟩
    rw [← bitsToBytes_append, ← h, List.take_append_drop]

theorem flatten_inj {α : Type} (m : ℕ) (gs hs : List (List α)) (hg : ∀ g ∈ gs, g.length = m)
    (hh : ∀ h ∈ hs, h.length = m) (hlen : gs.length = hs.length) (h : gs.flatten = hs.flatten) :
    gs = hs := by
  induction gs generalizing hs with
  | nil => exact (List.length_eq_zero_iff.mp hlen.symm).symm
  | cons g gs ih =>
    cases hs with
    | nil => cases hlen
    | cons e hs =>
      rw [List.forall_mem_cons] at hg hh
      obtain ⟨hfirst, hrest⟩ := List.append_inj (show g++gs.flatten = e++hs.flatten from h)
        (hg.1.trans hh.1.symm)
      rw [hfirst, ih hs hg.2 hh.2 (Nat.succ.inj hlen) hrest]

variable (A : Alphabet k)

def Alphabet.Exact : Prop := ∀ c d, A.value c = some d → d < 2^k ∧ A.symbol d = c

theorem mapM_symbols (hA : A.Exact) (s : Bytes) (ds : List ℕ) (h : s.mapM A.value = some ds) :
    (∀ d ∈ ds, d < 2^k) ∧ ds.map A.symbol = s := by
  induction s generalizing ds with
  | nil =>
    obtain rfl : [] = ds := Option.some.inj h
    simp
  | cons c s ih =>
    rw [List.mapM_cons] at h
    simp only [Option.bind_eq_bind, Option.bind_eq_some_iff, Option.pure_def,
      Option.some.injEq] at h
    obtain ⟨d, hd, rest, hrest, rfl⟩ := h
    obtain ⟨hlt, hsymbol⟩ := hA c d hd
    obtain ⟨hall, hmap⟩ := ih rest hrest
    rw [List.forall_mem_cons, List.map_cons, hsymbol, hmap]
    exact ⟨⟨hlt,hall⟩,rfl⟩

theorem digits_blocks (ds : List ℕ) : ∀ g ∈ ds.map (natBits k), g.length = k := by
  intro g hg
  obtain ⟨d, -, rfl⟩ := List.mem_map.mp hg
  exact natBits_length k d

theorem digits_length (ds : List ℕ) : (ds.flatMap (natBits k)).length = k*ds.length := by
  induction ds with
  | nil => rfl
  | cons d ds ih =>
    rw [List.flatMap_cons, List.length_append, natBits_length, ih, List.length_cons]
    ring

theorem digits_inj (ds es : List ℕ) (hds : ∀ d ∈ ds, d < 2^k) (hes : ∀ e ∈ es, e < 2^k)
    (hlen : ds.length = es.length) (h : ds.flatMap (natBits k) = es.flatMap (natBits k)) :
    ds = es := by
  have hblocks : ds.map (natBits k) = es.map (natBits k) :=
    flatten_inj k _ _ (digits_blocks ds) (digits_blocks es) (by simpa using hlen) h
  have hback : ∀ xs : List ℕ, (∀ x ∈ xs, x < 2^k) → (xs.map (natBits k)).map ofBits = xs := by
    intro xs hxs
    rw [List.map_map]
    refine (List.map_congr_left (fun x hx => ?_)).trans (List.map_id xs)
    rw [Function.comp_apply, ofBits_natBits, Nat.mod_eq_of_lt (hxs x hx), id]
  rw [← hback ds hds, hblocks, hback es hes]

/-- A text is what its bytes encode to if and only if it has no symbol too many
and its left-over bits are zero. -/
theorem encode_decoded (hA : A.Exact) (s : Bytes) (ds : List ℕ) (hds : s.mapM A.value = some ds)
    (bs : Bytes) (hbs : bs = bitsToBytes (ds.flatMap (natBits k)))
    (hfit : 8*bs.length ≤ k*symbolCount k bs.length) :
    encode A bs = s ↔ ds.length = symbolCount k bs.length ∧
      ∀ b ∈ (ds.flatMap (natBits k)).drop (8*bs.length), b = false := by
  obtain ⟨hlt, hsymbols⟩ := mapM_symbols A hA s ds hds
  have hgroups := group_length k (symbolCount k bs.length) (toBits bs)
  have hflat := groups_flatten k (symbolCount k bs.length) (toBits bs) (by rwa [toBits_length])
  have hlen : bs.length = (ds.flatMap (natBits k)).length/8 := by rw [hbs, bitsToBytes_length]
  have hbits : toBits bs = (ds.flatMap (natBits k)).take (8*bs.length) := by
    rw [hlen, hbs, toBits_bitsToBytes]
  constructor
  · intro h
    have hvalues := mapM_value A _ hgroups
    rw [← encode, h, hds, Option.some.injEq] at hvalues
    rw [hvalues, flatMap_natBits _ hgroups, hflat, List.length_map, groups_length,
      ← toBits_length, List.drop_left]
    exact ⟨rfl,fun b hb => (List.mem_replicate.mp hb).2⟩
  · rintro ⟨hcount, hzero⟩
    have hdrop : (ds.flatMap (natBits k)).drop (8*bs.length) =
        List.replicate (k*symbolCount k bs.length-8*bs.length) false := by
      refine List.eq_replicate_iff.mpr ⟨?_, hzero⟩
      rw [List.length_drop, digits_length, hcount]
    have hblocks : groups k (symbolCount k bs.length) (toBits bs) = ds.map (natBits k) := by
      refine flatten_inj k _ _ hgroups (digits_blocks ds) ?_ ?_
      · rw [groups_length, List.length_map, hcount]
      · rw [hflat, toBits_length, hbits, ← hdrop, List.take_append_drop]
        rfl
    rw [encode, hblocks, List.map_map, ← hsymbols]
    refine List.map_congr_left (fun d hd => ?_)
    rw [Function.comp_apply, ofBits_natBits, Nat.mod_eq_of_lt (hlt d hd)]

end Canonical

def listed (symbols : Bytes) (c : UInt8) : Option ℕ := symbols.findIdx? (· == c)

def base32LowerSymbols : Bytes := ascii "abcdefghijklmnopqrstuvwxyz234567"

/-- RFC 4648 base32 in lower case. -/
def base32Lower : Alphabet 5 where
  symbol := fun d => base32LowerSymbols.getD d 0
  value := listed base32LowerSymbols
  value_symbol := by decide

theorem listed_exact (symbols : Bytes) (c : UInt8) (d : ℕ) (h : listed symbols c = some d) :
    d < symbols.length ∧ symbols.getD d 0 = c := by
  obtain ⟨hlt, heq, -⟩ := List.findIdx?_eq_some_iff_getElem.mp h
  rw [List.getD_eq_getElem _ _ hlt]
  exact ⟨hlt,by simpa using heq⟩

theorem base32Lower_exact : base32Lower.Exact := fun c d h => listed_exact _ c d h

def base64StdSymbols : Bytes :=
  ascii "ABCDEFGHIJKLMNOPQRSTUVWXYZabcdefghijklmnopqrstuvwxyz0123456789+/"

def base64Std : Alphabet 6 where
  symbol := fun d => base64StdSymbols.getD d 0
  value := listed base64StdSymbols
  value_symbol := by decide

section Base64

def padChar : UInt8 := 61

/-- Standard base64: symbols padded to a multiple of four. -/
def base64Encode (bs : Bytes) : Bytes :=
  encode base64Std bs++List.replicate ((4-symbolCount 6 bs.length%4)%4) padChar

def isNewline (c : UInt8) : Bool := c == 10 || c == 13

/-- Line breaks are skipped, then at most two pad characters close the last
quantum. Bits that do not fill a byte are not looked at. -/
def base64Decode (s : Bytes) : Option Bytes :=
  let s := s.filter (fun c => !isNewline c)
  let body := s.rdropWhile (· == padChar)
  if s.length%4 ≠ 0 ∨ 2 < s.length-body.length then none else decode base64Std body

theorem base64Std_symbol : ∀ d < 2^6, isNewline (base64Std.symbol d) = false ∧
    base64Std.symbol d ≠ padChar := by decide +kernel

theorem base64Encode_filter (bs : Bytes) :
    (base64Encode bs).filter (fun c => !isNewline c) = base64Encode bs := by
  refine List.filter_eq_self.mpr (fun c hc => ?_)
  rcases List.mem_append.mp hc with hc | hc
  · obtain ⟨d, hd, rfl⟩ := encode_symbol base64Std bs c hc
    simp [(base64Std_symbol d hd).1]
  · rw [(List.mem_replicate.mp hc).2]
    rfl

theorem base64Encode_trim (bs : Bytes) :
    (base64Encode bs).rdropWhile (· == padChar) = encode base64Std bs := by
  have hbody : (encode base64Std bs).rdropWhile (· == padChar) = encode base64Std bs := by
    refine List.rdropWhile_eq_self_iff.mpr (fun hne hlast => ?_)
    obtain ⟨d, hd, heq⟩ := encode_symbol base64Std bs _ (List.getLast_mem hne)
    rw [heq] at hlast
    exact (base64Std_symbol d hd).2 (by simpa using hlast)
  have hpad : ∀ n, (encode base64Std bs++List.replicate n padChar).rdropWhile (· == padChar) =
      encode base64Std bs := by
    intro n
    induction n with
    | zero => simpa using hbody
    | succ n ih =>
      rw [List.replicate_succ', ← List.append_assoc, List.rdropWhile_concat_pos _ _ _ (by simp), ih]
  exact hpad _

@[simp] theorem base64Decode_base64Encode (bs : Bytes) :
    base64Decode (base64Encode bs) = some bs := by
  have hcount : symbolCount 6 bs.length%4 ≠ 1 := by
    unfold symbolCount
    omega
  simp only [base64Decode, base64Encode_filter, base64Encode_trim]
  rw [if_neg]
  · exact decode_encode base64Std (by decide) (by decide) bs
  · simp only [base64Encode, List.length_append, List.length_replicate, encode_length]
    omega

end Base64

end Aevia.BaseEncoding
