import Aevia.Foundation.Utf8

/-!
# JSON string literals

Writing and reading of string literals, byte for byte: control characters and
the characters special in HTML are escaped, ill-formed UTF-8 is replaced. What
is read back is the string with its ill-formed bytes replaced, so a valid
string comes back unchanged, and whatever is read is a valid string.
-/

set_option autoImplicit false

namespace Aevia.Json
open Aevia.Bytes Aevia.Utf8

def quoteMark : UInt8 := 34
def backslash : UInt8 := 92

def escapeByte (b : UInt8) : Bytes :=
  if b = 34 ∨ b = 92 then [backslash, b]
  else if b = 8 then ascii "\\b"
  else if b = 12 then ascii "\\f"
  else if b = 10 then ascii "\\n"
  else if b = 13 then ascii "\\r"
  else if b = 9 then ascii "\\t"
  else if b.toNat < 0x20 ∨ b = 60 ∨ b = 62 ∨ b = 38 then
    ascii "\\u00"++[hexDigit (b.toNat/16), hexDigit (b.toNat%16)]
  else [b]

/-- U+2028 and U+2029 are escaped as well. -/
def escapeRune (r : Bytes) : Bytes :=
  if r = [0xe2, 0x80, 0xa8] then ascii "\\u2028"
  else if r = [0xe2, 0x80, 0xa9] then ascii "\\u2029"
  else match r with
  | [b] => escapeByte b
  | r => r

/-- The inside of a literal; the fuel bounds the number of runes. -/
def quoteBody : ℕ → Bytes → Bytes
  | 0, _ => []
  | _+1, [] => []
  | n+1, b::s =>
    match splitRune (b::s) with
    | some (r, t) => escapeRune r++quoteBody n t
    | none => ascii "\\ufffd"++quoteBody n s

/-- A string with every ill-formed byte replaced. -/
def sanitizeBody : ℕ → Bytes → Bytes
  | 0, _ => []
  | _+1, [] => []
  | n+1, b::s =>
    match splitRune (b::s) with
    | some (r, t) => r++sanitizeBody n t
    | none => replacement++sanitizeBody n s

def sanitize (s : Bytes) : Bytes := sanitizeBody s.length s

def quote (s : Bytes) : Bytes := quoteMark::(quoteBody s.length s++[quoteMark])

def hex4 : Bytes → Option (ℕ × Bytes)
  | a::b::c::d::rest => do
    let a ← hexValue a
    let b ← hexValue b
    let c ← hexValue c
    let d ← hexValue d
    some (((a*16+b)*16+c)*16+d, rest)
  | _ => none

/-- A second escape that completes a surrogate pair. -/
def lowSurrogate : Bytes → Option (ℕ × Bytes)
  | 92::117::rest =>
    match hex4 rest with
    | some (y, rest) => if 0xdc00 ≤ y ∧ y ≤ 0xdfff then some (y, rest) else none
    | none => none
  | _ => none

def simpleEscape (c : UInt8) : Option UInt8 :=
  if c = 34 ∨ c = 92 ∨ c = 47 then some c
  else if c = 98 then some 8
  else if c = 102 then some 12
  else if c = 110 then some 10
  else if c = 114 then some 13
  else if c = 116 then some 9
  else none

/-- What follows a backslash. A surrogate without its partner is replaced. -/
def parseEscape : Bytes → Option (Bytes × Bytes)
  | [] => none
  | c::rest =>
    if c = 117 then
      match hex4 rest with
      | none => none
      | some (x, rest) =>
        if isSurrogate x then
          match lowSurrogate rest with
          | some (y, rest') =>
            if x ≤ 0xdbff then some (encodeRune (0x10000+(x-0xd800)*1024+(y-0xdc00)), rest')
            else some (replacement, rest)
          | none => some (replacement, rest)
        else some (encodeRune x, rest)
    else (simpleEscape c).map (fun b => ([b], rest))

/-- The text of a literal after its opening mark, and what follows it. -/
def parseText : ℕ → Bytes → Option (Bytes × Bytes)
  | 0, _ => none
  | _+1, [] => none
  | n+1, b::s =>
    if b = quoteMark then some ([], s)
    else if b = backslash then do
      let (r, t) ← parseEscape s
      let (v, rest) ← parseText n t
      some (r++v, rest)
    else if b.toNat < 0x20 then none
    else
      match splitRune (b::s) with
      | some (r, t) => do
        let (v, rest) ← parseText n t
        some (r++v, rest)
      | none => do
        let (v, rest) ← parseText n s
        some (replacement++v, rest)

theorem simpleEscape_ascii (c b : UInt8) (h : simpleEscape c = some b) : b.toNat < 0x80 := by
  unfold simpleEscape at h
  split_ifs at h with hc <;> simp only [Option.some.injEq] at h <;> subst h
  · rcases hc with rfl | rfl | rfl <;> decide
  all_goals decide

theorem parseEscape_isRune (s r t : Bytes) (h : parseEscape s = some (r, t)) : IsRune r := by
  unfold parseEscape at h
  split at h
  · cases h
  · split at h
    · split at h
      · cases h
      · split at h
        · split at h
          · split at h <;> rw [← (Prod.mk.inj (Option.some.inj h)).1]
            · exact encodeRune_isRune _
            · exact replacement_isRune
          · rw [← (Prod.mk.inj (Option.some.inj h)).1]
            exact replacement_isRune
        · rw [← (Prod.mk.inj (Option.some.inj h)).1]
          exact encodeRune_isRune _
    · obtain ⟨b, hb, heq⟩ := Option.map_eq_some_iff.mp h
      cases heq
      exact .one b (simpleEscape_ascii _ b hb)

/-- Whatever is read is valid UTF-8. -/
theorem parseText_valid (n : ℕ) (s v rest : Bytes) (h : parseText n s = some (v, rest)) :
    Valid v := by
  induction n generalizing s v rest with
  | zero => cases h
  | succ n ih =>
    cases s with
    | nil => cases h
    | cons b s =>
      simp only [parseText] at h
      split at h
      · cases h
        exact .nil
      · split at h
        · simp only [Option.bind_eq_bind, Option.bind_eq_some_iff] at h
          obtain ⟨⟨r, t⟩, hr, ⟨v', rest'⟩, hv, heq⟩ := h
          cases heq
          exact .rune r v' (parseEscape_isRune s r t hr) (ih _ _ _ hv)
        · split at h
          · cases h
          · split at h
            · rename_i r t hsplit
              simp only [Option.bind_eq_bind, Option.bind_eq_some_iff] at h
              obtain ⟨⟨v', rest'⟩, hv, heq⟩ := h
              cases heq
              exact .rune r v' (splitRune_some _ _ _ hsplit).1 (ih _ _ _ hv)
            · simp only [Option.bind_eq_bind, Option.bind_eq_some_iff] at h
              obtain ⟨⟨v', rest'⟩, hv, heq⟩ := h
              cases heq
              exact .rune replacement v' replacement_isRune (ih _ _ _ hv)

section RoundTrip

def withRune (r : Bytes) (x : Option (Bytes × Bytes)) : Option (Bytes × Bytes) :=
  x.bind (fun p => some (r++p.1, p.2))

theorem parseText_escapeByte_nat (m : ℕ) (hm : m < 0x80) (n : ℕ) (rest : Bytes) :
    parseText (n+1) (escapeByte (UInt8.ofNat m)++rest) =
      withRune [UInt8.ofNat m] (parseText n rest) := by
  interval_cases m <;> rfl

theorem parseText_escapeByte (b : UInt8) (hb : b.toNat < 0x80) (n : ℕ) (rest : Bytes) :
    parseText (n+1) (escapeByte b++rest) = withRune [b] (parseText n rest) := by
  have h := parseText_escapeByte_nat b.toNat hb n rest
  rwa [UInt8.ofNat_toNat] at h

theorem parseText_plain (r : Bytes) (hr : IsRune r) (hlong : r.length ≠ 1) (n : ℕ)
    (rest : Bytes) : parseText (n+1) (r++rest) = withRune r (parseText n rest) := by
  have hsplit := splitRune_append r rest hr
  have hhead : ∃ b t, r = b::t ∧ 0x80 ≤ b.toNat := by
    cases hr with
    | one b0 h => simp at hlong
    | two b0 b1 h0 h1 h => exact ⟨b0,_,rfl,by omega⟩
    | three b0 b1 b2 h =>
      simp only [isThree, decide_eq_true_eq] at h
      exact ⟨b0,_,rfl,by omega⟩
    | four b0 b1 b2 b3 h =>
      simp only [isFour, decide_eq_true_eq] at h
      exact ⟨b0,_,rfl,by omega⟩
  obtain ⟨b, t, rfl, hb⟩ := hhead
  have hquote : b ≠ quoteMark := by
    rintro rfl
    exact absurd hb (by decide)
  have hback : b ≠ backslash := by
    rintro rfl
    exact absurd hb (by decide)
  rw [List.cons_append] at hsplit ⊢
  rw [parseText, if_neg hquote, if_neg hback, if_neg (by omega), hsplit]
  rfl

theorem parseText_escapeRune (r : Bytes) (hr : IsRune r) (n : ℕ) (rest : Bytes) :
    parseText (n+1) (escapeRune r++rest) = withRune r (parseText n rest) := by
  unfold escapeRune
  by_cases h8 : r = [0xe2, 0x80, 0xa8]
  · rw [if_pos h8, h8]
    rfl
  · by_cases h9 : r = [0xe2, 0x80, 0xa9]
    · rw [if_neg h8, if_pos h9, h9]
      rfl
    · rw [if_neg h8, if_neg h9]
      cases hr with
      | one b h => exact parseText_escapeByte b h n rest
      | two b0 b1 h0 h1 h => exact parseText_plain _ (.two b0 b1 h0 h1 h) (by simp) n rest
      | three b0 b1 b2 h => exact parseText_plain _ (.three b0 b1 b2 h) (by simp) n rest
      | four b0 b1 b2 b3 h => exact parseText_plain _ (.four b0 b1 b2 b3 h) (by simp) n rest

theorem escapeByte_length (b : UInt8) : 0 < (escapeByte b).length := by
  unfold escapeByte
  repeat' split
  all_goals simp [ascii]

theorem escapeRune_length (r : Bytes) (hr : IsRune r) : 0 < (escapeRune r).length := by
  unfold escapeRune
  split_ifs
  · decide
  · decide
  · split
    · exact escapeByte_length _
    · exact hr.length_pos

theorem parseText_quoteBody (n m : ℕ) (s rest : Bytes) (hn : s.length ≤ n)
    (hm : (quoteBody n s).length < m) :
    parseText m (quoteBody n s++quoteMark::rest) = some (sanitizeBody n s, rest) := by
  induction n generalizing m s with
  | zero =>
    obtain ⟨m, rfl⟩ : ∃ k, m = k+1 := ⟨m-1,by omega⟩
    rw [quoteBody, List.nil_append, parseText, if_pos rfl, sanitizeBody]
  | succ n ih =>
    obtain ⟨m, rfl⟩ : ∃ k, m = k+1 := ⟨m-1,by omega⟩
    cases s with
    | nil => rw [quoteBody, List.nil_append, parseText, if_pos rfl, sanitizeBody]
    | cons b s =>
      rw [List.length_cons] at hn
      unfold quoteBody at hm ⊢
      unfold sanitizeBody
      cases hsplit : splitRune (b::s) with
      | none =>
        simp only [hsplit, List.length_append] at hm ⊢
        have hread : parseText (m+1) (ascii "\\ufffd"++(quoteBody n s++quoteMark::rest)) =
            withRune replacement (parseText m (quoteBody n s++quoteMark::rest)) := rfl
        rw [List.append_assoc, hread, ih m s (by omega) (by
          have : 0 < (ascii "\\ufffd").length := by decide
          omega)]
        rfl
      | some p =>
        obtain ⟨r, t⟩ := p
        obtain ⟨hr, happ⟩ := splitRune_some _ _ _ hsplit
        have hlen := congrArg List.length happ
        have hpos := hr.length_pos
        rw [List.length_cons, List.length_append] at hlen
        simp only [hsplit, List.length_append] at hm ⊢
        have hescape := escapeRune_length r hr
        rw [List.append_assoc, parseText_escapeRune r hr, ih m t (by omega) (by omega)]
        rfl

theorem sanitizeBody_valid (s : Bytes) (hs : Valid s) (n : ℕ) (hn : s.length ≤ n) :
    sanitizeBody n s = s := by
  induction hs generalizing n with
  | nil => cases n <;> rfl
  | rune r s hr hs ih =>
    have hlen := hr.length_pos
    have hsplit := splitRune_append r s hr
    rw [List.length_append] at hn
    obtain ⟨n, rfl⟩ : ∃ k, n = k+1 := ⟨n-1,by omega⟩
    obtain ⟨b, t, rfl⟩ := List.exists_cons_of_length_pos hlen
    rw [List.cons_append] at hsplit ⊢
    unfold sanitizeBody
    simp only [hsplit]
    rw [ih n (by omega), List.cons_append]

theorem sanitize_valid (s : Bytes) (hs : Valid s) : sanitize s = s :=
  sanitizeBody_valid s hs _ (le_refl _)

end RoundTrip

end Aevia.Json
