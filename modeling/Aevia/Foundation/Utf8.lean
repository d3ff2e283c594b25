import Aevia.Foundation.Bytes

/-!
# UTF-8

Splitting one well-formed sequence off a byte string, encoding of code points,
and the byte strings that are made of well-formed sequences only.
-/

set_option autoImplicit false

namespace Aevia.Utf8

def isContinuation (b : UInt8) : Bool := 0x80 ≤ b.toNat ∧ b.toNat ≤ 0xbf

/-- The second byte is restricted where a longer form or a surrogate would fit. -/
def isThree (b0 b1 b2 : UInt8) : Bool :=
  0xe0 ≤ b0.toNat ∧ b0.toNat ≤ 0xef ∧ isContinuation b1 ∧ isContinuation b2 ∧
    (b0.toNat = 0xe0 → 0xa0 ≤ b1.toNat) ∧ (b0.toNat = 0xed → b1.toNat ≤ 0x9f)

def isFour (b0 b1 b2 b3 : UInt8) : Bool :=
  0xf0 ≤ b0.toNat ∧ b0.toNat ≤ 0xf4 ∧ isContinuation b1 ∧ isContinuation b2 ∧
    isContinuation b3 ∧ (b0.toNat = 0xf0 → 0x90 ≤ b1.toNat) ∧ (b0.toNat = 0xf4 → b1.toNat ≤ 0x8f)

inductive IsRune : Bytes → Prop
  | one (b0 : UInt8) (h : b0.toNat < 0x80) : IsRune [b0]
  | two (b0 b1 : UInt8) (h0 : 0xc2 ≤ b0.toNat) (h1 : b0.toNat ≤ 0xdf)
      (h : isContinuation b1 = true) : IsRune [b0, b1]
  | three (b0 b1 b2 : UInt8) (h : isThree b0 b1 b2 = true) : IsRune [b0, b1, b2]
  | four (b0 b1 b2 b3 : UInt8) (h : isFour b0 b1 b2 b3 = true) : IsRune [b0, b1, b2, b3]

def splitRune : Bytes → Option (Bytes × Bytes)
  | [] => none
  | b0::rest =>
    if b0.toNat < 0x80 then some ([b0], rest)
    else match rest with
    | [] => none
    | b1::rest =>
      if 0xc2 ≤ b0.toNat ∧ b0.toNat ≤ 0xdf ∧ isContinuation b1 then some ([b0, b1], rest)
      else match rest with
      | [] => none
      | b2::rest =>
        if isThree b0 b1 b2 then some ([b0, b1, b2], rest)
        else match rest with
        | [] => none
        | b3::rest => if isFour b0 b1 b2 b3 then some ([b0, b1, b2, b3], rest) else none

theorem splitRune_append (r s : Bytes) (h : IsRune r) : splitRune (r++s) = some (r, s) := by
  cases h with
  | one b0 h => simp [splitRune, h]
  | two b0 b1 h0 h1 h => simp [splitRune, h0, h1, h, show ¬b0.toNat < 0x80 by omega]
  | three b0 b1 b2 h =>
    have hb : 0xe0 ≤ b0.toNat := by
      simp only [isThree, decide_eq_true_eq] at h
      exact h.1
    simp [splitRune, h, show ¬b0.toNat < 0x80 by omega, show ¬b0.toNat ≤ 0xdf by omega]
  | four b0 b1 b2 b3 h =>
    have hb : 0xf0 ≤ b0.toNat := by
      simp only [isFour, decide_eq_true_eq] at h
      exact h.1
    have hthree : isThree b0 b1 b2 = false := by
      simp only [isThree, decide_eq_false_iff_not]
      omega
    simp [splitRune, h, hthree, show ¬b0.toNat < 0x80 by omega, show ¬b0.toNat ≤ 0xdf by omega]

theorem splitRune_some (s r t : Bytes) (h : splitRune s = some (r, t)) :
    IsRune r ∧ s = r++t := by
  unfold splitRune at h
  split at h
  · cases h
  · split at h
    · cases h
      exact ⟨.one _ ‹_›,rfl⟩
    · split at h
      · cases h
      · split at h
        · cases h
          rename_i hc
          exact ⟨.two _ _ hc.1 hc.2.1 hc.2.2,rfl⟩
        · split at h
          · cases h
          · split at h
            · cases h
              exact ⟨.three _ _ _ ‹_›,rfl⟩
            · split at h
              · cases h
              · split at h
                · cases h
                  exact ⟨.four _ _ _ _ ‹_›,rfl⟩
                · cases h

theorem IsRune.length_pos {r : Bytes} (h : IsRune r) : 0 < r.length := by
  cases h <;> simp

inductive Valid : Bytes → Prop
  | nil : Valid []
  | rune (r s : Bytes) (hr : IsRune r) (hs : Valid s) : Valid (r++s)

theorem valid_ascii (s : Bytes) (h : ∀ b ∈ s, b.toNat < 0x80) : Valid s := by
  induction s with
  | nil => exact .nil
  | cons b s ih =>
    exact .rune [b] s (.one b (h b (by simp))) (ih (fun c hc => h c (by simp [hc])))

def replacement : Bytes := [0xef, 0xbf, 0xbd]

theorem replacement_isRune : IsRune replacement := .three _ _ _ (by decide)

def isSurrogate (c : ℕ) : Bool := 0xd800 ≤ c ∧ c ≤ 0xdfff

def encodeRune (c : ℕ) : Bytes :=
  if c < 0x80 then [UInt8.ofNat c]
  else if c < 0x800 then [UInt8.ofNat (0xc0+c/64), UInt8.ofNat (0x80+c%64)]
  else if isSurrogate c ∨ 0x10ffff < c then replacement
  else if c < 0x10000 then
    [UInt8.ofNat (0xe0+c/4096), UInt8.ofNat (0x80+c/64%64), UInt8.ofNat (0x80+c%64)]
  else [UInt8.ofNat (0xf0+c/262144), UInt8.ofNat (0x80+c/4096%64), UInt8.ofNat (0x80+c/64%64),
    UInt8.ofNat (0x80+c%64)]

theorem toNat_ofNat_of_lt (n : ℕ) (h : n < 256) : (UInt8.ofNat n).toNat = n := by
  rw [UInt8.toNat_ofNat']
  exact Nat.mod_eq_of_lt h

theorem encodeRune_isRune (c : ℕ) : IsRune (encodeRune c) := by
  unfold encodeRune
  split
  · exact .one _ (by rw [toNat_ofNat_of_lt _ (by omega)]; omega)
  · split
    · refine .two _ _ ?_ ?_ ?_ <;>
        simp only [isContinuation, decide_eq_true_eq, toNat_ofNat_of_lt _ (show 0xc0+c/64 < 256 by omega),
          toNat_ofNat_of_lt _ (show 0x80+c%64 < 256 by omega)] <;> omega
    · split
      · exact replacement_isRune
      · rename_i hc
        simp only [isSurrogate, decide_eq_true_eq] at hc
        split
        · refine .three _ _ _ ?_
          simp only [isThree, isContinuation, decide_eq_true_eq,
            toNat_ofNat_of_lt _ (show 0xe0+c/4096 < 256 by omega),
            toNat_ofNat_of_lt _ (show 0x80+c/64%64 < 256 by omega),
            toNat_ofNat_of_lt _ (show 0x80+c%64 < 256 by omega)]
          omega
        · refine .four _ _ _ _ ?_
          simp only [isFour, isContinuation, decide_eq_true_eq,
            toNat_ofNat_of_lt _ (show 0xf0+c/262144 < 256 by omega),
            toNat_ofNat_of_lt _ (show 0x80+c/4096%64 < 256 by omega),
            toNat_ofNat_of_lt _ (show 0x80+c/64%64 < 256 by omega),
            toNat_ofNat_of_lt _ (show 0x80+c%64 < 256 by omega)]
          omega

end Aevia.Utf8
