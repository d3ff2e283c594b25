import Aevia.Foundation.Bytes
import Mathlib.Data.Int.Log
import Mathlib.Data.List.TakeWhile
import Mathlib.Data.Rat.Floor

/-!
# Numbers of JavaScript

A number is the double closest to a value, ties going to the even significand, or an
infinity. Natural numbers up to 2^53 are doubles. A literal is read as its exact value
first.
-/

set_option autoImplicit false

namespace Aevia.JsNumber
open Aevia.Bytes

def roundHalfEven (x : ℚ) : ℤ :=
  if x-⌊x⌋ < 1/2 then ⌊x⌋
  else if 1/2 < x-⌊x⌋ then ⌊x⌋+1
  else if ⌊x⌋%2 = 0 then ⌊x⌋
  else ⌊x⌋+1

/-- Neighbouring doubles are this power of two apart; below the normal ones the distance
stays. -/
def spacing (x : ℚ) : ℤ := max (Int.log 2 |x|-52) (-1074)

/-- The closest double; an infinity is `none`. -/
def toDouble (x : ℚ) : Option ℚ :=
  let y : ℚ := (roundHalfEven (x/2^spacing x) : ℚ)*2^spacing x
  if 2^1024 ≤ |y| then none else some y

def literalValue (literal : Bytes) : ℚ :=
  let unsigned := if literal.head? = some 45 then literal.tail else literal
  let whole := unsigned.takeWhile isDigit
  let rest := unsigned.dropWhile isDigit
  let fraction := if rest.head? = some 46 then rest.tail.takeWhile isDigit else []
  let rest := if rest.head? = some 46 then rest.tail.dropWhile isDigit else rest
  let exponent : ℤ := match rest with
    | _::45::digits => -ofDecimal digits
    | _::43::digits => ofDecimal digits
    | _::digits => ofDecimal digits
    | [] => 0
  let magnitude : ℚ := ofDecimal (whole++fraction)*10^(exponent-fraction.length)
  if literal.head? = some 45 then -magnitude else magnitude

section Exact

theorem roundHalfEven_intCast (n : ℤ) : roundHalfEven (n : ℚ) = n := by
  rw [roundHalfEven, Int.floor_intCast, sub_self, if_pos (by norm_num)]

theorem toDouble_natCast (n : ℕ) (hn : n < 2^53) : toDouble (n : ℚ) = some (n : ℚ) := by
  obtain ⟨k, hk⟩ : ∃ k : ℕ, spacing (n : ℚ) = -k := by
    have hlog : Int.log 2 |(n : ℚ)| ≤ 52 := by
      rw [Nat.abs_cast, Int.log_natCast]
      have hlt := Nat.log_lt_of_lt_pow' (by decide : 53 ≠ 0) hn
      omega
    exact ⟨(-spacing (n : ℚ)).toNat, by rw [spacing] at *; omega⟩
  have hscaled : (n : ℚ)/2^(-(k : ℤ)) = ((n*2^k : ℤ) : ℚ) := by
    rw [zpow_neg, div_inv_eq_mul, zpow_natCast]
    push_cast
    rfl
  have hback : ((n*2^k : ℤ) : ℚ)*2^(-(k : ℤ)) = n := by
    rw [← hscaled, div_mul_cancel₀ _ (zpow_ne_zero _ two_ne_zero)]
  have hsmall : ¬(2 : ℚ)^1024 ≤ |(n : ℚ)| := by
    rw [Nat.abs_cast, not_le]
    have hlt : (n : ℚ) < 2^53 := by exact_mod_cast hn
    exact hlt.trans_le (pow_le_pow_right₀ (by norm_num) (by norm_num))
  rw [toDouble, hk, hscaled, roundHalfEven_intCast, hback, if_neg hsmall]

theorem literalValue_decimal (n : ℕ) : literalValue (decimal n) = n := by
  have hhead : (decimal n).head? ≠ some 45 := by
    intro h
    have hdigit := decimal_isDigit n 45 (List.mem_of_mem_head? h)
    exact absurd hdigit (by decide)
  have htake : (decimal n).takeWhile isDigit = decimal n :=
    List.takeWhile_eq_self_iff.mpr (decimal_isDigit n)
  have hdrop : (decimal n).dropWhile isDigit = [] :=
    List.dropWhile_eq_nil_iff.mpr (decimal_isDigit n)
  simp [literalValue, hhead, htake, hdrop]

end Exact

end Aevia.JsNumber
