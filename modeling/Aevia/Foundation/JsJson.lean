import Aevia.Foundation.Json
import Aevia.Foundation.JsNumber

/-!
# Documents in JavaScript

`JSON.parse` of a document written by a Go encoder, in which no escaped surrogate
stands alone. There is no bound on the nesting, but an array has fewer than 2^32
elements. Of members with one name the last one stays.
-/

set_option autoImplicit false

namespace Aevia.Json
open Aevia.Bytes Aevia.JsNumber

mutual
def width : Json → ℕ
  | .arr items => max items.length (widthItems items)
  | .obj fields => widthFields fields
  | _ => 0
def widthItems : List Json → ℕ
  | [] => 0
  | x::xs => max (width x) (widthItems xs)
def widthFields : List (Bytes × Json) → ℕ
  | [] => 0
  | (_, x)::fs => max (width x) (widthFields fs)
end

def jsParse (body : Bytes) : Option Json :=
  match parseValue (2*body.length+2) body.length body with
  | some (j, rest) => if skipSpace rest = [] ∧ j.width < 2^32 then some j else none
  | none => none

/-- A property of a parsed object. -/
def member (fields : List (Bytes × Json)) (name : Bytes) : Option Json :=
  ((fields.filter (fun f => f.1 == name)).getLast?).map Prod.snd

/-- Strict equality with a length. -/
def isLength (n : ℕ) : Json → Bool
  | .num literal => toDouble (literalValue literal) == some (n : ℚ)
  | _ => false

mutual
theorem height_le_print : ∀ j, height j ≤ (print j).length
  | .null | .bool _ | .num _ | .str _ => Nat.zero_le _
  | .arr [] => by decide
  | .arr (x::xs) => by
    have hx := height_le_print x
    have hxs := heightItems_le_print xs
    simp only [height, heightItems, print, List.length_cons, List.length_append]
    omega
  | .obj [] => by decide
  | .obj ((k, x)::fs) => by
    have hx := height_le_print x
    have hfs := heightFields_le_print fs
    simp only [height, heightFields, print, List.length_cons, List.length_append]
    omega
theorem heightItems_le_print : ∀ xs, heightItems xs ≤ (printItems xs).length
  | [] => Nat.zero_le _
  | x::xs => by
    have hx := height_le_print x
    have hxs := heightItems_le_print xs
    simp only [heightItems, printItems, List.length_cons, List.length_append]
    omega
theorem heightFields_le_print : ∀ fs, heightFields fs ≤ (printFields fs).length
  | [] => Nat.zero_le _
  | (k, x)::fs => by
    have hx := height_le_print x
    have hfs := heightFields_le_print fs
    simp only [heightFields, printFields, List.length_cons, List.length_append]
    omega
end

/-- What is printed is parsed, unless an array is too long. -/
theorem jsParse_print (j : Json) (hj : Printable j) :
    jsParse (print j) = if (sanitized j).width < 2^32 then some (sanitized j) else none := by
  have hcalls := calls_le j hj
  have h := (reads (2*(print j).length+2)).value j (print j).length [] hj (height_le_print j)
    (by omega) (Or.inl rfl)
  rw [List.append_nil] at h
  have hrest : skipSpace [] = [] := rfl
  rw [jsParse, h]
  simp only [hrest, true_and]

theorem widthItems_strings (xs : List Bytes) : widthItems (xs.map Json.str) = 0 := by
  induction xs with
  | nil => rfl
  | cons x xs ih => simp [widthItems, width, ih]

/-- A natural number below 2^53 is read as itself. -/
theorem isLength_decimal (n : ℕ) (hn : n < 2^53) : isLength n (.num (decimal n)) = true := by
  rw [isLength, literalValue_decimal, toDouble_natCast n hn, beq_self_eq_true]

end Aevia.Json
