import Aevia.Foundation.Bytes
import Mathlib.Data.List.Basic

/-!
# Contract ABI words

Arguments of a contract call as a sequence of 32-byte words, with offsets into
it for arrays. An array that was laid out behind a prefix is read back at the
length of the prefix.
-/

set_option autoImplicit false

namespace Aevia.Abi
open Aevia.Bytes

def wordSize : ℕ := 32

def word (n : ℕ) : Bytes := bigEndian wordSize n

@[simp] theorem word_length (n : ℕ) : (word n).length = wordSize := bigEndian_length _ _

theorem ofBigEndian_word (n : ℕ) (hn : n < 2^256) : ofBigEndian (word n) = n := by
  rw [word, ofBigEndian_bigEndian]
  exact Nat.mod_eq_of_lt (by rwa [wordSize, show 256^32 = 2^256 by norm_num])

def encode (args : List ℕ) : Bytes := args.flatMap word

theorem encode_inj (as bs : List ℕ) (ha : ∀ a ∈ as, a < 2^256) (hb : ∀ b ∈ bs, b < 2^256)
    (hlen : as.length = bs.length) (h : encode as = encode bs) : as = bs := by
  induction as generalizing bs with
  | nil => exact (List.length_eq_zero_iff.mp hlen.symm).symm
  | cons a as ih =>
    cases bs with
    | nil => cases hlen
    | cons b bs =>
      rw [List.forall_mem_cons] at ha hb
      obtain ⟨hword, hrest⟩ := List.append_inj (show word a++encode as = word b++encode bs from h)
        (by rw [word_length, word_length])
      have hhead : a = b := by
        rw [← ofBigEndian_word a ha.1, ← ofBigEndian_word b hb.1, hword]
      rw [hhead, ih bs ha.2 hb.2 (Nat.succ.inj hlen) hrest]

def wordAt (args : Bytes) (offset : ℕ) : Option Bytes :=
  if offset+wordSize ≤ args.length then some ((args.drop offset).take wordSize) else none

def natAt (args : Bytes) (offset : ℕ) : Option ℕ := (wordAt args offset).map ofBigEndian

def wordsAt (args : Bytes) : ℕ → ℕ → Option (List Bytes)
  | _, 0 => some []
  | offset, n+1 => do
    let w ← wordAt args offset
    let ws ← wordsAt args (offset+wordSize) n
    some (w::ws)

def arrayAt (args : Bytes) (offset : ℕ) : Option (List Bytes) := do
  let n ← natAt args offset
  wordsAt args (offset+wordSize) n

theorem wordAt_append (before w after : Bytes) (hw : w.length = wordSize) :
    wordAt (before++w++after) before.length = some w := by
  rw [wordAt, if_pos (by simp [hw]), List.append_assoc, List.drop_left, ← hw, List.take_left]

theorem natAt_append (before after : Bytes) (n : ℕ) (hn : n < 2^256) :
    natAt (before++word n++after) before.length = some n := by
  rw [natAt, wordAt_append _ _ _ (word_length n), Option.map_some, ofBigEndian_word n hn]

theorem wordsAt_append (before after : Bytes) (ws : List Bytes)
    (hws : ∀ w ∈ ws, w.length = wordSize) :
    wordsAt (before++ws.flatten++after) before.length ws.length = some ws := by
  induction ws generalizing before with
  | nil => rfl
  | cons w ws ih =>
    have hw := hws w List.mem_cons_self
    have hfirst : before++(w::ws).flatten++after = before++w++(ws.flatten++after) := by simp
    have hrest := ih (before++w) (fun v hv => hws v (List.mem_cons_of_mem _ hv))
    rw [List.length_append, hw, List.append_assoc (before++w)] at hrest
    rw [List.length_cons, wordsAt, hfirst, wordAt_append _ _ _ hw, hrest]
    rfl

theorem arrayAt_append (before after : Bytes) (ws : List Bytes)
    (hws : ∀ w ∈ ws, w.length = wordSize) (hlen : ws.length < 2^256) :
    arrayAt (before++(word ws.length++ws.flatten)++after) before.length = some ws := by
  have hcount := natAt_append before (ws.flatten++after) ws.length hlen
  have hwords := wordsAt_append (before++word ws.length) after ws hws
  simp only [List.append_assoc] at hcount hwords ⊢
  rw [List.length_append, word_length] at hwords
  rw [arrayAt, hcount]
  exact hwords

end Aevia.Abi
