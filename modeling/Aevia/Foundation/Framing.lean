import Aevia.Foundation.Bytes

/-!
# Length-prefixed framing

Items behind their length in a fixed number of bytes, and the parser that takes
them apart again.
-/

set_option autoImplicit false

namespace Aevia.Framing
open Aevia.Bytes

def frame (w : ℕ) (item : Bytes) : Bytes := bigEndian w item.length++item

/-- Takes a length of `w` bytes and as many bytes as it says, up to the end. -/
def parseFrames (w : ℕ) : ℕ → Bytes → Option (List Bytes)
  | 0, b => if b = [] then some [] else none
  | rounds+1, b =>
    if b = [] then some []
    else if b.length < w then none
    else
      let n := ofBigEndian (b.take w)
      let rest := b.drop w
      if rest.length < n then none
      else (parseFrames w rounds (rest.drop n)).map (rest.take n::·)

/-- Every frame has at least a length, so as many rounds as bytes are enough. -/
def parse (w : ℕ) (b : Bytes) : Option (List Bytes) := parseFrames w b.length b

theorem parseFrames_nil (w rounds : ℕ) : parseFrames w rounds [] = some [] := by
  cases rounds <;> rfl

theorem parseFrames_frame (w rounds : ℕ) (hw : 0 < w) (item rest : Bytes)
    (hitem : item.length < 256^w) :
    parseFrames w (rounds+1) (frame w item++rest) =
      (parseFrames w rounds rest).map (item::·) := by
  have hne : frame w item++rest ≠ [] := by
    rw [frame, ← List.length_pos_iff]
    simp only [List.length_append, bigEndian_length]
    omega
  have hlen : ¬ (frame w item++rest).length < w := by
    rw [frame]
    simp only [List.length_append, bigEndian_length]
    omega
  have htake : (frame w item++rest).take w = bigEndian w item.length := by
    rw [frame, List.append_assoc]
    exact List.take_left' (bigEndian_length _ _)
  have hdrop : (frame w item++rest).drop w = item++rest := by
    rw [frame, List.append_assoc]
    exact List.drop_left' (bigEndian_length _ _)
  have hn : ofBigEndian (bigEndian w item.length) = item.length := by
    rw [ofBigEndian_bigEndian, Nat.mod_eq_of_lt hitem]
  rw [parseFrames, if_neg hne, if_neg hlen, htake, hdrop, hn]
  dsimp only
  rw [List.take_left, List.drop_left]
  exact if_neg (by rw [List.length_append]; omega)

theorem parseFrames_flatMap (w : ℕ) (hw : 0 < w) (items : List Bytes)
    (hitems : ∀ item ∈ items, item.length < 256^w) (rounds : ℕ) (hrounds : items.length ≤ rounds) :
    parseFrames w rounds (items.flatMap (frame w)) = some items := by
  induction items generalizing rounds with
  | nil => exact parseFrames_nil w rounds
  | cons item items ih =>
    obtain ⟨rounds, rfl⟩ : ∃ n, rounds = n+1 := Nat.exists_eq_add_of_le' (by
      rw [List.length_cons] at hrounds
      omega)
    rw [List.flatMap_cons, parseFrames_frame w rounds hw _ _ (hitems item List.mem_cons_self),
      ih (fun i hi => hitems i (List.mem_cons_of_mem _ hi)) rounds (Nat.le_of_succ_le_succ hrounds)]
    rfl

theorem length_le_flatMap (w : ℕ) (hw : 0 < w) (items : List Bytes) :
    items.length ≤ (items.flatMap (frame w)).length := by
  induction items with
  | nil => exact le_rfl
  | cons item items ih =>
    simp only [List.flatMap_cons, List.length_append, List.length_cons, frame, bigEndian_length]
    omega

theorem parse_flatMap (w : ℕ) (hw : 0 < w) (items : List Bytes)
    (hitems : ∀ item ∈ items, item.length < 256^w) :
    parse w (items.flatMap (frame w)) = some items :=
  parseFrames_flatMap w hw items hitems _ (length_le_flatMap w hw items)

end Aevia.Framing
