import Aevia.Foundation.JsonText

/-!
# JSON documents

Documents as trees, the compact printer and a recursive-descent parser with a
bound on the nesting. Printing a tree of integers, strings, arrays and objects
and parsing the text gives the tree back, with ill-formed text replaced.
-/

set_option autoImplicit false

namespace Aevia

inductive Json where
  | null
  | bool (b : Bool)
  | num (literal : Bytes)
  | str (text : Bytes)
  | arr (items : List Json)
  | obj (fields : List (Bytes × Json))

namespace Json
open Aevia.Bytes Aevia.Utf8

mutual
def print : Json → Bytes
  | .null => ascii "null"
  | .bool b => if b then ascii "true" else ascii "false"
  | .num literal => literal
  | .str text => quote text
  | .arr [] => [91, 93]
  | .arr (x::xs) => 91::(print x++printItems xs)
  | .obj [] => [123, 125]
  | .obj ((k, x)::fs) => 123::(quote k++58::(print x++printFields fs))
def printItems : List Json → Bytes
  | [] => [93]
  | x::xs => 44::(print x++printItems xs)
def printFields : List (Bytes × Json) → Bytes
  | [] => [125]
  | (k, x)::fs => 44::(quote k++58::(print x++printFields fs))
end

def isSpace (b : UInt8) : Bool := b == 32 || b == 9 || b == 10 || b == 13

def skipSpace (s : Bytes) : Bytes := s.dropWhile isSpace

def parseDigits (s : Bytes) : Option (Bytes × Bytes) :=
  if s.takeWhile isDigit = [] then none else some (s.takeWhile isDigit, s.dropWhile isDigit)

/-- The integer part: a single zero, or digits without a leading zero. -/
def parseInteger : Bytes → Option (Bytes × Bytes)
  | 48::s => some ([48], s)
  | s => parseDigits s

def parseFraction : Bytes → Option (Bytes × Bytes)
  | 46::s => (parseDigits s).map (fun p => (46::p.1, p.2))
  | s => some ([], s)

def parseExponent : Bytes → Option (Bytes × Bytes)
  | [] => some ([], [])
  | e::s =>
    if e = 101 ∨ e = 69 then
      match s with
      | 43::t => (parseDigits t).map (fun p => (e::43::p.1, p.2))
      | 45::t => (parseDigits t).map (fun p => (e::45::p.1, p.2))
      | t => (parseDigits t).map (fun p => (e::p.1, p.2))
    else some ([], e::s)

def parseUnsigned (s : Bytes) : Option (Bytes × Bytes) := do
  let (whole, s) ← parseInteger s
  let (fraction, s) ← parseFraction s
  let (exponent, s) ← parseExponent s
  some (whole++fraction++exponent, s)

def parseNumber : Bytes → Option (Bytes × Bytes)
  | 45::s => (parseUnsigned s).map (fun p => (45::p.1, p.2))
  | s => parseUnsigned s

def parseKeyword (word : Bytes) (j : Json) (s : Bytes) : Option (Json × Bytes) :=
  if word.isPrefixOf s then some (j, s.drop word.length) else none

mutual
/-- A value and what follows it. `depth` is how deep arrays and objects may
still nest, the fuel bounds the number of calls. -/
def parseValue : ℕ → ℕ → Bytes → Option (Json × Bytes)
  | 0, _, _ => none
  | n+1, depth, s =>
    match skipSpace s with
    | [] => none
    | c::rest =>
      if c = 34 then (parseText (rest.length+1) rest).map (fun p => (.str p.1, p.2))
      else if c = 91 then
        if depth = 0 then none
        else match skipSpace rest with
        | 93::rest => some (.arr [], rest)
        | rest => do
          let (x, rest) ← parseValue n (depth-1) rest
          let (xs, rest) ← parseItems n (depth-1) rest
          some (.arr (x::xs), rest)
      else if c = 123 then
        if depth = 0 then none
        else match skipSpace rest with
        | 125::rest => some (.obj [], rest)
        | rest => do
          let (f, rest) ← parseMember n (depth-1) rest
          let (fs, rest) ← parseFields n (depth-1) rest
          some (.obj (f::fs), rest)
      else if c = 110 then parseKeyword (ascii "null") .null (c::rest)
      else if c = 116 then parseKeyword (ascii "true") (.bool true) (c::rest)
      else if c = 102 then parseKeyword (ascii "false") (.bool false) (c::rest)
      else (parseNumber (c::rest)).map (fun p => (.num p.1, p.2))
def parseItems : ℕ → ℕ → Bytes → Option (List Json × Bytes)
  | 0, _, _ => none
  | n+1, depth, s =>
    match skipSpace s with
    | 93::rest => some ([], rest)
    | 44::rest => do
      let (x, rest) ← parseValue n depth rest
      let (xs, rest) ← parseItems n depth rest
      some (x::xs, rest)
    | _ => none
def parseMember : ℕ → ℕ → Bytes → Option ((Bytes × Json) × Bytes)
  | 0, _, _ => none
  | n+1, depth, s =>
    match skipSpace s with
    | 34::rest => do
      let (k, rest) ← parseText (rest.length+1) rest
      match skipSpace rest with
      | 58::rest => do
        let (x, rest) ← parseValue n depth rest
        some ((k, x), rest)
      | _ => none
    | _ => none
def parseFields : ℕ → ℕ → Bytes → Option (List (Bytes × Json) × Bytes)
  | 0, _, _ => none
  | n+1, depth, s =>
    match skipSpace s with
    | 125::rest => some ([], rest)
    | 44::rest => do
      let (f, rest) ← parseMember n depth rest
      let (fs, rest) ← parseFields n depth rest
      some (f::fs, rest)
    | _ => none
end

def maxNestingDepth : ℕ := 10000

/-- The first value of a stream; what follows it is not looked at. -/
def decodeStream (s : Bytes) : Option Json :=
  (parseValue (2*s.length+2) maxNestingDepth s).map Prod.fst

def parse (s : Bytes) : Option Json :=
  match parseValue (2*s.length+2) maxNestingDepth s with
  | some (j, rest) => if skipSpace rest = [] then some j else none
  | none => none

def IsInteger (literal : Bytes) : Prop := ∃ n, literal = decimal n ∨ literal = 45::decimal n

mutual
/-- Documents whose numbers are integers. -/
def Printable : Json → Prop
  | .num literal => IsInteger literal
  | .arr items => PrintableItems items
  | .obj fields => PrintableFields fields
  | _ => True
def PrintableItems : List Json → Prop
  | [] => True
  | x::xs => Printable x ∧ PrintableItems xs
def PrintableFields : List (Bytes × Json) → Prop
  | [] => True
  | (_, x)::fs => Printable x ∧ PrintableFields fs
end

mutual
def sanitized : Json → Json
  | .null => .null
  | .bool b => .bool b
  | .num literal => .num literal
  | .str text => .str (sanitize text)
  | .arr items => .arr (sanitizedItems items)
  | .obj fields => .obj (sanitizedFields fields)
def sanitizedItems : List Json → List Json
  | [] => []
  | x::xs => sanitized x::sanitizedItems xs
def sanitizedFields : List (Bytes × Json) → List (Bytes × Json)
  | [] => []
  | (k, x)::fs => (sanitize k, sanitized x)::sanitizedFields fs
end

mutual
def height : Json → ℕ
  | .arr items => heightItems items+1
  | .obj fields => heightFields fields+1
  | _ => 0
def heightItems : List Json → ℕ
  | [] => 0
  | x::xs => max (height x) (heightItems xs)
def heightFields : List (Bytes × Json) → ℕ
  | [] => 0
  | (_, x)::fs => max (height x) (heightFields fs)
end

mutual
def calls : Json → ℕ
  | .arr items => callsItems items+1
  | .obj fields => callsFields fields+1
  | _ => 1
def callsItems : List Json → ℕ
  | [] => 1
  | x::xs => calls x+callsItems xs+1
def callsFields : List (Bytes × Json) → ℕ
  | [] => 1
  | (_, x)::fs => calls x+callsFields fs+2
end

section Members
variable (fs gs : List (Bytes × Json))

theorem printableFields_append :
    PrintableFields (fs++gs) ↔ PrintableFields fs ∧ PrintableFields gs := by
  induction fs with
  | nil => simp [PrintableFields]
  | cons f fs ih => simp [PrintableFields, ih, and_assoc]

theorem sanitizedFields_append :
    sanitizedFields (fs++gs) = sanitizedFields fs++sanitizedFields gs := by
  induction fs with
  | nil => rfl
  | cons f fs ih => simp [sanitizedFields, ih]

theorem heightFields_append :
    heightFields (fs++gs) = max (heightFields fs) (heightFields gs) := by
  induction fs with
  | nil => simp [heightFields]
  | cons f fs ih => simp [heightFields, ih, max_assoc]

end Members

section Pieces

/-- What may follow a value: nothing, a separator or a closing bracket. -/
def Stops (rest : Bytes) : Prop := rest = [] ∨ ∃ t, rest = 44::t ∨ rest = 93::t ∨ rest = 125::t

theorem parseDigits_append (ds rest : Bytes) (hne : ds ≠ []) (hds : ∀ c ∈ ds, isDigit c = true)
    (hrest : Stops rest) : parseDigits (ds++rest) = some (ds, rest) := by
  have hstop : rest.takeWhile isDigit = [] ∧ rest.dropWhile isDigit = rest := by
    rcases hrest with rfl | ⟨t, rfl | rfl | rfl⟩ <;> exact ⟨rfl,rfl⟩
  have htake : (ds++rest).takeWhile isDigit = ds := by
    rw [List.takeWhile_append_of_pos hds, hstop.1, List.append_nil]
  have hdrop : (ds++rest).dropWhile isDigit = rest := by
    rw [List.dropWhile_append_of_pos hds, hstop.2]
  rw [parseDigits, htake, hdrop, if_neg hne]

theorem parseInteger_decimal (n : ℕ) (rest : Bytes) (hrest : Stops rest) :
    parseInteger (decimal n++rest) = some (decimal n, rest) := by
  rcases decimal_head n with h | h
  · rw [h]
    rfl
  · have hdigits := parseDigits_append _ rest (decimal_ne_nil n) (decimal_isDigit n) hrest
    obtain ⟨c, t, hc⟩ := List.exists_cons_of_ne_nil (decimal_ne_nil n)
    rw [hc] at h hdigits ⊢
    rw [List.cons_append] at hdigits ⊢
    unfold parseInteger
    split
    · rename_i heq
      simp only [List.cons.injEq] at heq
      simp [heq.1] at h
    · exact hdigits

theorem parseUnsigned_decimal (n : ℕ) (rest : Bytes) (hrest : Stops rest) :
    parseUnsigned (decimal n++rest) = some (decimal n, rest) := by
  have htail : parseFraction rest = some ([], rest) ∧ parseExponent rest = some ([], rest) := by
    rcases hrest with rfl | ⟨t, rfl | rfl | rfl⟩ <;> exact ⟨rfl,rfl⟩
  simp [parseUnsigned, parseInteger_decimal n rest hrest, htail]

theorem decimal_cons (n : ℕ) : ∃ c t, decimal n = c::t ∧ isDigit c = true := by
  obtain ⟨c, t, hc⟩ := List.exists_cons_of_ne_nil (decimal_ne_nil n)
  exact ⟨c,t,hc,decimal_isDigit n c (by simp [hc])⟩

theorem parseNumber_integer (literal : Bytes) (h : IsInteger literal) (rest : Bytes)
    (hrest : Stops rest) : parseNumber (literal++rest) = some (literal, rest) := by
  obtain ⟨n, rfl | rfl⟩ := h
  · have hunsigned := parseUnsigned_decimal n rest hrest
    obtain ⟨c, t, hc, hdigit⟩ := decimal_cons n
    rw [hc, List.cons_append] at hunsigned ⊢
    unfold parseNumber
    split
    · rename_i heq
      simp only [List.cons.injEq] at heq
      rw [heq.1] at hdigit
      cases hdigit
    · exact hunsigned
  · rw [List.cons_append, parseNumber, parseUnsigned_decimal n rest hrest]
    rfl

theorem parseText_quote (text rest : Bytes) :
    ∃ t, quote text++rest = 34::t ∧ parseText (t.length+1) t = some (sanitize text, rest) := by
  refine ⟨_, List.cons_append, ?_⟩
  rw [List.append_assoc]
  exact parseText_quoteBody _ _ text rest (le_refl _) (by simp only [List.length_append]; omega)

theorem skipSpace_cons (c : UInt8) (s : Bytes) (h : isSpace c = false) :
    skipSpace (c::s) = c::s := by
  simp [skipSpace, h]

/-- The first byte of a number: a digit or a sign, so none of the other starts. -/
theorem integer_cons (literal : Bytes) (h : IsInteger literal) :
    ∃ c t, literal = c::t ∧ (isDigit c = true ∨ c = 45) := by
  obtain ⟨n, rfl | rfl⟩ := h
  · obtain ⟨c, t, hc, hdigit⟩ := decimal_cons n
    exact ⟨c,t,hc,Or.inl hdigit⟩
  · exact ⟨45,_,rfl,Or.inr rfl⟩

theorem numberStart (c : UInt8) (h : isDigit c = true ∨ c = 45) :
    isSpace c = false ∧ c ≠ 34 ∧ c ≠ 91 ∧ c ≠ 93 ∧ c ≠ 123 ∧ c ≠ 110 ∧ c ≠ 116 ∧ c ≠ 102 := by
  rcases h with h | rfl
  · have hspace : isSpace c = false := by
      cases hs : isSpace c with
      | false => rfl
      | true =>
        simp only [isSpace, Bool.or_eq_true, beq_iff_eq, or_assoc] at hs
        rcases hs with rfl | rfl | rfl | rfl <;> cases h
    refine ⟨hspace, ?_, ?_, ?_, ?_, ?_, ?_, ?_⟩ <;> rintro rfl <;> cases h
  · decide

theorem print_cons (j : Json) (h : Printable j) :
    ∃ c t, print j = c::t ∧ isSpace c = false ∧ c ≠ 93 := by
  cases j with
  | null => exact ⟨_,_,rfl,by decide⟩
  | bool b => cases b <;> exact ⟨_,_,rfl,by decide⟩
  | num literal =>
    obtain ⟨c, t, hc, hstart⟩ := integer_cons literal (by simpa only [Printable] using h)
    have hn := numberStart c hstart
    exact ⟨c,t,by rw [print, hc],hn.1,hn.2.2.2.1⟩
  | str text => exact ⟨34,_,by rw [print, quote]; rfl,by decide⟩
  | arr items => cases items <;> exact ⟨91,_,by rw [print],by decide⟩
  | obj fields => cases fields <;> exact ⟨123,_,by rw [print],by decide⟩

end Pieces

theorem stops_items (xs : List Json) (rest : Bytes) : Stops (printItems xs++rest) := by
  cases xs with
  | nil => exact Or.inr ⟨_,Or.inr (Or.inl rfl)⟩
  | cons x xs => exact Or.inr ⟨_,Or.inl rfl⟩

theorem stops_fields (fs : List (Bytes × Json)) (rest : Bytes) : Stops (printFields fs++rest) := by
  cases fs with
  | nil => exact Or.inr ⟨_,Or.inr (Or.inr rfl)⟩
  | cons f fs => exact Or.inr ⟨_,Or.inl rfl⟩

section RoundTrip

/-- What the parser makes of printed text with `n` units of fuel, for the four
kinds of text at once. -/
structure Reads (n : ℕ) : Prop where
  value : ∀ j depth rest, Printable j → height j ≤ depth → calls j ≤ n → Stops rest →
    parseValue n depth (print j++rest) = some (sanitized j, rest)
  items : ∀ xs depth rest, PrintableItems xs → heightItems xs ≤ depth → callsItems xs ≤ n →
    parseItems n depth (printItems xs++rest) = some (sanitizedItems xs, rest)
  member : ∀ k x depth rest, Printable x → height x ≤ depth → calls x+1 ≤ n → Stops rest →
    parseMember n depth (quote k++58::(print x++rest)) = some ((sanitize k, sanitized x), rest)
  fields : ∀ fs depth rest, PrintableFields fs → heightFields fs ≤ depth → callsFields fs ≤ n →
    parseFields n depth (printFields fs++rest) = some (sanitizedFields fs, rest)

theorem calls_pos (j : Json) : 0 < calls j := by
  cases j <;> simp [calls]

theorem parseValue_atom (n depth : ℕ) (j : Json) (rest : Bytes) (hj : Printable j)
    (hrest : Stops rest) (harr : ∀ xs, j ≠ .arr xs) (hobj : ∀ fs, j ≠ .obj fs) :
    parseValue (n+1) depth (print j++rest) = some (sanitized j, rest) := by
  cases j with
  | null => simp [print, ascii, parseValue, parseKeyword, skipSpace, isSpace, sanitized]
  | bool b => cases b <;> simp [print, ascii, parseValue, parseKeyword, skipSpace, isSpace, sanitized]
  | num literal =>
    have hnumber := parseNumber_integer literal (by simpa only [Printable] using hj) rest hrest
    obtain ⟨c, t, hc, hstart⟩ := integer_cons literal (by simpa only [Printable] using hj)
    obtain ⟨hspace, h34, h91, -, h123, h110, h116, h102⟩ := numberStart c hstart
    rw [print, hc]
    rw [hc] at hnumber
    rw [List.cons_append] at hnumber ⊢
    rw [parseValue, skipSpace_cons _ _ hspace]
    simp only [h34, h91, h123, h110, h116, h102, if_false]
    rw [hnumber, sanitized]
    rfl
  | str text =>
    obtain ⟨t, ht, hparse⟩ := parseText_quote text rest
    rw [print, ht, parseValue, skipSpace_cons _ _ (by decide)]
    simp only [if_true, hparse, sanitized]
    rfl
  | arr xs => exact absurd rfl (harr xs)
  | obj fs => exact absurd rfl (hobj fs)

theorem parseValue_arr (n depth : ℕ) (h : Reads n) (xs : List Json) (rest : Bytes)
    (hj : Printable (.arr xs)) (hdepth : height (.arr xs) ≤ depth)
    (hcalls : calls (.arr xs) ≤ n+1) :
    parseValue (n+1) depth (print (.arr xs)++rest) = some (sanitized (.arr xs), rest) := by
  simp only [height, calls] at hdepth hcalls
  cases xs with
  | nil =>
    rw [print, List.cons_append, parseValue, skipSpace_cons _ _ (by decide)]
    simp only [show ¬depth = 0 by omega, List.cons_append, List.nil_append, if_false,
      skipSpace_cons 93 rest (by decide), sanitized, sanitizedItems]
    rfl
  | cons x xs =>
    simp only [Printable, PrintableItems, heightItems, callsItems] at hj hdepth hcalls
    have hx := h.value x (depth-1) (printItems xs++rest) hj.1 (by omega) (by omega)
      (stops_items xs rest)
    have hxs := h.items xs (depth-1) rest hj.2 (by omega) (by omega)
    obtain ⟨c, t, hc, hspace, hclose⟩ := print_cons x hj.1
    rw [print, List.cons_append, List.append_assoc, parseValue, skipSpace_cons _ _ (by decide)]
    rw [hc, List.cons_append] at hx ⊢
    dsimp only
    rw [if_neg (by decide), if_pos rfl, if_neg (by omega), skipSpace_cons _ _ hspace]
    split
    · rename_i heq
      simp only [List.cons.injEq] at heq
      exact absurd heq.1 hclose
    · simp only [Option.bind_eq_bind, hx, hxs, Option.bind_some, sanitized, sanitizedItems]

theorem parseValue_obj (n depth : ℕ) (h : Reads n) (fs : List (Bytes × Json)) (rest : Bytes)
    (hj : Printable (.obj fs)) (hdepth : height (.obj fs) ≤ depth)
    (hcalls : calls (.obj fs) ≤ n+1) :
    parseValue (n+1) depth (print (.obj fs)++rest) = some (sanitized (.obj fs), rest) := by
  simp only [height, calls] at hdepth hcalls
  cases fs with
  | nil =>
    rw [print, List.cons_append, parseValue, skipSpace_cons _ _ (by decide)]
    simp only [show ¬depth = 0 by omega, List.cons_append, List.nil_append, if_false,
      skipSpace_cons 125 rest (by decide), sanitized, sanitizedFields]
    rfl
  | cons f fs =>
    obtain ⟨k, x⟩ := f
    simp only [Printable, PrintableFields, heightFields, callsFields] at hj hdepth hcalls
    have hf := h.member k x (depth-1) (printFields fs++rest) hj.1 (by omega) (by omega)
      (stops_fields fs rest)
    have hfs := h.fields fs (depth-1) rest hj.2 (by omega) (by omega)
    have hquote : quote k++58::(print x++(printFields fs++rest)) =
        34::(quoteBody k.length k++[34]++58::(print x++(printFields fs++rest))) := rfl
    have htext : print (.obj ((k, x)::fs))++rest =
        123::(quote k++58::(print x++(printFields fs++rest))) := by
      simp [print, List.append_assoc]
    rw [htext, parseValue, skipSpace_cons _ _ (by decide)]
    rw [hquote] at hf ⊢
    dsimp only
    rw [if_neg (by decide), if_neg (by decide), if_pos rfl, if_neg (by omega),
      skipSpace_cons _ _ (by decide)]
    split
    · rename_i heq
      exact absurd (List.cons.inj heq).1 (by decide)
    · simp only [Option.bind_eq_bind, hf, hfs, Option.bind_some, sanitized, sanitizedFields]

theorem parseMember_print (n depth : ℕ) (h : Reads n) (k : Bytes) (x : Json) (rest : Bytes)
    (hx : Printable x) (hdepth : height x ≤ depth) (hcalls : calls x+1 ≤ n+1)
    (hrest : Stops rest) :
    parseMember (n+1) depth (quote k++58::(print x++rest)) =
      some ((sanitize k, sanitized x), rest) := by
  obtain ⟨t, ht, hparse⟩ := parseText_quote k (58::(print x++rest))
  rw [ht, parseMember, skipSpace_cons _ _ (by decide)]
  simp only [hparse, Option.bind_eq_bind, Option.bind_some, skipSpace_cons 58 _ (by decide),
    h.value x depth rest hx hdepth (by omega) hrest]

theorem reads (n : ℕ) : Reads n := by
  induction n with
  | zero =>
    refine ⟨?_, ?_, ?_, ?_⟩
    · intro j _ _ _ _ hcalls
      have := calls_pos j
      omega
    · intro xs _ _ _ _ hcalls
      cases xs <;> simp [callsItems] at hcalls
    · intro _ x _ _ _ _ hcalls
      omega
    · intro fs _ _ _ _ hcalls
      cases fs <;> simp [callsFields] at hcalls
  | succ n h =>
    refine ⟨?_, ?_, ?_, ?_⟩
    · intro j depth rest hj hdepth hcalls hrest
      cases j with
      | arr xs => exact parseValue_arr n depth h xs rest hj hdepth hcalls
      | obj fs => exact parseValue_obj n depth h fs rest hj hdepth hcalls
      | null => exact parseValue_atom n depth _ rest hj hrest (by simp) (by simp)
      | bool b => exact parseValue_atom n depth _ rest hj hrest (by simp) (by simp)
      | num literal => exact parseValue_atom n depth _ rest hj hrest (by simp) (by simp)
      | str text => exact parseValue_atom n depth _ rest hj hrest (by simp) (by simp)
    · intro xs depth rest hxs hdepth hcalls
      cases xs with
      | nil =>
        rw [printItems, parseItems, List.singleton_append, skipSpace_cons _ _ (by decide)]
        rfl
      | cons x xs =>
        simp only [PrintableItems, heightItems, callsItems] at hxs hdepth hcalls
        rw [printItems, List.cons_append, List.append_assoc, parseItems,
          skipSpace_cons _ _ (by decide)]
        simp [h.value x depth _ hxs.1 (by omega) (by omega) (stops_items xs rest),
          h.items xs depth rest hxs.2 (by omega) (by omega), sanitizedItems]
    · intro k x depth rest hx hdepth hcalls hrest
      exact parseMember_print n depth h k x rest hx hdepth hcalls hrest
    · intro fs depth rest hfs hdepth hcalls
      cases fs with
      | nil =>
        rw [printFields, parseFields, List.singleton_append, skipSpace_cons _ _ (by decide)]
        rfl
      | cons f fs =>
        obtain ⟨k, x⟩ := f
        simp only [PrintableFields, heightFields, callsFields] at hfs hdepth hcalls
        have htext : printFields ((k, x)::fs)++rest =
            44::(quote k++58::(print x++(printFields fs++rest))) := by
          simp [printFields, List.append_assoc]
        rw [htext, parseFields, skipSpace_cons _ _ (by decide)]
        simp [h.member k x depth _ hfs.1 (by omega) (by omega) (stops_fields fs rest),
          h.fields fs depth rest hfs.2 (by omega) (by omega), sanitizedFields]

mutual
theorem calls_le : ∀ j, Printable j → calls j ≤ 2*(print j).length
  | .null, _ => by decide
  | .bool b, _ => by cases b <;> decide
  | .num literal, h => by
    obtain ⟨c, t, hc, -⟩ := integer_cons literal (by simpa only [Printable] using h)
    simp only [calls, print, hc, List.length_cons]
    omega
  | .str text, _ => by
    simp only [calls, print, quote, List.length_cons]
    omega
  | .arr [], _ => by decide
  | .arr (x::xs), h => by
    simp only [Printable, PrintableItems] at h
    have hx := calls_le x h.1
    have hxs := callsItems_le xs h.2
    simp only [calls, callsItems, print, List.length_cons, List.length_append]
    omega
  | .obj [], _ => by decide
  | .obj ((k, x)::fs), h => by
    simp only [Printable, PrintableFields] at h
    have hx := calls_le x h.1
    have hfs := callsFields_le fs h.2
    simp only [calls, callsFields, print, List.length_cons, List.length_append]
    omega
theorem callsItems_le : ∀ xs, PrintableItems xs → callsItems xs ≤ 2*(printItems xs).length
  | [], _ => by decide
  | x::xs, h => by
    simp only [PrintableItems] at h
    have hx := calls_le x h.1
    have hxs := callsItems_le xs h.2
    simp only [callsItems, printItems, List.length_cons, List.length_append]
    omega
theorem callsFields_le : ∀ fs, PrintableFields fs → callsFields fs ≤ 2*(printFields fs).length
  | [], _ => by decide
  | (k, x)::fs, h => by
    simp only [PrintableFields] at h
    have hx := calls_le x h.1
    have hfs := callsFields_le fs h.2
    simp only [callsFields, printFields, List.length_cons, List.length_append]
    omega
end

theorem parse_print (j : Json) (hj : Printable j) (hdepth : height j ≤ maxNestingDepth) :
    parse (print j) = some (sanitized j) := by
  have hcalls := calls_le j hj
  have h := (reads (2*(print j).length+2)).value j maxNestingDepth [] hj hdepth (by omega)
    (Or.inl rfl)
  rw [List.append_nil] at h
  rw [parse, h]
  rfl

/-- A printed object ends by itself, so it is read whatever follows it. -/
theorem decodeStream_obj (fs : List (Bytes × Json)) (rest : Bytes) (hj : Printable (.obj fs))
    (hdepth : height (.obj fs) ≤ maxNestingDepth) :
    decodeStream (print (.obj fs)++rest) = some (sanitized (.obj fs)) := by
  have hcalls := calls_le (.obj fs) hj
  have h := parseValue_obj (2*(print (.obj fs)++rest).length+1) maxNestingDepth (reads _) fs rest
    hj hdepth (by rw [List.length_append]; omega)
  rw [decodeStream, h]
  rfl

end RoundTrip

section Texts

theorem parseKeyword_eq (word : Bytes) (j k : Json) (s rest : Bytes)
    (h : parseKeyword word j s = some (k, rest)) : k = j := by
  unfold parseKeyword at h
  split at h
  · cases h
    rfl
  · cases h

theorem parseValue_cases (n depth : ℕ) (s rest : Bytes) (j : Json)
    (h : parseValue (n+1) depth s = some (j, rest)) :
    (∃ t m u v, j = .str t ∧ parseText m u = some (t, v)) ∨
    j = .obj [] ∨
    (∃ f fs d u v w, j = .obj (f::fs) ∧ parseMember n d u = some (f, v) ∧
      parseFields n d v = some (fs, w)) ∨
    ((∀ t, j ≠ .str t) ∧ ∀ fs, j ≠ .obj fs) := by
  unfold parseValue at h
  split at h
  · cases h
  · rename_i c tail _
    split_ifs at h
    · obtain ⟨⟨t, v⟩, hp, heq⟩ := Option.map_eq_some_iff.mp h
      cases heq
      exact Or.inl ⟨t,_,_,v,rfl,hp⟩
    · refine Or.inr (Or.inr (Or.inr ?_))
      split at h
      · cases h
        simp
      · simp only [Option.bind_eq_bind, Option.bind_eq_some_iff] at h
        obtain ⟨_, _, _, _, h⟩ := h
        cases h
        simp
    · split at h
      · cases h
        exact Or.inr (Or.inl rfl)
      · simp only [Option.bind_eq_bind, Option.bind_eq_some_iff] at h
        obtain ⟨⟨f, v⟩, hf, ⟨fs, w⟩, hfs, h⟩ := h
        cases h
        exact Or.inr (Or.inr (Or.inl ⟨f,fs,_,_,v,_,rfl,hf,hfs⟩))
    · refine Or.inr (Or.inr (Or.inr ?_))
      rw [parseKeyword_eq _ _ _ _ _ h]
      simp
    · refine Or.inr (Or.inr (Or.inr ?_))
      rw [parseKeyword_eq _ _ _ _ _ h]
      simp
    · refine Or.inr (Or.inr (Or.inr ?_))
      rw [parseKeyword_eq _ _ _ _ _ h]
      simp
    · obtain ⟨p, -, heq⟩ := Option.map_eq_some_iff.mp h
      cases heq
      exact Or.inr (Or.inr (Or.inr (by simp)))

theorem parseValue_str (n depth : ℕ) (s rest t : Bytes)
    (h : parseValue n depth s = some (.str t, rest)) : Valid t := by
  cases n with
  | zero => simp [parseValue] at h
  | succ n =>
    rcases parseValue_cases n depth s rest _ h with ⟨_, _, _, _, heq, hp⟩ | heq |
      ⟨_, _, _, _, _, _, heq, -⟩ | ⟨hne, -⟩
    · cases heq
      exact parseText_valid _ _ _ _ hp
    · cases heq
    · cases heq
    · exact (hne t rfl).elim

theorem parseMember_str (n depth : ℕ) (s rest k t : Bytes)
    (h : parseMember n depth s = some ((k, .str t), rest)) : Valid t := by
  cases n with
  | zero => simp [parseMember] at h
  | succ n =>
    unfold parseMember at h
    split at h
    · simp only [Option.bind_eq_bind, Option.bind_eq_some_iff] at h
      obtain ⟨_, _, h⟩ := h
      split at h
      · simp only [Option.bind_eq_some_iff] at h
        obtain ⟨⟨x, _⟩, hx, h⟩ := h
        cases h
        exact parseValue_str n depth _ _ t hx
      · cases h
    · cases h

theorem parseFields_str (n depth : ℕ) (s rest : Bytes) (fs : List (Bytes × Json))
    (h : parseFields n depth s = some (fs, rest)) : ∀ k t, (k, .str t) ∈ fs → Valid t := by
  induction n generalizing s fs rest with
  | zero => simp [parseFields] at h
  | succ n ih =>
    unfold parseFields at h
    split at h
    · cases h
      simp
    · simp only [Option.bind_eq_bind, Option.bind_eq_some_iff] at h
      obtain ⟨⟨f, _⟩, hf, ⟨_, _⟩, hfs, h⟩ := h
      cases h
      intro k t ht
      rcases List.mem_cons.mp ht with rfl | ht
      · exact parseMember_str n depth _ _ k t hf
      · exact ih _ _ _ hfs k t ht
    · cases h

theorem decodeStream_members (s : Bytes) (fs : List (Bytes × Json))
    (h : decodeStream s = some (.obj fs)) : ∀ k t, (k, .str t) ∈ fs → Valid t := by
  obtain ⟨⟨j, rest⟩, h, heq⟩ := Option.map_eq_some_iff.mp h
  cases heq
  rcases parseValue_cases _ _ s rest _ h with ⟨_, _, _, _, heq, -⟩ | heq |
    ⟨f, gs, d, u, v, w, heq, hf, hgs⟩ | ⟨-, hne⟩
  · cases heq
  · cases heq
    simp
  · cases heq
    intro k t ht
    rcases List.mem_cons.mp ht with rfl | ht
    · exact parseMember_str _ d u v k t hf
    · exact parseFields_str _ d v w gs hgs k t ht
  · exact (hne fs rfl).elim

end Texts

end Json

end Aevia
