import Aevia.Foundation.BaseEncoding
import Aevia.Foundation.GoError
import Aevia.Foundation.Json

/-!
# Records and JSON objects

How a document is read into a record of integers, strings and slices: fields
are found by name, else by name up to case, the last occurrence counts, unknown
names are skipped, null leaves a field as it is. Every setter reads back what
is printed for its field.
-/

set_option autoImplicit false

namespace Aevia.StructCodec
open Aevia.Bytes Aevia.BaseEncoding

section Literals

def intLiteral (z : ℤ) : Bytes := if z < 0 then 45::decimal z.natAbs else decimal z.natAbs

theorem intLiteral_isInteger (z : ℤ) : Json.IsInteger (intLiteral z) := by
  unfold intLiteral
  split
  · exact ⟨_,Or.inr rfl⟩
  · exact ⟨_,Or.inl rfl⟩

/-- Digits only, so neither a fraction nor an exponent. -/
def literalNat (s : Bytes) : Option ℕ :=
  if s ≠ [] ∧ s.all isDigit then some (ofDecimal s) else none

def literalInt : Bytes → Option ℤ
  | 45::s => (literalNat s).map (fun n : ℕ => -(n : ℤ))
  | s => (literalNat s).map (fun n : ℕ => (n : ℤ))

@[simp] theorem literalNat_decimal (n : ℕ) : literalNat (decimal n) = some n := by
  have hall : (decimal n).all isDigit = true := List.all_eq_true.mpr (decimal_isDigit n)
  rw [literalNat, if_pos ⟨decimal_ne_nil n,hall⟩, ofDecimal_decimal]

@[simp] theorem literalInt_intLiteral (z : ℤ) : literalInt (intLiteral z) = some z := by
  unfold intLiteral
  split
  · rw [literalInt, literalNat_decimal, Option.map_some]
    congr 1
    omega
  · have hnat := literalNat_decimal z.natAbs
    obtain ⟨c, t, hc, hdigit⟩ := Json.decimal_cons z.natAbs
    rw [hc] at hnat ⊢
    unfold literalInt
    split
    · rename_i heq
      rw [(List.cons.inj heq).1] at hdigit
      cases hdigit
    · rw [hnat, Option.map_some]
      congr 1
      omega

theorem intLiteral_inj (y z : ℤ) (h : intLiteral y = intLiteral z) : y = z := by
  have hread := congrArg literalInt h
  rwa [literalInt_intLiteral, literalInt_intLiteral, Option.some.injEq] at hread

theorem colon_not_mem_intLiteral (z : ℤ) : (58 : UInt8) ∉ intLiteral z := by
  have hdecimal : (58 : UInt8) ∉ decimal z.natAbs := fun h =>
    absurd (decimal_isDigit _ _ h) (by decide)
  unfold intLiteral
  split_ifs
  · rw [List.mem_cons, not_or]
    exact ⟨by decide,hdecimal⟩
  · exact hdecimal

end Literals

section Setters

def setInt64 : Json → Int64 → Option Int64
  | .null, old => some old
  | .num literal, _ => do
    let z ← literalInt literal
    if -2^63 ≤ z ∧ z < 2^63 then some (Int64.ofInt z) else none
  | _, _ => none

def setUint64 : Json → UInt64 → Option UInt64
  | .null, old => some old
  | .num literal, _ => do
    let n ← literalNat literal
    if n < 2^64 then some (UInt64.ofNat n) else none
  | _, _ => none

def setUint32 : Json → UInt32 → Option UInt32
  | .null, old => some old
  | .num literal, _ => do
    let n ← literalNat literal
    if n < 2^32 then some (UInt32.ofNat n) else none
  | _, _ => none

def setUint16 : Json → UInt16 → Option UInt16
  | .null, old => some old
  | .num literal, _ => do
    let n ← literalNat literal
    if n < 2^16 then some (UInt16.ofNat n) else none
  | _, _ => none

def setUint8 : Json → UInt8 → Option UInt8
  | .null, old => some old
  | .num literal, _ => do
    let n ← literalNat literal
    if n < 2^8 then some (UInt8.ofNat n) else none
  | _, _ => none

def setString : Json → Bytes → Option Bytes
  | .null, old => some old
  | .str text, _ => some text
  | _, _ => none

variable {α : Type}

/-- Elements are read over what the backing array held before. -/
def setElements (set : Json → α → Option α) (zero : α) : List Json → List α → Option (List α)
  | [], _ => some []
  | j::js, backing => do
    let a ← set j (backing.headD zero)
    let rest ← setElements set zero js backing.tail
    some (a::rest)

/-- A slice together with its backing array; `none` is the nil slice. -/
abbrev Slice (α : Type) : Type := Option (List α) × List α

def setSlice (set : Json → α → Option α) (zero : α) : Json → Slice α → Option (Slice α)
  | .null, _ => some (none, [])
  | .arr [], _ => some (some [], [])
  | .arr js, (_, backing) => do
    let xs ← setElements set zero js backing
    some (some xs, xs++backing.drop xs.length)
  | _, _ => none

/-- Byte slices are base64 strings or arrays of small integers. -/
def setBytes : Json → Slice UInt8 → Option (Slice UInt8)
  | .str text, _ => (base64Decode text).map (fun bs => (some bs, bs))
  | j, old => setSlice setUint8 0 j old

def int64Json (n : Int64) : Json := .num (intLiteral n.toInt)
def uint64Json (n : UInt64) : Json := .num (decimal n.toNat)
def uint32Json (n : UInt32) : Json := .num (decimal n.toNat)
def uint16Json (n : UInt16) : Json := .num (decimal n.toNat)
def bytesJson (bs : Bytes) : Json := .str (base64Encode bs)
def stringsJson : Option (List Bytes) → Json
  | none => .null
  | some xs => .arr (xs.map Json.str)

@[simp] theorem setInt64_int64Json (n old : Int64) : setInt64 (int64Json n) old = some n := by
  have hlo := n.le_toInt
  have hhi := n.toInt_lt
  simp only [setInt64, int64Json, literalInt_intLiteral, Option.bind_eq_bind, Option.bind_some]
  rw [if_pos ⟨hlo,hhi⟩, Int64.ofInt_toInt]

@[simp] theorem setUint64_uint64Json (n old : UInt64) : setUint64 (uint64Json n) old = some n := by
  simp only [setUint64, uint64Json, literalNat_decimal, Option.bind_eq_bind, Option.bind_some]
  rw [if_pos n.toNat_lt, UInt64.ofNat_toNat]

@[simp] theorem setUint32_uint32Json (n old : UInt32) : setUint32 (uint32Json n) old = some n := by
  simp only [setUint32, uint32Json, literalNat_decimal, Option.bind_eq_bind, Option.bind_some]
  rw [if_pos n.toNat_lt, UInt32.ofNat_toNat]

@[simp] theorem setUint16_uint16Json (n old : UInt16) : setUint16 (uint16Json n) old = some n := by
  simp only [setUint16, uint16Json, literalNat_decimal, Option.bind_eq_bind, Option.bind_some]
  rw [if_pos n.toNat_lt, UInt16.ofNat_toNat]

@[simp] theorem setString_str (text old : Bytes) : setString (.str text) old = some text := rfl

@[simp] theorem setBytes_bytesJson (bs : Bytes) (old : Slice UInt8) :
    setBytes (bytesJson bs) old = some (some bs, bs) := by
  simp [setBytes, bytesJson]

theorem setElements_strings (xs backing : List Bytes) :
    setElements setString [] (xs.map Json.str) backing = some xs := by
  induction xs generalizing backing with
  | nil => rfl
  | cons x xs ih => simp [setElements, ih]

theorem setSlice_stringsJson (xs : Option (List Bytes)) :
    setSlice setString [] (stringsJson xs) (none, []) = some (xs, xs.getD []) := by
  match xs with
  | none => rfl
  | some [] => rfl
  | some (x::xs) =>
    have helements := setElements_strings (x::xs) []
    rw [List.map_cons] at helements
    simp only [stringsJson, List.map_cons, setSlice, helements, Option.bind_eq_bind,
      Option.bind_some, List.drop_nil, List.append_nil, Option.getD_some]

end Setters

section Objects
variable {α : Type}

structure RecordField (α : Type) where
  name : Bytes
  set : Json → α → Option α

/-- Upper case, with the two non-ASCII characters that fold to an ASCII letter. -/
def foldName : Bytes → Bytes
  | 0xc5::0xbf::s => 83::foldName s
  | 0xe2::0x84::0xaa::s => 75::foldName s
  | b::s => (if 97 ≤ b ∧ b ≤ 122 then b-32 else b)::foldName s
  | [] => []

def findField (fields : List (RecordField α)) (key : Bytes) : Option (RecordField α) :=
  match fields.find? (fun f => f.name == key) with
  | some f => some f
  | none => fields.find? (fun f => foldName f.name == foldName key)

def setFields (fields : List (RecordField α)) : List (Bytes × Json) → α → Option α
  | [], a => some a
  | (key, value)::rest, a =>
    match findField fields key with
    | none => setFields fields rest a
    | some f => (f.set value a).bind (setFields fields rest)

theorem setFields_append (fields : List (RecordField α)) (ms ns : List (Bytes × Json)) (a : α) :
    setFields fields (ms++ns) a = (setFields fields ms a).bind (setFields fields ns) := by
  induction ms generalizing a with
  | nil => rfl
  | cons m ms ih =>
    obtain ⟨key, value⟩ := m
    rw [List.cons_append, setFields, setFields]
    split
    · exact ih a
    · rename_i f hfind
      cases f.set value a with
      | none => rfl
      | some b => exact ih b

/-- A null document leaves the record as it is. -/
def decodeRecord (fields : List (RecordField α)) (zero : α) : Json → Option α
  | .null => some zero
  | .obj members => setFields fields members zero
  | _ => none

def syntaxError : GoError := .new "json: syntax error"
def typeError : GoError := .new "json: cannot unmarshal value into field"

def readDocument (fields : List (RecordField α)) (zero : α) : Option Json → Except GoError α
  | none => .error syntaxError
  | some j => match decodeRecord fields zero j with
    | none => .error typeError
    | some a => .ok a

/-- `json.Unmarshal`: the whole input is one document. -/
def unmarshal (fields : List (RecordField α)) (zero : α) (raw : Bytes) : Except GoError α :=
  readDocument fields zero (Json.parse raw)

/-- `Decoder.Decode`: the first document of a stream. -/
def decodeFirst (fields : List (RecordField α)) (zero : α) (raw : Bytes) : Except GoError α :=
  readDocument fields zero (Json.decodeStream raw)

theorem unmarshal_print (fields : List (RecordField α)) (zero a : α) (j : Json) (hj : j.Printable)
    (hdepth : j.height ≤ Json.maxNestingDepth)
    (h : decodeRecord fields zero j.sanitized = some a) :
    unmarshal fields zero j.print = .ok a := by
  rw [unmarshal, Json.parse_print j hj hdepth, readDocument, h]

theorem decodeFirst_print (fields : List (RecordField α)) (zero a : α)
    (members : List (Bytes × Json)) (rest : Bytes) (hj : (Json.obj members).Printable)
    (hdepth : (Json.obj members).height ≤ Json.maxNestingDepth)
    (h : decodeRecord fields zero (Json.obj members).sanitized = some a) :
    decodeFirst fields zero ((Json.obj members).print++rest) = .ok a := by
  rw [decodeFirst, Json.decodeStream_obj members rest hj hdepth, readDocument, h]

theorem findField_name (fields : List (RecordField α)) (hnames : (fields.map (·.name)).Nodup)
    (f : RecordField α) (hf : f ∈ fields) : findField fields f.name = some f := by
  have hfind : fields.find? (fun g => g.name == f.name) = some f := by
    induction fields with
    | nil => cases hf
    | cons g fields ih =>
      rw [List.map_cons, List.nodup_cons] at hnames
      rcases List.mem_cons.mp hf with rfl | hf
      · simp
      · have hne : g.name ≠ f.name := fun h => hnames.1 (h ▸ List.mem_map_of_mem hf)
        rw [List.find?_cons_of_neg (by simpa using hne)]
        exact ih hnames.2 hf
  rw [findField, hfind]

def setEach : List (RecordField α × Json) → α → Option α
  | [], a => some a
  | (f, value)::rest, a => (f.set value a).bind (setEach rest)

theorem setFields_each (fields : List (RecordField α)) (hnames : (fields.map (·.name)).Nodup)
    (values : List (RecordField α × Json)) (hvalues : ∀ v ∈ values, v.1 ∈ fields) (a : α) :
    setFields fields (values.map (fun v => (v.1.name, v.2))) a = setEach values a := by
  induction values generalizing a with
  | nil => rfl
  | cons v values ih =>
    rw [List.map_cons, setFields, findField_name fields hnames v.1 (hvalues v (by simp)), setEach]
    have hrest : setFields fields (values.map (fun v => (v.1.name, v.2))) = setEach values :=
      funext (ih (fun w hw => hvalues w (by simp [hw])))
    simp only [hrest]

theorem setFields_optional (fields : List (RecordField α)) (hnames : (fields.map (·.name)).Nodup)
    (f : RecordField α) (hf : f ∈ fields) (omitted : Prop) [Decidable omitted] (value : Json) (a b : α)
    (hsame : omitted → a = b) (hset : f.set value a = some b) :
    setFields fields (if omitted then [] else [(f.name, value)]) a = some b := by
  split
  · rename_i h
    rw [hsame h, setFields]
  · rw [setFields, findField_name fields hnames f hf]
    simp [hset, setFields]

theorem setFields_invariant (fields : List (RecordField α)) (P : Json → Prop) (I : α → Prop)
    (hset : ∀ f ∈ fields, ∀ j a b, P j → I a → f.set j a = some b → I b)
    (members : List (Bytes × Json)) (hmembers : ∀ k j, (k, j) ∈ members → P j) (a b : α)
    (ha : I a) (h : setFields fields members a = some b) : I b := by
  induction members generalizing a with
  | nil =>
    cases h
    exact ha
  | cons m members ih =>
    obtain ⟨key, value⟩ := m
    have htail : ∀ k j, (k, j) ∈ members → P j :=
      fun k j hj => hmembers k j (List.mem_cons_of_mem _ hj)
    unfold setFields at h
    split at h
    · exact ih htail a ha h
    · rename_i f hfind
      obtain ⟨c, hc, h⟩ := Option.bind_eq_some_iff.mp h
      have hf : f ∈ fields := by
        unfold findField at hfind
        split at hfind
        · cases hfind
          rename_i hname
          exact List.mem_of_find?_eq_some hname
        · exact List.mem_of_find?_eq_some hfind
      exact ih htail c (hset f hf value a c (hmembers key value List.mem_cons_self) ha hc) h

end Objects

section Validity
open Aevia.Utf8

theorem int64Json_printable (n : Int64) : (int64Json n).Printable := by
  rw [int64Json, Json.Printable]
  exact intLiteral_isInteger _

theorem uint64Json_printable (n : UInt64) : (uint64Json n).Printable := by
  rw [uint64Json, Json.Printable]
  exact ⟨_,Or.inl rfl⟩

theorem uint32Json_printable (n : UInt32) : (uint32Json n).Printable := by
  rw [uint32Json, Json.Printable]
  exact ⟨_,Or.inl rfl⟩

theorem uint16Json_printable (n : UInt16) : (uint16Json n).Printable := by
  rw [uint16Json, Json.Printable]
  exact ⟨_,Or.inl rfl⟩

theorem base64Encode_valid (bs : Bytes) : Valid (base64Encode bs) := by
  refine valid_ascii _ (fun c hc => ?_)
  rcases List.mem_append.mp hc with hc | hc
  · obtain ⟨d, hd, rfl⟩ := encode_symbol base64Std bs c hc
    have hascii : ∀ d < 2^6, (base64Std.symbol d).toNat < 0x80 := by decide +kernel
    exact hascii d hd
  · rw [(List.mem_replicate.mp hc).2]
    decide

theorem bytesJson_sanitized (bs : Bytes) : (bytesJson bs).sanitized = bytesJson bs := by
  rw [bytesJson, Json.sanitized, Json.sanitize_valid _ (base64Encode_valid bs)]

theorem printableItems_strings (xs : List Bytes) : Json.PrintableItems (xs.map Json.str) := by
  induction xs with
  | nil => trivial
  | cons x xs ih => exact ⟨by simp [Json.Printable],ih⟩

theorem stringsJson_printable (xs : Option (List Bytes)) : (stringsJson xs).Printable := by
  cases xs with
  | none => simp [stringsJson, Json.Printable]
  | some xs =>
    rw [stringsJson, Json.Printable]
    exact printableItems_strings xs

theorem sanitizedItems_strings (xs : List Bytes) :
    Json.sanitizedItems (xs.map Json.str) = (xs.map Json.sanitize).map Json.str := by
  induction xs with
  | nil => rfl
  | cons x xs ih => simp [Json.sanitizedItems, Json.sanitized, ih]

theorem stringsJson_sanitized (xs : Option (List Bytes)) :
    (stringsJson xs).sanitized = stringsJson (xs.map (List.map Json.sanitize)) := by
  cases xs with
  | none => rfl
  | some xs => simp only [stringsJson, Json.sanitized, sanitizedItems_strings, Option.map_some]

theorem heightItems_strings (xs : List Bytes) : Json.heightItems (xs.map Json.str) = 0 := by
  induction xs with
  | nil => rfl
  | cons x xs ih => simp [Json.heightItems, Json.height, ih]

theorem stringsJson_height (xs : Option (List Bytes)) : (stringsJson xs).height ≤ 1 := by
  cases xs with
  | none => simp [stringsJson, Json.height]
  | some xs => simp [stringsJson, Json.height, heightItems_strings]

end Validity

end Aevia.StructCodec
