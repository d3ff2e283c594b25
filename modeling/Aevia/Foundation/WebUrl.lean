import Aevia.Foundation.JsText
import Mathlib.Data.List.DropRight

/-!
# Resolving against a special URL

The states of the URL parser that decide on the host of a text resolved against a
special URL that is no file: the text loses blanks at its ends and every tab and
newline, a backslash counts as a slash, one slash keeps the host of the base, and
behind two an authority names another. Paths, queries and fragments never fail and are
left out. What stands behind a scheme and how a host is parsed are given.
-/

set_option autoImplicit false

namespace Aevia.WebUrl
open Aevia.JsText

structure Url (Host : Type) where
  scheme : Text
  host : Host
  port : Option ℕ
  deriving DecidableEq, Repr

def isSlash (c : UInt16) : Bool := c == 47 || c == 92

def endsAuthority (c : UInt16) : Bool := isSlash c || c == 63 || c == 35

def isTabOrNewline (c : UInt16) : Bool := c == 9 || c == 10 || c == 13

def isC0OrSpace (c : UInt16) : Bool := c ≤ 32

def isAlpha (c : UInt16) : Bool := (65 ≤ c && c ≤ 90) || (97 ≤ c && c ≤ 122)

def isDigit (c : UInt16) : Bool := 48 ≤ c && c ≤ 57

def stripEnds (s : Text) : Text := (s.dropWhile isC0OrSpace).rdropWhile isC0OrSpace

def removeNewlines (s : Text) : Text := s.filter (fun c => !isTabOrNewline c)

def portValue (digits : Text) : ℕ := digits.foldl (fun n c => n*10+(c.toNat-48)) 0

/-- Whether the host state is inside brackets behind a unit. -/
def bracketed (inside : Bool) (c : UInt16) : Bool :=
  if c = 91 then true else if c = 93 then false else inside

section Parser
variable {Host : Type} (hostParser : Text → Option Host)

/-- The port of a special scheme is not kept when it is the default one. -/
def closePort (defaultPort : ℕ) (buffer : Text) : Option (Option ℕ) :=
  if buffer = [] then some none
  else if portValue buffer > 65535 then none
  else if portValue buffer = defaultPort then some none
  else some (some (portValue buffer))

def portState (defaultPort : ℕ) (buffer : Text) : Text → Option (Option ℕ)
  | [] => closePort defaultPort buffer
  | c::rest =>
    if isDigit c then portState defaultPort (buffer++[c]) rest
    else if endsAuthority c then closePort defaultPort buffer
    else none

def closeHost (buffer : Text) : Option Host := if buffer = [] then none else hostParser buffer

def hostState (defaultPort : ℕ) (inside : Bool) (buffer : Text) :
    Text → Option (Host × Option ℕ)
  | [] => (closeHost hostParser buffer).map (fun host => (host, none))
  | c::rest =>
    if c = 58 ∧ inside = false then do
      let host ← closeHost hostParser buffer
      let port ← portState defaultPort [] rest
      return (host, port)
    else if endsAuthority c then (closeHost hostParser buffer).map (fun host => (host, none))
    else hostState defaultPort (bracketed inside c) (buffer++[c]) rest

/-- What stands before an at sign is a credential; the host state starts again with
what was read since. -/
def authorityState (defaultPort : ℕ) (atSignSeen : Bool) (buffer : Text) :
    Text → Option (Host × Option ℕ)
  | [] =>
    if atSignSeen ∧ buffer = [] then none else hostState hostParser defaultPort false [] buffer
  | c::rest =>
    if c = 64 then authorityState defaultPort true [] rest
    else if endsAuthority c then
      if atSignSeen ∧ buffer = [] then none
      else hostState hostParser defaultPort false [] (buffer++c::rest)
    else authorityState defaultPort atSignSeen (buffer++[c]) rest

def specialAuthorityIgnoreSlashes (defaultPort : ℕ) (s : Text) : Option (Host × Option ℕ) :=
  authorityState hostParser defaultPort false [] (s.dropWhile isSlash)

def relativeSlashState (defaultPort : ℕ) (base : Url Host) : Text → Option (Url Host)
  | [] => some base
  | c::rest =>
    if isSlash c then
      (specialAuthorityIgnoreSlashes hostParser defaultPort rest).map
        (fun named => ⟨base.scheme, named.1, named.2⟩)
    else some base

def relativeState (defaultPort : ℕ) (base : Url Host) : Text → Option (Url Host)
  | [] => some base
  | c::rest =>
    if isSlash c then relativeSlashState hostParser defaultPort base rest else some base

def schemeStartState (schemeState : Text → Option (Url Host)) (defaultPort : ℕ) (base : Url Host)
    (s : Text) : Option (Url Host) :=
  if s.head?.any isAlpha then schemeState s else relativeState hostParser defaultPort base s

def resolve (schemeState : Text → Option (Url Host)) (defaultPort : ℕ) (base : Url Host)
    (input : Text) : Option (Url Host) :=
  schemeStartState hostParser schemeState defaultPort base (removeNewlines (stripEnds input))

end Parser

section Named
variable {Host : Type} (hostParser : Text → Option Host)

def authorityText (s : Text) : Text := s.takeWhile (fun c => !endsAuthority c)

def authorityTail (s : Text) : Text := s.dropWhile (fun c => !endsAuthority c)

def behindLastAt (s : Text) : Text := s.rtakeWhile (fun c => c ≠ 64)

def hostText (inside : Bool) : Text → Text
  | [] => []
  | c::rest => if c = 58 ∧ inside = false then [] else c::hostText (bracketed inside c) rest

def portText (inside : Bool) : Text → Text
  | [] => []
  | c::rest => if c = 58 ∧ inside = false then rest else portText (bracketed inside c) rest

def IsPort (digits : Text) : Prop := (∀ c ∈ digits, isDigit c = true) ∧ portValue digits ≤ 65535

instance (digits : Text) : Decidable (IsPort digits) :=
  inferInstanceAs (Decidable (_ ∧ _))

def namedHost (s : Text) : Option Host :=
  let hostPort := behindLastAt (authorityText s)
  if IsPort (portText false hostPort) then closeHost hostParser (hostText false hostPort) else none

theorem authorityText_ends (s : Text) : ∀ c ∈ authorityText s, endsAuthority c = false := by
  intro c hc
  simpa using List.mem_takeWhile_imp hc

def Ends (tail : Text) : Prop := tail = [] ∨ ∃ c rest, tail = c::rest ∧ endsAuthority c = true

theorem authorityTail_ends (s : Text) : Ends (authorityTail s) := by
  induction s with
  | nil => exact .inl rfl
  | cons c rest ih =>
    rw [authorityTail, List.dropWhile_cons]
    split
    · exact ih
    · rename_i hc
      exact .inr ⟨c, rest, rfl, by simpa using hc⟩

theorem endsAuthority_digit (c : UInt16) (h : endsAuthority c = true) : isDigit c = false := by
  simp only [endsAuthority, isSlash, Bool.or_eq_true, beq_iff_eq] at h
  obtain ((rfl | rfl) | rfl) | rfl := h <;> rfl

theorem closePort_isSome (defaultPort : ℕ) (buffer : Text) :
    (closePort defaultPort buffer).isSome = decide (portValue buffer ≤ 65535) := by
  unfold closePort
  split
  · rename_i hnil
    subst hnil
    rfl
  · split
    · rename_i hlarge
      rw [Option.isSome_none, decide_eq_false (by omega)]
    · rename_i hlarge
      rw [decide_eq_true (by omega)]
      split <;> rfl

theorem portState_isSome (defaultPort : ℕ) (buffer t tail : Text)
    (ht : ∀ c ∈ t, endsAuthority c = false) (htail : Ends tail) :
    (portState defaultPort buffer (t++tail)).isSome = true ↔
      (∀ c ∈ t, isDigit c = true) ∧ portValue (buffer++t) ≤ 65535 := by
  induction t generalizing buffer with
  | nil =>
    rw [List.append_nil]
    rcases htail with rfl | ⟨c, rest, rfl, hc⟩
    · simp [portState, closePort_isSome]
    · simp [portState, endsAuthority_digit c hc, hc, closePort_isSome]
  | cons c t ih =>
    obtain ⟨hc, ht⟩ := List.forall_mem_cons.mp ht
    rw [List.cons_append, portState]
    by_cases hdigit : isDigit c = true
    · rw [if_pos hdigit, ih _ ht, List.append_assoc, List.singleton_append]
      simp [hdigit]
    · rw [if_neg hdigit, if_neg (by rw [hc]; decide)]
      simp [hdigit]

theorem hostState_host (defaultPort : ℕ) (inside : Bool) (buffer t tail : Text)
    (ht : ∀ c ∈ t, endsAuthority c = false) (htail : Ends tail) :
    (hostState hostParser defaultPort inside buffer (t++tail)).map Prod.fst =
      if IsPort (portText inside t) then closeHost hostParser (buffer++hostText inside t)
      else none := by
  induction t generalizing inside buffer with
  | nil =>
    have hport : IsPort (portText inside []) :=
      ⟨fun _ hc => (List.not_mem_nil hc).elim,Nat.zero_le _⟩
    rw [if_pos hport, hostText, List.append_nil]
    rcases htail with rfl | ⟨c, rest, rfl, hc⟩
    · rw [List.append_nil, hostState, Option.map_map]
      exact congrFun Option.map_id _
    · have hcolon : c ≠ 58 := by
        rintro rfl
        exact absurd hc (by decide)
      rw [List.nil_append, hostState, if_neg (fun h => hcolon h.1), if_pos hc, Option.map_map]
      exact congrFun Option.map_id _
  | cons c t ih =>
    obtain ⟨hc, ht⟩ := List.forall_mem_cons.mp ht
    rw [List.cons_append, hostState, portText, hostText]
    by_cases hcolon : c = 58 ∧ inside = false
    · rw [if_pos hcolon, if_pos hcolon, if_pos hcolon, List.append_nil]
      have hport : (portState defaultPort [] (t++tail)).isSome = true ↔ IsPort t :=
        portState_isSome defaultPort [] t tail ht htail
      cases hclose : closeHost hostParser buffer with
      | none => simp
      | some host =>
        cases hstate : portState defaultPort [] (t++tail) with
        | none =>
          rw [hstate, Option.isSome_none] at hport
          rw [if_neg (fun hdigits => Bool.false_ne_true (hport.mpr hdigits))]
          rfl
        | some port =>
          rw [hstate, Option.isSome_some] at hport
          rw [if_pos (hport.mp rfl)]
          rfl
    · rw [if_neg hcolon, if_neg hcolon, if_neg hcolon, if_neg (by rw [hc]; decide), ih _ _ ht,
        List.append_assoc, List.singleton_append]

theorem behindLastAt_append (s t : Text) : behindLastAt (s++64::t) = behindLastAt t := by
  induction t using List.reverseRecOn with
  | nil => simp [behindLastAt]
  | append_singleton t c ih =>
    rw [← List.cons_append, ← List.append_assoc, behindLastAt, behindLastAt,
      List.rtakeWhile_concat, List.rtakeWhile_concat]
    split
    · exact congrArg (·++[c]) ih
    · rfl

theorem behindLastAt_of_notMem (s : Text) (h : 64 ∉ s) : behindLastAt s = s := by
  refine List.rtakeWhile_eq_self_iff.mpr (fun c hc => ?_)
  rw [decide_eq_true_eq]
  rintro rfl
  exact h hc

/-- The at signs only move the start of the host; with nothing behind the last one the
host state fails of itself. -/
theorem authorityState_eq (defaultPort : ℕ) (atSignSeen : Bool) (buffer s : Text)
    (hbuffer : 64 ∉ buffer) :
    authorityState hostParser defaultPort atSignSeen buffer s =
      hostState hostParser defaultPort false []
        (behindLastAt (buffer++authorityText s)++authorityTail s) := by
  induction s generalizing atSignSeen buffer with
  | nil =>
    have htext : authorityText [] = [] := rfl
    have htail : authorityTail [] = [] := rfl
    rw [htext, htail, List.append_nil, List.append_nil, behindLastAt_of_notMem buffer hbuffer,
      authorityState]
    split
    · rename_i hempty
      rw [hempty.2]
      rfl
    · rfl
  | cons c rest ih =>
    rw [authorityState, authorityText, authorityTail, List.takeWhile_cons, List.dropWhile_cons]
    by_cases hat : c = 64
    · subst hat
      have hgoes : (!endsAuthority 64) = true := by decide
      rw [if_pos rfl, ih true [] (by simp), if_pos hgoes, if_pos hgoes, List.nil_append,
        behindLastAt_append]
      rfl
    · rw [if_neg hat]
      by_cases hends : endsAuthority c = true
      · have hstops : ¬(!endsAuthority c) = true := by
          rw [hends]
          decide
        rw [if_pos hends, if_neg hstops, if_neg hstops, List.append_nil,
          behindLastAt_of_notMem buffer hbuffer]
        split
        · rename_i hempty
          have hcolon : c ≠ 58 := by
            rintro rfl
            exact absurd hends (by decide)
          rw [hempty.2, List.nil_append, hostState, if_neg (fun h => hcolon h.1), if_pos hends]
          rfl
        · rfl
      · have hgoes : (!endsAuthority c) = true := by simpa using hends
        rw [if_neg hends, ih atSignSeen (buffer++[c]) (by simp [hbuffer, Ne.symm hat]),
          if_pos hgoes, if_pos hgoes, List.append_assoc, List.singleton_append]
        rfl

theorem authority_host (defaultPort : ℕ) (s : Text) :
    (authorityState hostParser defaultPort false [] s).map Prod.fst = namedHost hostParser s := by
  have hsub : ∀ c ∈ behindLastAt (authorityText s), endsAuthority c = false := by
    intro c hc
    exact authorityText_ends s c ((List.rtakeWhile_suffix _ _).subset hc)
  rw [authorityState_eq hostParser defaultPort false [] s (by simp), List.nil_append,
    hostState_host hostParser defaultPort false [] _ _ hsub (authorityTail_ends s), List.nil_append]
  rfl

end Named

section Slash
variable {Host : Type} (hostParser : Text → Option Host)

def cleaned (s : Text) : Text := removeNewlines (s.rdropWhile isC0OrSpace)

theorem rdropWhile_append_cons (drops : UInt16 → Bool) (s t : Text) (c : UInt16)
    (hc : drops c = false) : (s++c::t).rdropWhile drops = s++c::t.rdropWhile drops := by
  induction t using List.reverseRecOn with
  | nil =>
    rw [List.rdropWhile_nil]
    exact List.rdropWhile_concat_neg drops s c (by rw [hc]; decide)
  | append_singleton t d ih =>
    have hassoc : s++c::(t++[d]) = (s++c::t)++[d] := by simp
    rw [hassoc, List.rdropWhile_concat, List.rdropWhile_concat]
    split
    · exact ih
    · exact hassoc.symm

theorem removeNewlines_stripEnds (s : Text) (c : UInt16) (hc : isC0OrSpace c = false)
    (hkept : isTabOrNewline c = false) : removeNewlines (stripEnds (c::s)) = c::cleaned s := by
  have hends : stripEnds (c::s) = c::s.rdropWhile isC0OrSpace := by
    rw [stripEnds, List.dropWhile_cons_of_neg (by rw [hc]; decide)]
    exact rdropWhile_append_cons isC0OrSpace [] s c hc
  rw [hends, removeNewlines, List.filter_cons_of_pos (by rw [hkept]; rfl)]
  rfl

/-- A unit comes first in a cleaned text exactly when only tabs and newlines stand
before it. -/
theorem cleaned_eq_cons (s rest : Text) (c : UInt16) (hc : isC0OrSpace c = false) :
    cleaned s = c::rest ↔ ∃ gap behind, s = gap++c::behind ∧
      (∀ u ∈ gap, isTabOrNewline u = true) ∧ isTabOrNewline c = false ∧ cleaned behind = rest := by
  constructor
  · intro h
    obtain ⟨gap, l, hsplit, hgap, hkept, hl⟩ := List.filter_eq_cons_iff.mp h
    obtain ⟨blanks, hblanks⟩ := List.rdropWhile_prefix isC0OrSpace (l := s)
    have hs : s = gap++c::(l++blanks) := by
      rw [← hblanks, hsplit, List.append_assoc, List.cons_append]
    have hdrop : l = (l++blanks).rdropWhile isC0OrSpace := by
      have hwhole := rdropWhile_append_cons isC0OrSpace gap (l++blanks) c hc
      rw [← hs, hsplit, List.append_right_inj] at hwhole
      exact (List.cons.inj hwhole).2
    refine ⟨gap, l++blanks, hs, fun u hu => by simpa using hgap u hu, by simpa using hkept, ?_⟩
    rw [cleaned, ← hdrop]
    exact hl
  · rintro ⟨gap, behind, rfl, hgap, hkept, rfl⟩
    have hnone : removeNewlines gap = [] :=
      List.filter_eq_nil_iff.mpr (fun u hu => by simp [hgap u hu])
    rw [cleaned, rdropWhile_append_cons isC0OrSpace gap behind c hc, removeNewlines,
      List.filter_append, List.filter_cons_of_pos (by rw [hkept]; rfl)]
    exact congrArg (·++c::cleaned behind) hnone

/-- Behind a slash the base is kept, unless another one follows. -/
theorem resolve_slash (schemeState : Text → Option (Url Host)) (defaultPort : ℕ) (base : Url Host)
    (s : Text) : resolve hostParser schemeState defaultPort base (47::s) =
      relativeSlashState hostParser defaultPort base (cleaned s) := by
  rw [resolve, removeNewlines_stripEnds s 47 (by decide) (by decide)]
  rfl

theorem relativeSlash_keeps (defaultPort : ℕ) (base : Url Host) (s : Text)
    (h : ∀ c rest, s = c::rest → isSlash c = false) :
    relativeSlashState hostParser defaultPort base s = some base := by
  cases s with
  | nil => rfl
  | cons c rest => rw [relativeSlashState, if_neg (by rw [h c rest rfl]; decide)]

theorem relativeSlash_names (defaultPort : ℕ) (base : Url Host) (c : UInt16) (rest : Text)
    (hc : isSlash c = true) :
    (relativeSlashState hostParser defaultPort base (c::rest)).map Url.host =
      namedHost hostParser (rest.dropWhile isSlash) := by
  rw [relativeSlashState, if_pos hc, ← authority_host hostParser defaultPort, Option.map_map]
  rfl

end Slash

end Aevia.WebUrl
