import Aevia.Foundation.WebUrl

/-!
# The redirect behind the sign-in

`safeNextPath` looks at the first two units of a text, the browser at what is left of it
without tabs and newlines. A text that passes leaves the site exactly when only tabs and
newlines stand between its first two slashes and the authority behind them names
another host.
-/

set_option autoImplicit false

namespace Aevia.SafeNext
open Aevia.JsText Aevia.WebUrl

/-- `none` is what is no string. -/
def safeNextPath (next : Option Text) (fallback : Text) : Text :=
  match next with
  | none => fallback
  | some next =>
    if next.length = 0 then fallback
    else if next[0]? ≠ some 47 then fallback
    else if next[1]? = some 47 ∨ next[1]? = some 92 then fallback
    else next

def dashboard : Text := js "/dashboard"

def httpsUrl {Host : Type} (host : Host) (port : Option ℕ) : Url Host := ⟨js "https", host, port⟩

/-- A slash, one tab or newline or more, a second slash or a backslash, and what follows. -/
def HidesSlash (next behind : Text) : Prop :=
  ∃ gap c, next = 47::(gap++c::behind) ∧ gap ≠ [] ∧ (∀ u ∈ gap, isTabOrNewline u = true) ∧
    isSlash c = true

section Filter

theorem safeNextPath_cases (next : Option Text) (fallback : Text) :
    (safeNextPath next fallback = fallback ∧ ∀ n behind, next = some n → ¬HidesSlash n behind) ∨
      ∃ s, next = some (47::s) ∧ safeNextPath next fallback = 47::s ∧
        s[0]? ≠ some 47 ∧ s[0]? ≠ some 92 := by
  rcases next with _ | _ | ⟨c, s⟩
  · exact .inl ⟨rfl, by rintro n behind ⟨⟩⟩
  · refine .inl ⟨rfl, ?_⟩
    rintro n behind ⟨⟩ ⟨gap, c, h, -⟩
    cases h
  · by_cases hc : c = 47
    · subst hc
      by_cases hs : s[0]? = some 47 ∨ s[0]? = some 92
      · refine .inl ⟨by simp [safeNextPath, hs], ?_⟩
        rintro n behind ⟨⟩ ⟨gap, c, h, hgap, hnewlines, -⟩
        obtain ⟨u, gap, rfl⟩ := List.exists_cons_of_ne_nil hgap
        rw [(List.cons.inj h).2] at hs
        have hu := hnewlines u List.mem_cons_self
        rcases hs with hs | hs <;> (cases hs; exact absurd hu (by decide))
      · push Not at hs
        exact .inr ⟨s, rfl, by simp [safeNextPath, hs.1, hs.2], hs.1, hs.2⟩
    · refine .inl ⟨by simp [safeNextPath, hc], ?_⟩
      rintro n behind ⟨⟩ ⟨gap, d, h, -⟩
      exact hc (List.cons.inj h).1

theorem hidesSlash_iff (s : Text) (hslash : s[0]? ≠ some 47) (hback : s[0]? ≠ some 92)
    (c : UInt16) (rest : Text) (hc : isSlash c = true) :
    cleaned s = c::rest ↔ ∃ gap behind, s = gap++c::behind ∧ gap ≠ [] ∧
      (∀ u ∈ gap, isTabOrNewline u = true) ∧ cleaned behind = rest := by
  have hkept : isC0OrSpace c = false ∧ isTabOrNewline c = false := by
    obtain rfl | rfl : c = 47 ∨ c = 92 := by simpa [isSlash] using hc
    · decide
    · decide
  rw [cleaned_eq_cons s rest c hkept.1]
  constructor
  · rintro ⟨gap, behind, rfl, hgap, -, hrest⟩
    refine ⟨gap, behind, rfl, ?_, hgap, hrest⟩
    rintro rfl
    obtain rfl | rfl : c = 47 ∨ c = 92 := by simpa [isSlash] using hc
    · exact hslash rfl
    · exact hback rfl
  · rintro ⟨gap, behind, hs, -, hgap, hrest⟩
    exact ⟨gap, behind, hs, hgap, hkept.2, hrest⟩

end Filter

section Redirect
variable {Host : Type} (hostParser : Text → Option Host)

def target (schemeState : Text → Option (Url Host)) (host : Host) (port : Option ℕ)
    (next : Option Text) : Option (Url Host) :=
  resolve hostParser schemeState 443 (httpsUrl host port) (safeNextPath next dashboard)

theorem dashboard_stays (schemeState : Text → Option (Url Host)) (host : Host) (port : Option ℕ) :
    resolve hostParser schemeState 443 (httpsUrl host port) dashboard =
      some (httpsUrl host port) := by
  have htext : dashboard = 47::js "dashboard" := by decide
  have hclean : cleaned (js "dashboard") = js "dashboard" := by decide
  rw [htext, resolve_slash, hclean]
  refine relativeSlash_keeps hostParser 443 _ _ (fun c rest h => ?_)
  rw [← (List.cons.inj h).1]
  decide

/-- The redirect stays on the site exactly when a hidden slash, if there is one, has an
authority behind it that names the same host. -/
theorem safeNextPath_exact (schemeState : Text → Option (Url Host)) (host : Host)
    (port : Option ℕ) (next : Option Text) :
    (∃ url, target hostParser schemeState host port next = some url ∧ url.host = host) ↔
      ∀ n behind, next = some n → HidesSlash n behind →
        namedHost hostParser ((cleaned behind).dropWhile isSlash) = some host := by
  have hstays : (∃ url, target hostParser schemeState host port next = some url ∧ url.host = host) ↔
      (target hostParser schemeState host port next).map Url.host = some host := by
    rw [Option.map_eq_some_iff]
  rw [hstays, target]
  rcases safeNextPath_cases next dashboard with ⟨hpath, hnone⟩ | ⟨s, rfl, hpath, hslash, hback⟩
  · rw [hpath, dashboard_stays]
    exact ⟨fun _ n behind hn h => absurd h (hnone n behind hn), fun _ => rfl⟩
  · rw [hpath, resolve_slash]
    by_cases hhidden : ∃ c rest, cleaned s = c::rest ∧ isSlash c = true
    · obtain ⟨c, rest, hclean, hc⟩ := hhidden
      rw [hclean, relativeSlash_names hostParser 443 _ c rest hc]
      constructor
      · rintro h n behind ⟨⟩ ⟨gap, d, hn, hgap, hnewlines, hd⟩
        have hother := (hidesSlash_iff s hslash hback d (cleaned behind) hd).mpr
          ⟨gap, behind, (List.cons.inj hn).2, hgap, hnewlines, rfl⟩
        rw [hclean] at hother
        rw [← (List.cons.inj hother).2]
        exact h
      · intro h
        obtain ⟨gap, behind, hs, hgap, hnewlines, hrest⟩ :=
          (hidesSlash_iff s hslash hback c rest hc).mp hclean
        rw [← hrest]
        exact h _ behind rfl ⟨gap, c, by rw [hs], hgap, hnewlines, hc⟩
    · push Not at hhidden
      rw [relativeSlash_keeps hostParser 443 _ _ (fun c rest h => by simpa using hhidden c rest h)]
      refine ⟨?_, fun _ => rfl⟩
      rintro - n behind ⟨⟩ ⟨gap, c, hn, hgap, hnewlines, hc⟩
      have hclean := (hidesSlash_iff s hslash hback c (cleaned behind) hc).mpr
        ⟨gap, behind, (List.cons.inj hn).2, hgap, hnewlines, rfl⟩
      exact absurd hc (hhidden c _ hclean)

/-- With a tab between the slashes the browser goes to the other host. -/
theorem safeNextPath_leaves :
    (target some (fun _ => none) (js "aevia.network") none
      (some (47::9::47::js "evil.com"))).map Url.host = some (js "evil.com") ∧
    js "evil.com" ≠ js "aevia.network" := by
  decide

end Redirect

end Aevia.SafeNext
