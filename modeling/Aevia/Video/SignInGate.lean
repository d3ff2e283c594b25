import Aevia.Auth.Sessions
import Aevia.Video.SafeNext

/-!
# The gate in front of the pages of a user

The middleware only asks whether a cookie is there, and sends the browser to the sign-in
with the page it has asked for. The pages themselves read the session.
-/

set_option autoImplicit false

namespace Aevia.SignInGate
open Aevia.Bytes Aevia.JsText Aevia.WebUrl Aevia.Auth Aevia.SafeNext

def protectedPages : List Text := [js "/dashboard", js "/live/new", js "/wallet"]

def privyCookieNames : List Bytes := [
  ascii "privy-id-token",
  ascii "__Host-privy-id-token",
  ascii "privy-token",
  ascii "__Host-privy-token",
  ascii "privy-session",
  ascii "__Host-privy-session"]

def isProtected (pathname : Text) : Bool :=
  protectedPages.any fun p => pathname == p || (p++[47]).isPrefixOf pathname

inductive Gate where
  | next
  | redirect (next : Text)

/-- A redirect goes to `/`, with the page in its query. -/
def middleware (bypass : Bool) (oauthCode : Option Text) (cookies : Bytes → Option Bytes)
    (pathname : Text) : Gate :=
  if bypass then .next
  else if oauthCode.any (· ≠ []) then .next
  else if isProtected pathname = false then .next
  else if privyCookieNames.any (fun name => (given (cookies name)).isSome) then .next
  else .redirect pathname

section Gate

theorem middleware_redirect (bypass : Bool) (oauthCode : Option Text) (cookies : Bytes → Option Bytes)
    (pathname next : Text) (h : middleware bypass oauthCode cookies pathname = .redirect next) :
    bypass = false ∧ next = pathname ∧ isProtected pathname = true ∧
      ∀ name ∈ privyCookieNames, given (cookies name) = none := by
  unfold middleware at h
  split_ifs at h with hbypass hcode hprotected hcookie
  cases h
  refine ⟨by simpa using hbypass, rfl, by simpa using hprotected, ?_⟩
  intro name hname
  simp only [List.any_eq_true, not_exists, not_and, Option.not_isSome_iff_eq_none] at hcookie
  exact hcookie name hname

theorem isProtected_letter (pathname : Text) (h : isProtected pathname = true) :
    ∃ d rest, pathname = 47::d::rest ∧ isAlpha d = true := by
  simp only [isProtected, List.any_eq_true, Bool.or_eq_true, beq_iff_eq,
    List.isPrefixOf_iff_prefix] at h
  obtain ⟨page, hpage, hpath⟩ := h
  have hstart : ∃ d rest, page = 47::d::rest ∧ isAlpha d = true := by
    simp only [protectedPages, List.mem_cons, List.not_mem_nil, or_false] at hpage
    rcases hpage with rfl | rfl | rfl
    · exact ⟨_,_,rfl,rfl⟩
    · exact ⟨_,_,rfl,rfl⟩
    · exact ⟨_,_,rfl,rfl⟩
  obtain ⟨d, rest, rfl, hd⟩ := hstart
  rcases hpath with rfl | ⟨below, rfl⟩
  · exact ⟨d,rest,rfl,hd⟩
  · exact ⟨d,_,rfl,hd⟩

theorem safeNextPath_letter (d : UInt16) (rest fallback : Text) (hd : isAlpha d = true) :
    safeNextPath (some (47::d::rest)) fallback = 47::d::rest := by
  have hslash : d ≠ 47 := by
    rintro rfl
    cases hd
  have hback : d ≠ 92 := by
    rintro rfl
    cases hd
  simp [safeNextPath, hslash, hback]

theorem letter_kept (d : UInt16) (hd : isAlpha d = true) :
    isC0OrSpace d = false ∧ isTabOrNewline d = false ∧ isSlash d = false := by
  simp only [isAlpha, Bool.or_eq_true, Bool.and_eq_true, decide_eq_true_eq, UInt16.le_iff_toNat_le] at hd
  have hlow : 65 ≤ d.toNat := by
    rcases hd with ⟨h, -⟩ | ⟨h, -⟩
    · exact h
    · exact le_trans (by decide) h
  refine ⟨?_, ?_, ?_⟩
  · rw [isC0OrSpace, decide_eq_false_iff_not, UInt16.le_iff_toNat_le]
    exact not_le.mpr (lt_of_lt_of_le (by decide) hlow)
  · by_contra h
    simp only [isTabOrNewline, Bool.not_eq_false, Bool.or_eq_true, beq_iff_eq] at h
    rcases h with (rfl | rfl) | rfl <;> exact absurd hlow (by decide)
  · by_contra h
    simp only [isSlash, Bool.not_eq_false, Bool.or_eq_true, beq_iff_eq] at h
    rcases h with rfl | rfl
    · exact absurd hlow (by decide)
    · exact absurd hd (by decide)

theorem readCookieValue_none (names : List Bytes) (cookies : Bytes → Option Bytes)
    (h : ∀ name ∈ names, given (cookies name) = none) : readCookieValue names cookies = none :=
  List.findSome?_eq_none_iff.mpr h

theorem identityCookieNames_gate : identityCookieNames ⊆ privyCookieNames := by decide

theorem accessCookieNames_gate : accessCookieNames ⊆ privyCookieNames := by decide

theorem resolve_letter {Host : Type} (hostParser : Text → Option Host)
    (schemeState : Text → Option (Url Host)) (base : Url Host) (d : UInt16) (rest : Text)
    (hd : isAlpha d = true) : resolve hostParser schemeState 443 base (47::d::rest) = some base := by
  obtain ⟨hspace, hnewline, hslash⟩ := letter_kept d hd
  have hclean : cleaned (d::rest) = d::cleaned rest :=
    (cleaned_eq_cons (d::rest) _ d hspace).mpr ⟨[],rest,rfl,nofun,hnewline,rfl⟩
  rw [resolve_slash, hclean]
  apply relativeSlash_keeps
  rintro c behind h
  rw [← (List.cons.inj h).1]
  exact hslash

/-- The gate never turns away who the pages would let in; and whom it sends to the sign-in
comes back from there to the page, on the same site. -/
theorem middleware_gate (d : Deployment) (oauthCode : Option Text) (cookies : Bytes → Option Bytes)
    (pathname : Text) :
    ((readAeviaSession d cookies).isSome → middleware d.bypass oauthCode cookies pathname = .next) ∧
    ∀ next, middleware d.bypass oauthCode cookies pathname = .redirect next →
      next = pathname ∧ readAeviaSession d cookies = none ∧
      ∀ {Host : Type} (hostParser : Text → Option Host) (schemeState : Text → Option (Url Host))
        (host : Host) (port : Option ℕ),
        safeNextPath (some next) dashboard = pathname ∧
        target hostParser schemeState host port (some next) = some (httpsUrl host port) := by
  have hredirect : ∀ next, middleware d.bypass oauthCode cookies pathname = .redirect next →
      readAeviaSession d cookies = none := by
    intro next h
    obtain ⟨hbypass, -, -, hcookies⟩ := middleware_redirect _ _ _ _ _ h
    have hidentity : readCookieValue identityCookieNames cookies = none :=
      readCookieValue_none _ _ fun name hname => hcookies name (identityCookieNames_gate hname)
    have haccess : readCookieValue accessCookieNames cookies = none :=
      readCookieValue_none _ _ fun name hname => hcookies name (accessCookieNames_gate hname)
    rw [readAeviaSession, if_neg (by simp [hbypass]), hidentity, haccess]
    cases given d.appId with
    | none => rfl
    | some appId => rfl
  constructor
  · intro hsome
    cases hgate : middleware d.bypass oauthCode cookies pathname with
    | next => rfl
    | redirect next =>
      rw [hredirect next hgate] at hsome
      cases hsome
  · intro next h
    obtain ⟨-, rfl, hprotected, -⟩ := middleware_redirect _ _ _ _ _ h
    obtain ⟨c, rest, rfl, hc⟩ := isProtected_letter next hprotected
    refine ⟨rfl, hredirect _ h, ?_⟩
    intro Host hostParser schemeState host port
    have hnext := safeNextPath_letter c rest dashboard hc
    refine ⟨hnext, ?_⟩
    rw [target, hnext]
    exact resolve_letter hostParser schemeState _ c rest hc

theorem middleware_gate_sample :
    middleware false none (fun _ => none) (js "/wallet") = .redirect (js "/wallet") ∧
      safeNextPath (some (js "/wallet")) dashboard = js "/wallet" :=
  ⟨rfl,(((middleware_gate sampleDeployment none (fun _ => none) (js "/wallet")).2 _ rfl).2.2
    some (fun _ => none) (js "aevia.network") none).1⟩

end Gate

end Aevia.SignInGate
