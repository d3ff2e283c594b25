import Aevia.Auth.Did
import Aevia.Foundation.JsJson

/-!
# Sessions

Who a request comes from is read from two cookies, or from one token in a header. An
identity token names the accounts of its user; for an access token they are fetched. The
session has the address of the first account that is a wallet on an Ethereum chain.
-/

set_option autoImplicit false

namespace Aevia.Auth
open Aevia.Bytes Aevia.JsNumber Aevia.Whip

section Accounts

/-- A property of a value of a document. Nothing can be read of `null`. -/
def property (account : Json) (name : Bytes) : Except Unit (Option Json) :=
  match account with
  | .null => .error ()
  | .obj fields => .ok (Json.member fields name)
  | _ => .ok none

def truthy : Json → Bool
  | .null => false
  | .bool b => b
  | .num literal => toDouble (literalValue literal) != some 0
  | .str text => text != []
  | _ => true

def isText (text : Bytes) : Option Json → Bool
  | some (.str t) => t == text
  | _ => false

/-- `toLowerCase()`, which strings alone have. -/
def lowerText : Json → Except Unit Bytes
  | .str text => .ok (toLower text)
  | _ => .error ()

def isWallet (type : Option Json) : Bool :=
  isText (ascii "wallet") type || isText (ascii "smart_wallet") type

def isEthereum (chain : Option Json) : Bool := chain.isNone || isText (ascii "ethereum") chain

def pickEthereumAddress : List Json → Except Unit (Option Bytes)
  | [] => .ok none
  | account::accounts => do
    let type ← property account (ascii "type")
    let chain ← property account (ascii "chain_type")
    let address ← property account (ascii "address")
    match address.filter truthy with
    | none => pickEthereumAddress accounts
    | some address =>
      if isWallet type && isEthereum chain then (lowerText address).map some
      else pickEthereumAddress accounts

def shortAddress (address : Bytes) : Bytes :=
  if isAddress address then address.take 6++[0xE2, 0x80, 0xA6]++address.drop (address.length-4)
  else address

def accountName (account : Json) : Except Unit (Option Json) := do
  let type ← property account (ascii "type")
  let address ← property account (ascii "address")
  let name ← property account (ascii "name")
  let email ← property account (ascii "email")
  if isText (ascii "email") type then .ok (address.filter truthy)
  else if isText (ascii "google_oauth") type then .ok ((name.filter truthy).or (email.filter truthy))
  else if isText (ascii "apple_oauth") type then .ok (email.filter truthy)
  else .ok none

def pickDisplayName (address : Bytes) : List Json → Except Unit Json
  | [] => .ok (.str (shortAddress address))
  | account::accounts => do
    match ← accountName account with
    | some name => .ok name
    | none => pickDisplayName address accounts

inductive LoginMethod where
  | email
  | google
  | apple
  | passkey
  | wallet
  | unknown
  deriving DecidableEq

def detectLoginMethod (accounts : List Json) : Except Unit LoginMethod := do
  let types ← accounts.mapM (property · (ascii "type"))
  let has (type : String) : Bool := types.any (isText (ascii type))
  .ok <| if has "email" then .email
    else if has "google_oauth" then .google
    else if has "apple_oauth" then .apple
    else if has "passkey" then .passkey
    else if has "wallet" || has "smart_wallet" then .wallet
    else .unknown

end Accounts

section Users

structure User where
  id : Option Bytes
  linkedAccounts : List Json

structure AeviaSession where
  userId : Option Bytes
  address : Bytes
  did : Bytes
  displayName : Json
  loginMethod : LoginMethod
  expiresAt : ℚ

/-- The claims of a token that `jwtVerify` has let through. -/
structure PrivyPayload where
  sub : Option Bytes
  exp : Option ℚ
  linkedAccounts : Option Bytes

/-- What surrounds the functions: the settings, the check of a token for an application, and
the accounts that the service answers for a user. -/
structure Deployment where
  bypass : Bool
  appId : Option Bytes
  appSecret : Option Bytes
  production : Bool
  verifyPrivyJwt : (token appId : Bytes) → Option PrivyPayload
  users : (userId : Bytes) → Option User

def appChainId (production : Bool) : ℕ := if production then 8453 else 84532

def given (setting : Option Bytes) : Option Bytes := setting.filter (· != [])

def parseLinkedAccounts (payload : PrivyPayload) : List Json :=
  match (given payload.linkedAccounts).bind Json.jsParse with
  | some (.arr accounts) => accounts
  | _ => []

variable (d : Deployment)

def fetchPrivyUser (userId : Bytes) : Option User := do
  let _ ← given d.appId
  let _ ← given d.appSecret
  d.users userId

def userToSession (user : User) (expiresAt : ℚ) : Except Unit (Option AeviaSession) := do
  match ← pickEthereumAddress user.linkedAccounts with
  | none => .ok none
  | some address =>
    let did ← (addressToDid address (appChainId d.production)).mapError fun _ => ()
    let displayName ← pickDisplayName address user.linkedAccounts
    let loginMethod ← detectLoginMethod user.linkedAccounts
    .ok (some ⟨user.id,address,did,displayName,loginMethod,expiresAt⟩)

def caught (x : Except Unit (Option AeviaSession)) : Option AeviaSession := x.toOption.join

def PrivyPayload.user (payload : PrivyPayload) : User := ⟨payload.sub,parseLinkedAccounts payload⟩

def accountsSession (payload : PrivyPayload) : Except Unit (Option AeviaSession) :=
  if (parseLinkedAccounts payload).isEmpty then .ok none
  else userToSession d payload.user (payload.exp.getD 0)

def fetchedSession (payload : PrivyPayload) : Except Unit (Option AeviaSession) :=
  match given payload.sub with
  | none => .ok none
  | some sub => match fetchPrivyUser d sub with
    | none => .error ()
    | some user => userToSession d user (payload.exp.getD 0)

def identityTokenSession (appId token : Bytes) : Option AeviaSession :=
  (d.verifyPrivyJwt token appId).bind fun payload => caught (accountsSession d payload)

def accessTokenSession (appId token : Bytes) : Option AeviaSession :=
  (d.verifyPrivyJwt token appId).bind fun payload => caught (fetchedSession d payload)

def identityCookieNames : List Bytes := [ascii "privy-id-token", ascii "__Host-privy-id-token"]
def accessCookieNames : List Bytes := [ascii "privy-token", ascii "__Host-privy-token"]

def readCookieValue (names : List Bytes) (cookies : Bytes → Option Bytes) : Option Bytes :=
  names.findSome? fun name => given (cookies name)

def devBypassAddress : Bytes := ascii "0x000000000000000000000000000000000000dEaD"

/-- Nothing is thrown: the address is one. -/
def devBypassSession : Option AeviaSession :=
  match addressToDid devBypassAddress (appChainId d.production) with
  | .error _ => none
  | .ok did => some ⟨some (ascii "dev-bypass"),devBypassAddress,did,.str (ascii "dev"),.unknown,0⟩

def readAeviaSession (cookies : Bytes → Option Bytes) : Option AeviaSession :=
  if d.bypass then devBypassSession d
  else (given d.appId).bind fun appId =>
    ((readCookieValue identityCookieNames cookies).bind (identityTokenSession d appId)).or
      ((readCookieValue accessCookieNames cookies).bind (accessTokenSession d appId))

/-- Both ways in one `try`. -/
def bearerSession (payload : PrivyPayload) : Except Unit (Option AeviaSession) := do
  match ← accountsSession d payload with
  | some session => .ok (some session)
  | none => fetchedSession d payload

def verifyBearerToken (token : Bytes) : Option AeviaSession :=
  (given d.appId).bind fun appId =>
    (d.verifyPrivyJwt token appId).bind fun payload => caught (bearerSession d payload)

end Users

section Vouched
variable (d : Deployment)

/-- The address of the session is the first wallet among the accounts of the user, and its DID
is made of it. -/
structure SessionOf (user : User) (session : AeviaSession) : Prop where
  userId : session.userId = user.id
  address : pickEthereumAddress user.linkedAccounts = .ok (some session.address)
  did : addressToDid session.address (appChainId d.production) = .ok session.did
  displayName : pickDisplayName session.address user.linkedAccounts = .ok session.displayName
  loginMethod : detectLoginMethod user.linkedAccounts = .ok session.loginMethod

theorem userToSession_ok (user : User) (expiresAt : ℚ) (session : AeviaSession) :
    userToSession d user expiresAt = .ok (some session) ↔
      SessionOf d user session ∧ session.expiresAt = expiresAt := by
  unfold userToSession
  constructor
  · intro h
    simp only [Fallible.bind_ok] at h
    obtain ⟨picked, hpicked, h⟩ := h
    cases picked with
    | none => cases h
    | some address =>
      simp only [Fallible.bind_ok, Except.ok.injEq, Option.some.injEq] at h
      obtain ⟨did, hdid, name, hname, login, hlogin, rfl⟩ := h
      have hdid : addressToDid address (appChainId d.production) = .ok did := by
        cases hmade : addressToDid address (appChainId d.production) with
        | error e =>
          rw [hmade] at hdid
          cases hdid
        | ok made =>
          rw [hmade] at hdid
          rw [show made = did from Except.ok.inj hdid]
      exact ⟨⟨rfl,hpicked,hdid,hname,hlogin⟩,rfl⟩
  · rintro ⟨h, hexpires⟩
    obtain ⟨userId, address, did, name, login, exp⟩ := session
    obtain ⟨rfl, haddress, hdid, hname, hlogin⟩ := h
    obtain rfl : exp = expiresAt := hexpires
    dsimp only at haddress hdid hname hlogin
    simp only [haddress, hdid, hname, hlogin, bind, Except.bind, Except.mapError]

theorem caught_some (x : Except Unit (Option AeviaSession)) (session : AeviaSession) :
    caught x = some session ↔ x = .ok (some session) := by
  cases x with
  | error e => simp [caught, Except.toOption]
  | ok y => simp [caught, Except.toOption]

theorem pickEthereumAddress_lower (accounts : List Json) (address : Bytes)
    (h : pickEthereumAddress accounts = .ok (some address)) : toLower address = address := by
  induction accounts with
  | nil => cases h
  | cons account accounts ih =>
    simp only [pickEthereumAddress, Fallible.bind_ok] at h
    obtain ⟨type, -, chain, -, found, -, h⟩ := h
    cases hfound : found.filter truthy with
    | none =>
      rw [hfound] at h
      exact ih h
    | some value =>
      rw [hfound] at h
      dsimp only at h
      by_cases hpicked : isWallet type && isEthereum chain
      · rw [if_pos hpicked, Fallible.map_ok] at h
        obtain ⟨lower, hlower, hsome⟩ := h
        cases hsome
        cases value with
        | str text =>
          cases hlower
          exact toLower_idem text
        | _ => cases hlower
      · rw [if_neg hpicked] at h
        exact ih h

/-- A token of the application from which the session is made: of the accounts that it names
itself, or of those that the service has of its user. -/
def Vouched (token : Bytes) (session : AeviaSession) : Prop :=
  ∃ appId payload user, given d.appId = some appId ∧ d.verifyPrivyJwt token appId = some payload ∧
    (user = payload.user ∨ ∃ sub, given payload.sub = some sub ∧ fetchPrivyUser d sub = some user) ∧
    SessionOf d user session

theorem accountsSession_ok (payload : PrivyPayload) (session : AeviaSession)
    (h : accountsSession d payload = .ok (some session)) : SessionOf d payload.user session := by
  unfold accountsSession at h
  by_cases hempty : (parseLinkedAccounts payload).isEmpty
  · rw [if_pos hempty] at h
    cases h
  · rw [if_neg hempty] at h
    exact ((userToSession_ok d _ _ _).mp h).1

theorem fetchedSession_ok (payload : PrivyPayload) (session : AeviaSession)
    (h : fetchedSession d payload = .ok (some session)) :
    ∃ sub user, given payload.sub = some sub ∧ fetchPrivyUser d sub = some user ∧
      SessionOf d user session := by
  unfold fetchedSession at h
  cases hsub : given payload.sub with
  | none =>
    rw [hsub] at h
    cases h
  | some sub =>
    rw [hsub] at h
    dsimp only at h
    cases huser : fetchPrivyUser d sub with
    | none =>
      rw [huser] at h
      cases h
    | some user =>
      rw [huser] at h
      exact ⟨sub,user,rfl,huser,((userToSession_ok d _ _ _).mp h).1⟩

theorem readCookieValue_some (names : List Bytes) (cookies : Bytes → Option Bytes) (token : Bytes)
    (h : readCookieValue names cookies = some token) :
    ∃ name ∈ names, cookies name = some token ∧ token ≠ [] := by
  obtain ⟨name, hname, hgiven⟩ := List.exists_of_findSome?_eq_some h
  obtain ⟨hcookie, hne⟩ := Option.filter_eq_some_iff.mp hgiven
  exact ⟨name,hname,hcookie,by simpa using hne⟩

theorem sessionOf_did (user : User) (session : AeviaSession) (h : SessionOf d user session) :
    toLower session.address = session.address ∧ isAddress session.address = true ∧
      didToAddress session.did = some session.address ∧
      addressFromDID session.did = .ok session.address := by
  have hlower := pickEthereumAddress_lower _ _ h.address
  obtain ⟨haddress, -, hread⟩ := addressToDid_read _ _ _ h.did
  rw [hlower] at hread
  exact ⟨hlower,haddress,hread,didToAddress_node _ _ hread⟩

/-- A session that is read of cookies is one of a user that a cookie vouches for, and both the
browser and the node read its address in its DID. -/
theorem readAeviaSession_vouched (cookies : Bytes → Option Bytes) (session : AeviaSession)
    (hbypass : d.bypass = false) (h : readAeviaSession d cookies = some session) :
    (∃ name ∈ identityCookieNames++accessCookieNames, ∃ token, cookies name = some token ∧
      Vouched d token session) ∧
    toLower session.address = session.address ∧ isAddress session.address = true ∧
      didToAddress session.did = some session.address ∧
      addressFromDID session.did = .ok session.address := by
  have hvouched : ∃ name ∈ identityCookieNames++accessCookieNames, ∃ token, cookies name = some token ∧
      Vouched d token session := by
    rw [readAeviaSession, if_neg (by simp [hbypass]), Option.bind_eq_some_iff] at h
    obtain ⟨appId, happ, h⟩ := h
    rcases Option.or_eq_some_iff.mp h with hidentity | ⟨-, haccess⟩
    · obtain ⟨token, htoken, hread⟩ := Option.bind_eq_some_iff.mp hidentity
      obtain ⟨name, hname, hcookie, -⟩ := readCookieValue_some _ _ _ htoken
      obtain ⟨payload, hverify, hcaught⟩ := Option.bind_eq_some_iff.mp hread
      have hsession := accountsSession_ok d payload session ((caught_some _ _).mp hcaught)
      exact ⟨name,List.mem_append_left _ hname,token,hcookie,appId,payload,payload.user,happ,hverify,
        .inl rfl,hsession⟩
    · obtain ⟨token, htoken, hread⟩ := Option.bind_eq_some_iff.mp haccess
      obtain ⟨name, hname, hcookie, -⟩ := readCookieValue_some _ _ _ htoken
      obtain ⟨payload, hverify, hcaught⟩ := Option.bind_eq_some_iff.mp hread
      obtain ⟨sub, user, hsub, huser, hsession⟩ :=
        fetchedSession_ok d payload session ((caught_some _ _).mp hcaught)
      exact ⟨name,List.mem_append_right _ hname,token,hcookie,appId,payload,user,happ,hverify,
        .inr ⟨sub,hsub,huser⟩,hsession⟩
  refine ⟨hvouched, ?_⟩
  obtain ⟨-, -, -, -, -, -, user, -, -, -, hsession⟩ := hvouched
  exact sessionOf_did d user session hsession

end Vouched

section Bearer
variable (d : Deployment)

def bothCookies (token : Bytes) (name : Bytes) : Option Bytes :=
  if name = ascii "privy-id-token" ∨ name = ascii "privy-token" then some token else none

theorem readCookieValue_both (token : Bytes) (hne : token ≠ []) :
    readCookieValue identityCookieNames (bothCookies token) = some token ∧
      readCookieValue accessCookieNames (bothCookies token) = some token := by
  have hgiven : given (some token) = some token := by
    rw [given, Option.filter_some, if_pos (by simpa using hne)]
  constructor
  · simp [readCookieValue, identityCookieNames, bothCookies, hgiven]
  · simp [readCookieValue, accessCookieNames, bothCookies, hgiven]

/-- What the token carries of accounts cannot be read, but those that the service has of its
user make a session. -/
def OnlyFetched (token : Bytes) (session : AeviaSession) : Prop :=
  ∃ appId payload, given d.appId = some appId ∧ d.verifyPrivyJwt token appId = some payload ∧
    accountsSession d payload = .error () ∧ fetchedSession d payload = .ok (some session)

theorem bearerSession_caught (payload : PrivyPayload) (session : AeviaSession) :
    caught (bearerSession d payload) = some session ↔
      (caught (accountsSession d payload)).or (caught (fetchedSession d payload)) = some session ∧
        ¬(accountsSession d payload = .error () ∧ fetchedSession d payload = .ok (some session)) := by
  unfold bearerSession
  cases haccounts : accountsSession d payload with
  | error e =>
    simp only [caught, bind, Except.bind, Except.toOption, Option.join_none, reduceCtorEq, Option.none_or,
      true_and, false_iff, not_and, not_not]
    exact (caught_some _ _).mp
  | ok carried =>
    cases carried with
    | none => simp [caught, bind, Except.bind, Except.toOption]
    | some carried => simp [caught, bind, Except.bind, Except.toOption]

/-- A token in a header signs in whom it signs in from the cookies of a browser, unless its
own accounts cannot be read: then a browser falls back on those that the service has, and
the header does not. -/
theorem verifyBearerToken_exact (token : Bytes) (session : AeviaSession) (hne : token ≠ [])
    (hbypass : d.bypass = false) :
    verifyBearerToken d token = some session ↔
      readAeviaSession d (bothCookies token) = some session ∧ ¬OnlyFetched d token session := by
  obtain ⟨hidentity, haccess⟩ := readCookieValue_both token hne
  rw [verifyBearerToken, readAeviaSession, if_neg (by simp [hbypass]), hidentity, haccess]
  unfold OnlyFetched
  cases given d.appId with
  | none => simp
  | some appId =>
    simp only [Option.bind_some, identityTokenSession, accessTokenSession, Option.some.injEq]
    cases hverify : d.verifyPrivyJwt token appId with
    | none => simp
    | some payload =>
      rw [Option.bind_some, Option.bind_some, Option.bind_some, bearerSession_caught]
      apply and_congr_right
      intro _
      constructor
      · rintro hnot ⟨_, _, rfl, hsome, hthrown, hfetched⟩
        obtain rfl := Option.some.inj (hverify.symm.trans hsome)
        exact hnot ⟨hthrown,hfetched⟩
      · rintro hnot ⟨hthrown, hfetched⟩
        exact hnot ⟨appId,payload,rfl,hverify,hthrown,hfetched⟩

section Samples

def sampleAccount : Json := .obj [(ascii "type", .str (ascii "wallet")), (ascii "address", .str sampleAddress)]

def sampleDeployment : Deployment where
  bypass := false
  appId := some (ascii "app")
  appSecret := some (ascii "secret")
  production := false
  verifyPrivyJwt token _ :=
    if token = ascii "t" then some ⟨some (ascii "u"),some 9,some (ascii "[null]")⟩ else none
  users _ := some ⟨some (ascii "u"),[sampleAccount]⟩

def sampleSession : AeviaSession where
  userId := some (ascii "u")
  address := toLower sampleAddress
  did := sampleDid
  displayName := .str (shortAddress (toLower sampleAddress))
  loginMethod := .wallet
  expiresAt := 9

theorem sampleDid_made : addressToDid (toLower sampleAddress) 84532 = .ok sampleDid := by decide +kernel

theorem sample_fetched :
    fetchedSession sampleDeployment ⟨some (ascii "u"),some 9,some (ascii "[null]")⟩ =
      .ok (some sampleSession) :=
  (userToSession_ok sampleDeployment _ _ _).mpr ⟨⟨rfl,rfl,sampleDid_made,rfl,rfl⟩,rfl⟩

theorem sample_thrown :
    accountsSession sampleDeployment ⟨some (ascii "u"),some 9,some (ascii "[null]")⟩ = .error () := by
  have hparse : Json.jsParse (ascii "[null]") = some (.arr [.null]) := by
    rw [show ascii "[null]" = Json.print (.arr [.null]) by decide,
      Json.jsParse_print _ (by simp [Json.Printable, Json.PrintableItems])]
    simp [Json.sanitized, Json.sanitizedItems, Json.width, Json.widthItems]
  have haccounts : parseLinkedAccounts ⟨some (ascii "u"),some 9,some (ascii "[null]")⟩ = [.null] := by
    rw [parseLinkedAccounts, show given (some (ascii "[null]")) = some (ascii "[null]") from rfl,
      Option.bind_some, hparse]
  rw [accountsSession, userToSession, PrivyPayload.user, haccounts]
  rfl

theorem sample_read : readAeviaSession sampleDeployment (bothCookies (ascii "t")) = some sampleSession := by
  obtain ⟨hidentity, haccess⟩ := readCookieValue_both (ascii "t") (by decide)
  have hverify : sampleDeployment.verifyPrivyJwt (ascii "t") (ascii "app") =
      some ⟨some (ascii "u"),some 9,some (ascii "[null]")⟩ := rfl
  have happ : given sampleDeployment.appId = some (ascii "app") := rfl
  rw [readAeviaSession, if_neg (by decide), hidentity, haccess, happ]
  simp only [Option.bind_some, identityTokenSession, accessTokenSession, hverify, sample_fetched,
    sample_thrown]
  rfl

theorem readAeviaSession_vouched_sample :
    didToAddress sampleDid = some (toLower sampleAddress) ∧
      addressFromDID sampleDid = .ok (toLower sampleAddress) :=
  (readAeviaSession_vouched sampleDeployment (bothCookies (ascii "t")) sampleSession rfl
    sample_read).2.2.2

theorem verifyBearerToken_exact_sample :
    verifyBearerToken sampleDeployment (ascii "t") ≠ some sampleSession := by
  rw [ne_eq, verifyBearerToken_exact sampleDeployment _ _ (by decide) rfl]
  rintro ⟨-, hnot⟩
  exact hnot ⟨_,_,rfl,rfl,sample_thrown,sample_fetched⟩

end Samples

end Bearer

end Aevia.Auth
