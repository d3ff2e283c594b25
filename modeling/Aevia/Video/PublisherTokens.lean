import Aevia.Foundation.JsText
import Aevia.Foundation.Run
import Aevia.Video.RegistrationRequests

/-!
# Publisher tokens

A caster without the cookies of a browser publishes with a token that the studio has minted
for one live input. The token is a signed set of claims; who may have it is decided when it
is minted, and the proxy in front of the stream service asks for nothing else.
-/

set_option autoImplicit false

namespace Aevia.PublisherTokens
open Aevia.Bytes Aevia.Lives Aevia.Run
open Aevia.JsText (Text textEncode)

section Claims

def issuer : Bytes := ascii "aevia-video"
def audience : Bytes := ascii "aevia-whip"
def rolePublisher : Bytes := ascii "publisher"
def defaultTtlSeconds : ℕ := 30*60

/-- The claims of a token; one of another type is as good as absent. An audience is a text
or a list of them. -/
structure Claims where
  liveId : Option Bytes
  role : Option Bytes
  iss : Option Bytes
  aud : List Bytes
  iat : Option ℚ
  exp : Option ℚ
  nbf : Option ℚ
  jti : Option Bytes

/-- `SignJWT`, and what `jwtVerify` reads in a token whose signature is right and whose
times are numbers. -/
structure Jose where
  sign : (key : Bytes) → Claims → Bytes
  verified : (key token : Bytes) → Option Claims

/-- The secret has to be set, and long enough in code units. -/
def signingKey (secret : Option Text) : Option Bytes := (secret.filter (32 ≤ ·.length)).map textEncode

def publisherClaims (liveId jti : Bytes) (now exp : ℕ) : Claims where
  liveId := some liveId
  role := some rolePublisher
  iss := some issuer
  aud := [audience]
  iat := some now
  exp := some exp
  nbf := none
  jti := some jti

variable (jose : Jose) (secret : Option Text)

structure Mint where
  token : Bytes
  expiresAt : ℕ
  jti : Bytes

def mintPublisherToken (liveId jti : Bytes) (now : ℕ) : Option Mint :=
  (signingKey secret).map fun key =>
    let exp := now+defaultTtlSeconds
    ⟨jose.sign key (publisherClaims liveId jti now exp),exp,jti⟩

/-- The claims that `jwtVerify` checks itself. -/
def Claims.current (c : Claims) (now : ℕ) : Bool :=
  c.iss = some issuer && c.aud.contains audience && c.nbf.all (· ≤ (now : ℚ)) && c.exp.all ((now : ℚ) < ·)

structure PublisherTokenClaims where
  liveId : Bytes
  iat : ℚ
  exp : ℚ
  jti : Bytes

def Claims.publisher (c : Claims) : Option PublisherTokenClaims := do
  let liveId ← c.liveId
  let iat ← c.iat
  let exp ← c.exp
  let jti ← c.jti
  if c.role = some rolePublisher then some ⟨liveId,iat,exp,jti⟩ else none

def verifyPublisherToken (token : Bytes) (now : ℕ) : Option PublisherTokenClaims := do
  let key ← signingKey secret
  let claims ← jose.verified key token
  if claims.current now then claims.publisher else none

end Claims

section Bearer

/-- `\s` among the characters of a header. -/
def isBlank (c : UInt8) : Bool := 9 ≤ c && c ≤ 13 || c == 32 || c == 160

/-- What ends a line, for `.`. -/
def isLineEnd (c : UInt8) : Bool := c == 10 || c == 13

/-- The group of `/^Bearer\s+(.+)$/i`. The blanks take all they can; where nothing follows
them the last one is left to the group. -/
def bearer (header : Bytes) : Option Bytes :=
  if toLowerCase (header.take 6) ≠ ascii "bearer" then none
  else
    let blanks := (header.drop 6).takeWhile isBlank
    let token := (header.drop 6).dropWhile isBlank
    if blanks = [] then none
    else if token ≠ [] then if token.any isLineEnd then none else some token
    else if 2 ≤ blanks.length then (blanks.getLast?.filter (!isLineEnd ·)).map ([·]) else none

theorem bearer_token (token : Bytes) (hne : token ≠ [])
    (hplain : ∀ c ∈ token, isBlank c = false) : bearer (ascii "Bearer "++token) = some token := by
  have hlower : toLowerCase ((ascii "Bearer "++token).take 6) = ascii "bearer" := by
    rw [List.take_append_of_le_length (by decide)]
    decide
  have hrest : (ascii "Bearer "++token).drop 6 = 32::token := by
    rw [List.drop_append_of_le_length (by decide)]
    rfl
  obtain ⟨c, cs, rfl⟩ := List.exists_cons_of_ne_nil hne
  have hc : isBlank c = false := hplain c List.mem_cons_self
  have hlines : (c::cs).any isLineEnd = false := by
    rw [List.any_eq_false]
    intro d hd hend
    have hblank := hplain d hd
    simp only [isLineEnd, Bool.or_eq_true, beq_iff_eq] at hend
    rcases hend with rfl | rfl <;> cases hblank
  have hspace : isBlank 32 = true := rfl
  rw [bearer, if_neg (not_not.mpr hlower), hrest, List.takeWhile_cons_of_pos hspace,
    List.takeWhile_cons_of_neg (by rw [hc]; nofun), List.dropWhile_cons_of_pos hspace,
    List.dropWhile_cons_of_neg (by rw [hc]; nofun)]
  simp [hlines]

end Bearer

section Routes
variable (jose : Jose) (secret : Option Text)

structure StreamLive where
  input : LiveInput
  webRtcUrl : Option Bytes

/-- A session that owns the live input of its request, as the service has answered. -/
structure Grant where
  session : Bytes
  id : Bytes
  live : StreamLive
  since : ℕ
  owner : owned live.input session = true

def liveNotFound : Response := failure 404 (ascii "live not found") []

/-- What the token route asks for before it mints. -/
def resolveGrant (lives : Bytes → Option StreamLive) (session : Option Bytes) (id : Bytes)
    (now : ℕ) : Except Response Grant :=
  match session with
  | none => .error unauthorized
  | some address => match lives id with
    | none => .error liveNotFound
    | some live =>
      if h : owned live.input address = true then .ok ⟨address,id,live,now,h⟩
      else .error forbidden

structure TokenAnswer where
  mint : Mint
  ingestUrl : Bytes
  liveId : Bytes
  liveName : Option Bytes

def TokenAnswer.response (a : TokenAnswer) : Response where
  status := 200
  body := [(ascii "token", .str a.mint.token), (ascii "jti", .str a.mint.jti),
    (ascii "expiresAt", .num (decimal a.mint.expiresAt)), (ascii "ingestUrl", .str a.ingestUrl),
    (ascii "liveId", .str a.liveId), (ascii "liveName", a.liveName.elim .null .str)]

/-- `replace(/\/+$/, '')`. -/
def trimSlashes (url : Bytes) : Bytes := (url.reverse.dropWhile (· == 47)).reverse

def answerToken (appUrl : Bytes) (g : Grant) (jti : Bytes) (now : ℕ) :
    Except Response TokenAnswer :=
  match mintPublisherToken jose secret g.id jti now with
  | none =>
    .error (failure 503 (ascii "publisher tokens not configured on this deployment") [])
  | some mint => .ok {
      mint := mint
      ingestUrl := trimSlashes appUrl++ascii "/api/lives/"++g.id++ascii "/whip"
      liveId := g.id
      liveName := g.live.input.metaOf (ascii "name") }

def unauthorizedFor (reason : Bytes) : Response :=
  failure 401 (ascii "unauthorized") [(ascii "reason", .str reason)]

def authorise (authorization : Option Bytes) (expectedLiveId : Bytes) (now : ℕ) :
    Except Response PublisherTokenClaims :=
  match bearer (authorization.getD []) with
  | none => .error (unauthorizedFor (ascii "missing bearer token"))
  | some token => match verifyPublisherToken jose secret token now with
    | none => .error (unauthorizedFor (ascii "invalid or expired token"))
    | some claims =>
      if claims.liveId ≠ expectedLiveId then
        .error (unauthorizedFor (ascii "token scope mismatch"))
      else .ok claims

structure WhipRequest where
  authorization : Option Bytes
  contentType : Option Bytes
  sdp : Bytes

structure Clearance where
  id : Bytes
  request : WhipRequest
  since : ℕ

/-- What is posted to the stream service; its answer is passed on. -/
structure Upstream where
  url : Bytes
  contentType : Bytes
  body : Bytes

def forward (lives : Bytes → Option StreamLive) (c : Clearance) : Except Response Upstream :=
  match lives c.id with
  | none => .error liveNotFound
  | some live => match live.webRtcUrl.filter (· ≠ []) with
    | none => .error (failure 502 (ascii "live has no WHIP endpoint") [])
    | some url => .ok ⟨url,c.request.contentType.getD (ascii "application/sdp"),c.request.sdp⟩

end Routes

section Minted
variable (jose : Jose) (secret : Option Text)

/-- What the library promises of the tokens that the studio mints: under the same key they
are read as they were signed, and their text has no blanks. -/
structure Jose.Compact (jose : Jose) (key : Bytes) : Prop where
  verified : ∀ liveId jti now exp, jose.verified key (jose.sign key (publisherClaims liveId jti now exp)) =
    some (publisherClaims liveId jti now exp)
  nonempty : ∀ c, jose.sign key c ≠ []
  plain : ∀ c, ∀ b ∈ jose.sign key c, isBlank b = false

theorem current_publisherClaims (liveId jti : Bytes) (at_ exp now : ℕ) :
    (publisherClaims liveId jti at_ exp).current now = decide (now < exp) := by
  simp [Claims.current, publisherClaims]

theorem publisher_publisherClaims (liveId jti : Bytes) (at_ exp : ℕ) :
    (publisherClaims liveId jti at_ exp).publisher = some ⟨liveId,at_,exp,jti⟩ := rfl

theorem verifyPublisherToken_read (key token liveId jti : Bytes) (at_ exp now : ℕ)
    (hkey : signingKey secret = some key)
    (hread : jose.verified key token = some (publisherClaims liveId jti at_ exp)) :
    verifyPublisherToken jose secret token now =
      if now < exp then some ⟨liveId,at_,exp,jti⟩ else none := by
  simp only [verifyPublisherToken, hkey, hread, Option.bind_eq_bind, Option.bind_some,
    current_publisherClaims, publisher_publisherClaims, decide_eq_true_eq]

theorem minted_authorises (key liveId jti : Bytes) (at_ : ℕ) (m : Mint)
    (hkey : signingKey secret = some key) (hjose : jose.Compact key)
    (hmint : mintPublisherToken jose secret liveId jti at_ = some m) (id : Bytes) (now : ℕ) :
    authorise jose secret (some (ascii "Bearer "++m.token)) id now =
      if now < at_+defaultTtlSeconds then
        if id = liveId then .ok ⟨liveId,at_,at_+defaultTtlSeconds,jti⟩
        else .error (unauthorizedFor (ascii "token scope mismatch"))
      else .error (unauthorizedFor (ascii "invalid or expired token")) := by
  have hm : m = ⟨jose.sign key (publisherClaims liveId jti at_ (at_+defaultTtlSeconds)),
      at_+defaultTtlSeconds,jti⟩ := by
    rw [mintPublisherToken, hkey, Option.map_some, Option.some.injEq] at hmint
    exact hmint.symm
  have hbearer : bearer (ascii "Bearer "++m.token) = some m.token := by
    rw [hm]
    exact bearer_token _ (hjose.nonempty _) (hjose.plain _)
  have hverify := verifyPublisherToken_read jose secret key m.token liveId jti at_
    (at_+defaultTtlSeconds) now hkey (by rw [hm]; exact hjose.verified _ _ _ _)
  rw [authorise, Option.getD_some, hbearer]
  dsimp only
  rw [hverify]
  by_cases hnow : now < at_+defaultTtlSeconds
  · rw [if_pos hnow, if_pos hnow]
    by_cases hid : id = liveId
    · simp [hid]
    · simp [hid, Ne.symm hid]
  · rw [if_neg hnow, if_neg hnow]

theorem answerToken_ok (appUrl : Bytes) (g : Grant) (jti : Bytes) (now : ℕ) (a : TokenAnswer) :
    answerToken jose secret appUrl g jti now = .ok a ↔
      mintPublisherToken jose secret g.id jti now = some a.mint ∧ a.liveId = g.id ∧
      a.ingestUrl = trimSlashes appUrl++ascii "/api/lives/"++g.id++ascii "/whip" ∧
      a.liveName = g.live.input.metaOf (ascii "name") := by
  unfold answerToken
  cases hmint : mintPublisherToken jose secret g.id jti now with
  | none => simp
  | some m =>
    obtain ⟨mint, url, id, name⟩ := a
    simp only [Except.ok.injEq, TokenAnswer.mk.injEq, Option.some.injEq]
    constructor
    · rintro ⟨hm, hurl, hid, hname⟩
      exact ⟨hm,hid.symm,hurl.symm,hname.symm⟩
    · rintro ⟨hm, hid, hurl, hname⟩
      exact ⟨hm,hurl.symm,hid.symm,hname.symm⟩

/-- The token that a session is given opens the live input that it was asked for, and
nothing else, until it expires. No token is given if and only if the secret is missing or
too short. -/
theorem answerToken_opens (appUrl : Bytes)
    (hjose : ∀ key, signingKey secret = some key → jose.Compact key) (g : Grant) (jti : Bytes) (since : ℕ) :
    (answerToken jose secret appUrl g jti since =
        .error (failure 503 (ascii "publisher tokens not configured on this deployment") []) ↔
      ∀ text ∈ secret, text.length < 32) ∧
    ∀ a, answerToken jose secret appUrl g jti since = .ok a → ∀ id now,
      authorise jose secret (some (ascii "Bearer "++a.mint.token)) id now =
        if now < since+defaultTtlSeconds then
          if id = g.id then .ok ⟨g.id,since,since+defaultTtlSeconds,jti⟩
          else .error (unauthorizedFor (ascii "token scope mismatch"))
        else .error (unauthorizedFor (ascii "invalid or expired token")) := by
  constructor
  · rw [answerToken, mintPublisherToken]
    cases hkey : signingKey secret with
    | none =>
      simp only [signingKey, Option.map_eq_none_iff, Option.filter_eq_none_iff, decide_eq_true_eq,
        not_le] at hkey
      simpa using hkey
    | some key =>
      obtain ⟨text, htext, -⟩ := Option.map_eq_some_iff.mp hkey
      obtain ⟨hsecret, hlength⟩ := Option.filter_eq_some_iff.mp htext
      simp only [Option.map_some, hsecret, Option.mem_some_iff, forall_eq', reduceCtorEq, false_iff,
        not_lt]
      exact of_decide_eq_true hlength
  · intro a h
    cases hkey : signingKey secret with
    | none =>
      rw [answerToken, mintPublisherToken, hkey] at h
      cases h
    | some key =>
      obtain ⟨hmint, -⟩ := (answerToken_ok jose secret appUrl g jti since a).mp h
      exact minted_authorises jose secret key g.id jti since a.mint hkey (hjose key hkey) hmint

end Minted

section Steps
variable (jose : Jose) (secret : Option Text) (appUrl : Bytes)

structure Issue where
  grant : Grant
  answer : TokenAnswer
  since : ℕ

inductive Call where
  | minting (g : Grant)
  | posting (c : Clearance)
  | answered

structure Post where
  clearance : Clearance
  upstream : Upstream
  since : ℕ

structure Studio where
  now : ℕ
  lives : Bytes → Option StreamLive
  calls : List Call
  issues : List Issue
  posts : List Post

def Studio.start (lives : Bytes → Option StreamLive) : Studio := ⟨0,lives,[],[],[]⟩

/-- The stream service and the clock move as they like; a request arrives, and goes on when
its await is over. -/
inductive Event where
  | tick (seconds : ℕ)
  | service (lives : Bytes → Option StreamLive)
  | publisherToken (session : Option Bytes) (id : Bytes)
  | mint (call : ℕ) (jti : Bytes)
  | whip (id : Bytes) (request : WhipRequest)
  | post (call : ℕ)

def Studio.answer (s : Studio) (call : ℕ) : Studio := { s with calls := s.calls.set call .answered }

def Studio.issue (s : Studio) (g : Grant) (jti : Bytes) : Studio :=
  match answerToken jose secret appUrl g jti s.now with
  | .error _ => s
  | .ok a => { s with issues := s.issues++[⟨g,a,s.now⟩] }

def Studio.post (s : Studio) (c : Clearance) : Studio :=
  match forward s.lives c with
  | .error _ => s
  | .ok upstream => { s with posts := s.posts++[⟨c,upstream,s.now⟩] }

def Studio.next (s : Studio) : Event → Studio
  | .tick seconds => { s with now := s.now+seconds }
  | .service lives => { s with lives := lives }
  | .publisherToken session id => match resolveGrant s.lives session id s.now with
    | .error _ => s
    | .ok g => { s with calls := s.calls++[.minting g] }
  | .mint call jti => match s.calls[call]? with
    | some (.minting g) => (s.issue jose secret appUrl g jti).answer call
    | _ => s
  | .whip id request => match authorise jose secret request.authorization id s.now with
    | .error _ => s
    | .ok _ => { s with calls := s.calls++[.posting ⟨id,request,s.now⟩] }
  | .post call => match s.calls[call]? with
    | some (.posting c) => (s.post c).answer call
    | _ => s

/-- Nobody else has the key: a token that is right under it is one that was handed out. -/
def Unforged (s : Studio) : Event → Prop
  | .whip _ request => ∀ key token, signingKey secret = some key →
      bearer (request.authorization.getD []) = some token →
      (jose.verified key token).isSome → ∃ i ∈ s.issues, i.answer.mint.token = token
  | _ => True

/-- The request presents a token for its live input that is still good, handed out to a
session that owned the live input. -/
structure Issue.Covers (i : Issue) (c : Clearance) : Prop where
  presented : bearer (c.request.authorization.getD []) = some i.answer.mint.token
  liveId : i.grant.id = c.id
  resolved : i.grant.since ≤ i.since
  minted : i.since ≤ c.since
  unexpired : c.since < i.since+defaultTtlSeconds

def Covered (issues : List Issue) (c : Clearance) : Prop := ∃ i ∈ issues, i.Covers c

/-- What holds of the studio as long as nobody forges a token. -/
structure Sound (s : Studio) : Prop where
  grants : ∀ g, .minting g ∈ s.calls → g.since ≤ s.now
  issues : ∀ i ∈ s.issues, i.grant.since ≤ i.since ∧ i.since ≤ s.now ∧
    ∃ jti, answerToken jose secret appUrl i.grant jti i.since = .ok i.answer
  clearances : ∀ c, .posting c ∈ s.calls → Covered s.issues c ∧ c.since ≤ s.now
  posts : ∀ p ∈ s.posts, Covered s.issues p.clearance ∧ p.clearance.since ≤ p.since

theorem sound_start (lives : Bytes → Option StreamLive) :
    Sound jose secret appUrl (Studio.start lives) := by
  constructor <;> simp [Studio.start]

theorem covered_append (issues more : List Issue) (c : Clearance) (h : Covered issues c) :
    Covered (issues++more) c := by
  obtain ⟨i, hi, hcovers⟩ := h
  exact ⟨i,List.mem_append_left more hi,hcovers⟩

theorem authorise_ok (authorization : Option Bytes) (id : Bytes) (now : ℕ)
    (claims : PublisherTokenClaims) :
    authorise jose secret authorization id now = .ok claims ↔
      ∃ token, bearer (authorization.getD []) = some token ∧
        verifyPublisherToken jose secret token now = some claims ∧ claims.liveId = id := by
  unfold authorise
  cases bearer (authorization.getD []) with
  | none => simp
  | some token =>
    simp only [Option.some.injEq, exists_eq_left']
    cases verifyPublisherToken jose secret token now with
    | none => simp
    | some c =>
      simp only [Fallible.guard_ok, not_not, Except.ok.injEq, Option.some.injEq]
      constructor
      · rintro ⟨hid, rfl⟩
        exact ⟨rfl,hid⟩
      · rintro ⟨rfl, hid⟩
        exact ⟨hid,rfl⟩

theorem whip_covered (s : Studio) (id : Bytes) (request : WhipRequest)
    (claims : PublisherTokenClaims)
    (hjose : ∀ key, signingKey secret = some key → jose.Compact key)
    (hs : Sound jose secret appUrl s) (hunforged : Unforged jose secret s (.whip id request))
    (h : authorise jose secret request.authorization id s.now = .ok claims) :
    Covered s.issues ⟨id,request,s.now⟩ := by
  obtain ⟨token, hbearer, hverify, hid⟩ := (authorise_ok jose secret _ _ _ _).mp h
  cases hkey : signingKey secret with
  | none => simp [verifyPublisherToken, hkey] at hverify
  | some key =>
    cases hread : jose.verified key token with
    | none => simp [verifyPublisherToken, hkey, hread] at hverify
    | some c =>
      obtain ⟨i, hi, htoken⟩ := hunforged key token hkey hbearer (by rw [hread]; rfl)
      obtain ⟨hresolved, hminted, jti, hanswer⟩ := hs.issues i hi
      obtain ⟨hmint, -⟩ := (answerToken_ok jose secret appUrl _ _ _ _).mp hanswer
      rw [mintPublisherToken, hkey, Option.map_some, Option.some.injEq] at hmint
      -- what was signed for the grant is what the token says
      have hsigned : token =
          jose.sign key (publisherClaims i.grant.id jti i.since (i.since+defaultTtlSeconds)) := by
        rw [← htoken, ← hmint]
      have hclaims := verifyPublisherToken_read jose secret key token i.grant.id jti i.since
        (i.since+defaultTtlSeconds) s.now hkey (by rw [hsigned]; exact (hjose key hkey).verified _ _ _ _)
      by_cases hnow : s.now < i.since+defaultTtlSeconds
      · rw [hclaims, if_pos hnow, Option.some.injEq] at hverify
        refine ⟨i, hi, ?_, ?_, hresolved, hminted, hnow⟩
        · rw [htoken]
          exact hbearer
        · rw [← hid, ← hverify]
      · rw [hclaims, if_neg hnow] at hverify
        cases hverify

theorem Studio.mem_answer (s : Studio) (call : ℕ) (c : Call) (hne : c ≠ .answered)
    (hc : c ∈ (s.answer call).calls) : c ∈ s.calls := by
  rcases List.mem_or_eq_of_mem_set hc with hc | hc
  · exact hc
  · exact absurd hc hne

theorem sound_answer (s : Studio) (call : ℕ) (hs : Sound jose secret appUrl s) :
    Sound jose secret appUrl (s.answer call) where
  grants := fun g hg => hs.grants g (s.mem_answer call _ nofun hg)
  issues := hs.issues
  clearances := fun c hc => hs.clearances c (s.mem_answer call _ nofun hc)
  posts := hs.posts

theorem sound_call (s : Studio) (c : Call) (hs : Sound jose secret appUrl s)
    (hgrant : ∀ g, c = .minting g → g.since ≤ s.now)
    (hclearance : ∀ d, c = .posting d → Covered s.issues d ∧ d.since ≤ s.now) :
    Sound jose secret appUrl { s with calls := s.calls++[c] } where
  grants := by
    intro g hg
    rcases List.mem_append.mp hg with hg | hg
    · exact hs.grants g hg
    · exact hgrant g (List.mem_singleton.mp hg).symm
  issues := hs.issues
  clearances := by
    intro d hd
    rcases List.mem_append.mp hd with hd | hd
    · exact hs.clearances d hd
    · exact hclearance d (List.mem_singleton.mp hd).symm
  posts := hs.posts

theorem sound_issue (s : Studio) (g : Grant) (jti : Bytes) (hs : Sound jose secret appUrl s)
    (hg : g.since ≤ s.now) : Sound jose secret appUrl (s.issue jose secret appUrl g jti) := by
  unfold Studio.issue
  cases h : answerToken jose secret appUrl g jti s.now with
  | error => exact hs
  | ok a =>
    constructor
    · exact hs.grants
    · intro i hi
      rcases List.mem_append.mp hi with hi | hi
      · exact hs.issues i hi
      · obtain rfl := List.mem_singleton.mp hi
        exact ⟨hg,le_rfl,jti,h⟩
    · intro c hc
      obtain ⟨hcovered, hnow⟩ := hs.clearances c hc
      exact ⟨covered_append _ _ _ hcovered,hnow⟩
    · intro p hp
      obtain ⟨hcovered, hsince⟩ := hs.posts p hp
      exact ⟨covered_append _ _ _ hcovered,hsince⟩

theorem sound_post (s : Studio) (c : Clearance) (hs : Sound jose secret appUrl s)
    (hc : Covered s.issues c) (hnow : c.since ≤ s.now) : Sound jose secret appUrl (s.post c) := by
  unfold Studio.post
  cases forward s.lives c with
  | error => exact hs
  | ok upstream =>
    refine ⟨hs.grants, hs.issues, hs.clearances, ?_⟩
    intro p hp
    rcases List.mem_append.mp hp with hp | hp
    · exact hs.posts p hp
    · obtain rfl := List.mem_singleton.mp hp
      exact ⟨hc,hnow⟩

theorem resolveGrant_ok (lives : Bytes → Option StreamLive) (session : Option Bytes)
    (id : Bytes) (now : ℕ) (g : Grant) (h : resolveGrant lives session id now = .ok g) :
    session = some g.session ∧ id = g.id ∧ lives g.id = some g.live ∧ now = g.since := by
  unfold resolveGrant at h
  cases session with
  | none => cases h
  | some address =>
    dsimp only at h
    cases hlive : lives id with
    | none =>
      rw [hlive] at h
      cases h
    | some live =>
      rw [hlive] at h
      dsimp only at h
      by_cases howned : owned live.input address = true
      · rw [dif_pos howned, Except.ok.injEq] at h
        subst h
        exact ⟨rfl,rfl,hlive,rfl⟩
      · rw [dif_neg howned] at h
        cases h

theorem sound_next (hjose : ∀ key, signingKey secret = some key → jose.Compact key)
    (s : Studio) (e : Event) (hs : Sound jose secret appUrl s)
    (hunforged : Unforged jose secret s e) : Sound jose secret appUrl (s.next jose secret appUrl e) := by
  cases e with
  | tick seconds =>
    constructor
    · intro g hg
      exact (hs.grants g hg).trans (Nat.le_add_right _ _)
    · intro i hi
      obtain ⟨hresolved, hnow, hanswer⟩ := hs.issues i hi
      exact ⟨hresolved,hnow.trans (Nat.le_add_right _ _),hanswer⟩
    · intro c hc
      obtain ⟨hcovered, hnow⟩ := hs.clearances c hc
      exact ⟨hcovered,hnow.trans (Nat.le_add_right _ _)⟩
    · exact hs.posts
  | service lives => exact ⟨hs.grants,hs.issues,hs.clearances,hs.posts⟩
  | publisherToken session id =>
    show Sound jose secret appUrl (match resolveGrant s.lives session id s.now with
      | .error _ => s
      | .ok g => { s with calls := s.calls++[.minting g] })
    cases h : resolveGrant s.lives session id s.now with
    | error => exact hs
    | ok g =>
      obtain ⟨-, -, -, hnow⟩ := resolveGrant_ok _ _ _ _ _ h
      apply sound_call _ _ _ _ _ hs
      · rintro g' ⟨⟩
        exact hnow.ge
      · exact nofun
  | mint call jti =>
    show Sound jose secret appUrl (match s.calls[call]? with
      | some (.minting g) => (s.issue jose secret appUrl g jti).answer call
      | _ => s)
    split
    · next g hcall =>
      apply sound_answer
      apply sound_issue _ _ _ _ _ _ hs
      exact hs.grants g (List.mem_of_getElem? hcall)
    · exact hs
  | whip id request =>
    show Sound jose secret appUrl (match authorise jose secret request.authorization id s.now with
      | .error _ => s
      | .ok _ => { s with calls := s.calls++[.posting ⟨id,request,s.now⟩] })
    cases h : authorise jose secret request.authorization id s.now with
    | error => exact hs
    | ok claims =>
      apply sound_call _ _ _ _ _ hs
      · exact nofun
      · rintro c ⟨⟩
        exact ⟨whip_covered jose secret appUrl s id request claims hjose hs hunforged h,le_rfl⟩
  | post call =>
    show Sound jose secret appUrl (match s.calls[call]? with
      | some (.posting c) => (s.post c).answer call
      | _ => s)
    split
    · next c hcall =>
      obtain ⟨hcovered, hnow⟩ := hs.clearances c (List.mem_of_getElem? hcall)
      apply sound_answer
      exact sound_post jose secret appUrl s c hs hcovered hnow
    · exact hs

section History
variable (lives : Bytes → Option StreamLive) (events : List Event)

/-- The session asked for a token, and the service had its live input then. -/
def Asked (g : Grant) : Prop :=
  Happened (Studio.next jose secret appUrl) (Studio.start lives) events
    (.publisherToken (some g.session) g.id) (fun s => s.lives g.id = some g.live ∧ s.now = g.since)

def HandedOut (i : Issue) : Prop :=
  ∃ call jti, Happened (Studio.next jose secret appUrl) (Studio.start lives) events (.mint call jti)
    (fun s => s.now = i.since ∧ answerToken jose secret appUrl i.grant jti i.since = .ok i.answer)

def Arrived (c : Clearance) : Prop :=
  Happened (Studio.next jose secret appUrl) (Studio.start lives) events (.whip c.id c.request)
    (fun s => s.now = c.since)

def Forwarded (p : Post) : Prop :=
  ∃ call, Happened (Studio.next jose secret appUrl) (Studio.start lives) events (.post call)
    (fun s => forward s.lives p.clearance = .ok p.upstream ∧ s.now = p.since)

/-- What the studio has on record happened. -/
structure Recorded (s : Studio) : Prop where
  grants : ∀ g, .minting g ∈ s.calls → Asked jose secret appUrl lives events g
  issues : ∀ i ∈ s.issues, HandedOut jose secret appUrl lives events i ∧
    Asked jose secret appUrl lives events i.grant
  clearances : ∀ c, .posting c ∈ s.calls → Arrived jose secret appUrl lives events c
  posts : ∀ p ∈ s.posts, Forwarded jose secret appUrl lives events p ∧
    Arrived jose secret appUrl lives events p.clearance

variable {jose secret appUrl lives events}

theorem Recorded.grow {s : Studio} (h : Recorded jose secret appUrl lives events s)
    (more : List Event) : Recorded jose secret appUrl lives (events++more) s where
  grants := fun g hg => (h.grants g hg).grow more
  issues := by
    intro i hi
    obtain ⟨⟨call, jti, hminted⟩, hasked⟩ := h.issues i hi
    exact ⟨⟨call,jti,hminted.grow more⟩,hasked.grow more⟩
  clearances := fun c hc => (h.clearances c hc).grow more
  posts := by
    intro p hp
    obtain ⟨⟨call, hposted⟩, harrived⟩ := h.posts p hp
    exact ⟨⟨call,hposted.grow more⟩,harrived.grow more⟩

theorem Recorded.answer {s : Studio} (h : Recorded jose secret appUrl lives events s) (call : ℕ) :
    Recorded jose secret appUrl lives events (s.answer call) where
  grants := fun g hg => h.grants g (s.mem_answer call _ nofun hg)
  issues := h.issues
  clearances := fun c hc => h.clearances c (s.mem_answer call _ nofun hc)
  posts := h.posts

theorem Recorded.call {s : Studio} (h : Recorded jose secret appUrl lives events s) (c : Call)
    (hgrant : ∀ g, c = .minting g → Asked jose secret appUrl lives events g)
    (hclearance : ∀ d, c = .posting d → Arrived jose secret appUrl lives events d) :
    Recorded jose secret appUrl lives events { s with calls := s.calls++[c] } where
  grants := by
    intro g hg
    rcases List.mem_append.mp hg with hg | hg
    · exact h.grants g hg
    · exact hgrant g (List.mem_singleton.mp hg).symm
  issues := h.issues
  clearances := by
    intro d hd
    rcases List.mem_append.mp hd with hd | hd
    · exact h.clearances d hd
    · exact hclearance d (List.mem_singleton.mp hd).symm
  posts := h.posts

theorem Recorded.issue {s : Studio} (h : Recorded jose secret appUrl lives events s) (g : Grant)
    (jti : Bytes) (hg : Asked jose secret appUrl lives events g)
    (hissued : ∀ a, answerToken jose secret appUrl g jti s.now = .ok a →
      HandedOut jose secret appUrl lives events ⟨g,a,s.now⟩) :
    Recorded jose secret appUrl lives events (s.issue jose secret appUrl g jti) := by
  unfold Studio.issue
  cases hanswer : answerToken jose secret appUrl g jti s.now with
  | error => exact h
  | ok a =>
    refine ⟨h.grants, ?_, h.clearances, h.posts⟩
    intro i hi
    rcases List.mem_append.mp hi with hi | hi
    · exact h.issues i hi
    · obtain rfl := List.mem_singleton.mp hi
      exact ⟨hissued a hanswer,hg⟩

theorem Recorded.post {s : Studio} (h : Recorded jose secret appUrl lives events s) (c : Clearance)
    (hc : Arrived jose secret appUrl lives events c)
    (hposted : ∀ upstream, forward s.lives c = .ok upstream →
      Forwarded jose secret appUrl lives events ⟨c,upstream,s.now⟩) :
    Recorded jose secret appUrl lives events (s.post c) := by
  unfold Studio.post
  cases hforward : forward s.lives c with
  | error => exact h
  | ok upstream =>
    refine ⟨h.grants, h.issues, h.clearances, ?_⟩
    intro p hp
    rcases List.mem_append.mp hp with hp | hp
    · exact h.posts p hp
    · obtain rfl := List.mem_singleton.mp hp
      exact ⟨hposted upstream hforward,hc⟩

theorem Recorded.next (events : List Event) (e : Event)
    (h : Recorded jose secret appUrl lives events
      (run (Studio.next jose secret appUrl) (Studio.start lives) events)) :
    Recorded jose secret appUrl lives (events++[e])
      ((run (Studio.next jose secret appUrl) (Studio.start lives) events).next jose secret appUrl e) := by
  have hgrown := h.grow [e]
  have hlast : ∀ e P, P (run (Studio.next jose secret appUrl) (Studio.start lives) events) →
      Happened (Studio.next jose secret appUrl) (Studio.start lives) (events++[e]) e P :=
    happened_last events
  generalize run (Studio.next jose secret appUrl) (Studio.start lives) events = s at h hgrown hlast ⊢
  cases e with
  | tick seconds => exact ⟨hgrown.grants,hgrown.issues,hgrown.clearances,hgrown.posts⟩
  | service lives => exact ⟨hgrown.grants,hgrown.issues,hgrown.clearances,hgrown.posts⟩
  | publisherToken session id =>
    simp only [Studio.next]
    cases hgrant : resolveGrant s.lives session id s.now with
    | error => exact hgrown
    | ok g =>
      obtain ⟨rfl, rfl, hlive, hnow⟩ := resolveGrant_ok _ _ _ _ _ hgrant
      apply hgrown.call
      · rintro g' ⟨⟩
        exact hlast _ _ ⟨hlive,hnow⟩
      · exact nofun
  | mint call jti =>
    simp only [Studio.next]
    split
    · next g hcall =>
      apply Recorded.answer
      apply hgrown.issue g jti (hgrown.grants g (List.mem_of_getElem? hcall))
      intro a hanswer
      exact ⟨call,jti,hlast _ _ ⟨rfl,hanswer⟩⟩
    · exact hgrown
  | whip id request =>
    simp only [Studio.next]
    cases authorise jose secret request.authorization id s.now with
    | error => exact hgrown
    | ok claims =>
      apply hgrown.call
      · exact nofun
      · rintro c ⟨⟩
        exact hlast _ _ rfl
  | post call =>
    simp only [Studio.next]
    split
    · next c hcall =>
      apply Recorded.answer
      apply hgrown.post c (hgrown.clearances c (List.mem_of_getElem? hcall))
      intro upstream hforward
      exact ⟨call,hlast _ _ ⟨hforward,rfl⟩⟩
    · exact hgrown

theorem run_recorded (lives : Bytes → Option StreamLive) (events : List Event) :
    Recorded jose secret appUrl lives events
      (run (Studio.next jose secret appUrl) (Studio.start lives) events) := by
  apply history_invariant (Recorded jose secret appUrl lives)
  · constructor <;> simp [Studio.start]
  · exact Recorded.next

end History

/-- Whatever the order of the steps, and whatever becomes of the live inputs: what is posted to
the stream service comes from a request that arrived with a token for its live input, handed
out less than half an hour before, to a session that had asked for it and owned the live
input as the service then had it. -/
theorem posts_covered (hjose : ∀ key, signingKey secret = some key → jose.Compact key)
    (lives : Bytes → Option StreamLive) (events : List Event)
    (hunforged : Along (Studio.next jose secret appUrl) (Unforged jose secret) (Studio.start lives) events) :
    let s := run (Studio.next jose secret appUrl) (Studio.start lives) events
    ∀ p ∈ s.posts, Forwarded jose secret appUrl lives events p ∧
      Arrived jose secret appUrl lives events p.clearance ∧ p.clearance.since ≤ p.since ∧
      ∃ i ∈ s.issues, i.Covers p.clearance ∧ HandedOut jose secret appUrl lives events i ∧
        Asked jose secret appUrl lives events i.grant ∧
        owned i.grant.live.input i.grant.session = true := by
  intro s p hp
  have hsound : Sound jose secret appUrl s :=
    along_invariant _ _ (Sound jose secret appUrl) (sound_next jose secret appUrl hjose) _ _
      (sound_start jose secret appUrl lives) hunforged
  have hrecorded : Recorded jose secret appUrl lives events s := run_recorded lives events
  obtain ⟨⟨i, hi, hcovers⟩, hsince⟩ := hsound.posts p hp
  obtain ⟨hforwarded, harrived⟩ := hrecorded.posts p hp
  obtain ⟨hminted, hasked⟩ := hrecorded.issues i hi
  exact ⟨hforwarded,harrived,hsince,i,hi,hcovers,hminted,hasked,i.grant.owner⟩

end Steps

section Samples

def sampleWords (key : Bytes) (c : Claims) : List Bytes :=
  [hexEncode key, hexEncode (c.liveId.getD []), hexEncode (c.jti.getD []),
    decimal (c.iat.getD 0).num.toNat, decimal (c.exp.getD 0).num.toNat]

def sampleJose : Jose where
  sign key c := [46].intercalate (sampleWords key c)
  verified key token := match token.splitOn 46 with
    | [k, liveId, jti, since, exp] =>
      if k = hexEncode key then
        match hexDecode liveId, hexDecode jti with
        | some liveId, some jti => some (publisherClaims liveId jti (ofDecimal since) (ofDecimal exp))
        | _, _ => none
      else none
    | _ => none

theorem digit_plain (b : UInt8) (h : (hexValue b).isSome) : b ≠ 46 ∧ isBlank b = false := by
  have hall : ∀ n : Fin 256, (hexValue (UInt8.ofNat n.val)).isSome →
      UInt8.ofNat n.val ≠ 46 ∧ isBlank (UInt8.ofNat n.val) = false := by decide +kernel
  have hb := hall ⟨b.toNat,b.toNat_lt⟩
  rw [UInt8.ofNat_toNat] at hb
  exact hb h

theorem sampleWords_plain (key : Bytes) (c : Claims) :
    ∀ word ∈ sampleWords key c, ∀ b ∈ word, b ≠ 46 ∧ isBlank b = false := by
  have hhex : ∀ bs, ∀ b ∈ hexEncode bs, b ≠ 46 ∧ isBlank b = false :=
    fun bs b hb => digit_plain b (hexEncode_digit bs b hb)
  have hdecimal : ∀ n, ∀ b ∈ decimal n, b ≠ 46 ∧ isBlank b = false := by
    intro n b hb
    apply digit_plain
    have hdigit := decimal_isDigit n b hb
    simp only [isDigit, decide_eq_true_eq] at hdigit
    rw [hexValue, if_pos hdigit]
    rfl
  intro word hword
  simp only [sampleWords, List.mem_cons, List.not_mem_nil, or_false] at hword
  rcases hword with rfl | rfl | rfl | rfl | rfl
  · exact hhex _
  · exact hhex _
  · exact hhex _
  · exact hdecimal _
  · exact hdecimal _

theorem sampleJose_compact (key : Bytes) : sampleJose.Compact key := by
  constructor
  · intro liveId jti now exp
    have hwords := sampleWords_plain key (publisherClaims liveId jti now exp)
    show sampleJose.verified key ([46].intercalate _) = _
    unfold sampleJose
    dsimp only
    rw [List.splitOn_intercalate 46 (fun word hword hmem => (hwords word hword 46 hmem).1 rfl)
      (by simp [sampleWords])]
    simp [sampleWords, publisherClaims]
  · intro c hnil
    simp [sampleJose, sampleWords, List.intercalate] at hnil
  · intro c b hb
    have hword : b = 46 ∨ ∃ word ∈ sampleWords key c, b ∈ word := by
      simp only [sampleJose, sampleWords, List.intercalate, List.intersperse_cons_cons,
        List.intersperse_singleton, List.mem_flatten, List.mem_cons, List.not_mem_nil, or_false] at hb ⊢
      grind
    rcases hword with rfl | ⟨word, hword, hb⟩
    · rfl
    · exact (sampleWords_plain key c word hword b hb).2

def sampleSecret : Option Text := some (List.replicate 32 0xe9)

def sampleKey : Bytes := (List.replicate 32 [0xc3,0xa9]).flatten

def sampleLive : StreamLive := ⟨⟨none,some (ascii "0xAB"),[]⟩,some (ascii "https://up")⟩

def sampleLives (id : Bytes) : Option StreamLive := if id = ascii "l_1" then some sampleLive else none

def sampleGrant : Grant := ⟨ascii "0xab",ascii "l_1",sampleLive,0,by decide⟩

def sampleToken : Bytes :=
  sampleJose.sign sampleKey (publisherClaims (ascii "l_1") (ascii "0a") 5 1805)

theorem answerToken_opens_sample :
    authorise sampleJose sampleSecret (some (ascii "Bearer "++sampleToken)) (ascii "l_1") 1804 =
      .ok ⟨ascii "l_1",(5 : ℕ),(5 : ℕ)+defaultTtlSeconds,ascii "0a"⟩ ∧
    authorise sampleJose sampleSecret (some (ascii "Bearer "++sampleToken)) (ascii "l_1") 1805 =
      .error (unauthorizedFor (ascii "invalid or expired token")) := by
  have h := (answerToken_opens sampleJose sampleSecret [] (fun key _ => sampleJose_compact key)
    sampleGrant (ascii "0a") 5).2 _ rfl (ascii "l_1")
  exact ⟨(h 1804).trans ((if_pos (by decide)).trans (if_pos rfl)),(h 1805).trans (if_neg (by decide))⟩

def sampleRequest : WhipRequest := ⟨some (ascii "Bearer "++sampleToken),none,ascii "v=0"⟩

def sampleEvents : List Event :=
  [.service sampleLives, .publisherToken (some (ascii "0xab")) (ascii "l_1"), .tick 5,
    .mint 0 (ascii "0a"), .tick 1000, .whip (ascii "l_1") sampleRequest, .tick 1000, .post 1]

def sampleStudio : Studio :=
  run (Studio.next sampleJose sampleSecret []) (Studio.start fun _ => none) sampleEvents

theorem sampleEvents_unforged :
    Along (Studio.next sampleJose sampleSecret []) (Unforged sampleJose sampleSecret)
      (Studio.start fun _ => none) sampleEvents := by
  have hpresented : bearer (ascii "Bearer "++sampleToken) = some sampleToken :=
    bearer_token _ ((sampleJose_compact _).nonempty _) ((sampleJose_compact _).plain _)
  refine ⟨trivial, trivial, trivial, trivial, trivial, ?_, trivial, trivial, trivial⟩
  intro key token _ htoken _
  have htoken : bearer (ascii "Bearer "++sampleToken) = some token := htoken
  rw [hpresented, Option.some.injEq] at htoken
  rw [← htoken]
  refine ⟨_, List.mem_singleton_self _, rfl⟩

theorem posts_covered_sample :
    ∃ p ∈ sampleStudio.posts, p.upstream = ⟨ascii "https://up",ascii "application/sdp",ascii "v=0"⟩ ∧
      ∃ i ∈ sampleStudio.issues, i.Covers p.clearance ∧
        HandedOut sampleJose sampleSecret [] (fun _ => none) sampleEvents i ∧
        Asked sampleJose sampleSecret [] (fun _ => none) sampleEvents i.grant ∧
        owned i.grant.live.input i.grant.session = true :=
  ⟨_,List.mem_singleton_self _,rfl,(posts_covered sampleJose sampleSecret []
    (fun key _ => sampleJose_compact key) (fun _ => none) sampleEvents sampleEvents_unforged _
    (List.mem_singleton_self _)).2.2.2⟩

end Samples

end Aevia.PublisherTokens
