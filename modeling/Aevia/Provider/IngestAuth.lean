import Aevia.Foundation.Fallible
import Aevia.Foundation.Run
import Aevia.Provider.IngestSignature
import Aevia.Provider.SessionRegistry

/-!
# Who may publish

An offer passes the allowlist and, where a signature is asked for or given, has to be
signed by the address of its DID. Sessions come from offers that passed and from mirror
streams; what the browser posts passes under the same conditions, however its wallet
writes the signature.
-/

set_option autoImplicit false

namespace Aevia.Whip
open Aevia.Bytes Aevia.Fallible Aevia.Keccak Aevia.KeyValue Aevia.Run Aevia.TextFields

structure Options where
  authorisedDIDs : List Bytes
  requireSignatures : Bool

def Options.dids (opts : Options) : List Bytes := opts.authorisedDIDs.filter (fun did => did ≠ [])

/-- A POST; a header that is missing is empty. -/
structure IngestRequest where
  contentType : Bytes
  did : Bytes
  signature : Bytes
  body : Except GoError Bytes

abbrev Refusal := GoError × ℕ

def Status.badRequest : ℕ := 400
def Status.unauthorized : ℕ := 401
def Status.unsupportedMediaType : ℕ := 415

section Gate
variable (ecrecover : Bytes → Bytes → Except GoError Bytes) (opts : Options) (r : IngestRequest)

/-- With an empty list everyone may publish. -/
def checkAuth (did : Bytes) : Bool := opts.dids.isEmpty || opts.dids.contains did

def checkSignature (offer : Bytes) : Except Refusal Unit :=
  if opts.requireSignatures = true ∨ r.signature ≠ [] then
    if r.signature = [] then .error (.new "whip: X-Aevia-Signature required", Status.unauthorized)
    else match parseHexSignature r.signature with
      | .error e => .error (.wrap "whip: parse signature: %w" [] e, Status.unauthorized)
      | .ok sig => match verifySignatureForDID ecrecover r.did offer sig with
        | .error e => .error (.wrap "whip: %w" [] e, Status.unauthorized)
        | .ok () => .ok ()
  else .ok ()

/-- The handler up to the offer that it negotiates. -/
def acceptIngest : Except Refusal Bytes :=
  if r.contentType ≠ ascii "application/sdp" then
    .error (.new "whip: Content-Type must be application/sdp", Status.unsupportedMediaType)
  else if checkAuth opts r.did = false then
    .error (.new "whip: DID not authorised", Status.unauthorized)
  else match r.body with
    | .error e => .error (.wrap "whip: read body: %w" [] e, Status.badRequest)
    | .ok offer =>
      if offer = [] then .error (.new "whip: empty SDP offer", Status.badRequest)
      else do
        checkSignature ecrecover opts r offer
        .ok offer

def SignedBy (did offer signature : Bytes) : Prop :=
  ∃ sig pub, parseHexSignature signature = .ok sig ∧ sig.length = 65 ∧
    ecrecover (keccak256 (eip191 offer)) (normalise sig) = .ok pub ∧
    addressFromDID did = .ok (addressOf pub)

structure Admitted (offer : Bytes) : Prop where
  sdp : r.contentType = ascii "application/sdp"
  allowed : opts.dids = [] ∨ r.did ∈ opts.dids
  body : r.body = .ok offer
  nonempty : offer ≠ []
  signed : opts.requireSignatures = true ∨ r.signature ≠ [] → SignedBy ecrecover r.did offer r.signature

theorem verifySignatureForDID_ok (did message sig : Bytes) :
    verifySignatureForDID ecrecover did message sig = .ok () ↔
      ∃ pub, sig.length = 65 ∧
        ecrecover (keccak256 (eip191 message)) (normalise sig) = .ok pub ∧
        addressFromDID did = .ok (addressOf pub) := by
  unfold verifySignatureForDID recoverEIP191
  simp only [bind_ok, guard_ok, not_not, and_true]
  constructor
  · rintro ⟨recovered, ⟨hlength, hrecovered⟩, claimed, hclaimed, hsame⟩
    cases hpub : ecrecover (keccak256 (eip191 message)) (normalise sig) with
    | error e =>
      rw [hpub] at hrecovered
      cases hrecovered
    | ok pub =>
      rw [hpub] at hrecovered
      cases hrecovered
      rw [toLower_addressOf, addressFromDID_lower did claimed hclaimed] at hsame
      exact ⟨pub,hlength,rfl,by rw [hclaimed, hsame]⟩
  · rintro ⟨pub, hlength, hpub, hclaimed⟩
    rw [hpub]
    exact ⟨addressOf pub,⟨hlength,rfl⟩,addressOf pub,hclaimed,rfl⟩

theorem parseHexSignature_nil : ∀ sig, parseHexSignature [] ≠ .ok sig := by
  intro sig
  have hshort : parseHexSignature [] =
      .error (.wrap "%w: got %d hex chars, want 130" [.int 0] errBadSignature) := rfl
  rw [hshort]
  exact fun h => nomatch h

theorem checkSignature_ok (offer : Bytes) : checkSignature ecrecover opts r offer = .ok () ↔
    (opts.requireSignatures = true ∨ r.signature ≠ [] →
      SignedBy ecrecover r.did offer r.signature) := by
  unfold checkSignature SignedBy
  by_cases hasked : opts.requireSignatures = true ∨ r.signature ≠ []
  · rw [if_pos hasked, imp_iff_right hasked]
    by_cases hempty : r.signature = []
    · rw [if_pos hempty, hempty]
      refine iff_of_false (fun h => nomatch h) ?_
      rintro ⟨sig, pub, hparse, -⟩
      exact parseHexSignature_nil sig hparse
    · rw [if_neg hempty]
      cases hparse : parseHexSignature r.signature with
      | error e => simp
      | ok sig =>
        dsimp only
        have hverify := verifySignatureForDID_ok ecrecover r.did offer sig
        cases hchecked : verifySignatureForDID ecrecover r.did offer sig with
        | error e =>
          rw [hchecked] at hverify
          refine iff_of_false (fun h => nomatch h) ?_
          rintro ⟨sig', pub, ⟨⟩, hlength, hpub, hdid⟩
          exact nomatch hverify.mpr ⟨pub, hlength, hpub, hdid⟩
        | ok u =>
          obtain ⟨pub, hlength, hpub, hdid⟩ := hverify.mp hchecked
          exact iff_of_true rfl ⟨sig,pub,rfl,hlength,hpub,hdid⟩
  · rw [if_neg hasked]
    exact iff_of_true rfl (fun h => absurd h hasked)

theorem acceptIngest_ok (offer : Bytes) : acceptIngest ecrecover opts r = .ok offer ↔
    Admitted ecrecover opts r offer := by
  unfold acceptIngest
  simp only [guard_ok, not_not, Bool.not_eq_false]
  have hallowed : checkAuth opts r.did = true ↔ opts.dids = [] ∨ r.did ∈ opts.dids := by
    simp [checkAuth]
  rw [hallowed]
  cases hbody : r.body with
  | error e =>
    constructor
    · rintro ⟨-, -, h⟩
      cases h
    · intro h
      have hread := h.body
      rw [hbody] at hread
      cases hread
  | ok body =>
    simp only [guard_ok, bind_ok, Except.ok.injEq]
    constructor
    · rintro ⟨hsdp, hlist, hne, u, hchecked, rfl⟩
      exact ⟨hsdp,hlist,hbody,hne,(checkSignature_ok ecrecover opts r body).mp hchecked⟩
    · rintro ⟨hsdp, hlist, hread, hne, hsigned⟩
      rw [hbody] at hread
      cases hread
      exact ⟨hsdp,hlist,hne,(),(checkSignature_ok ecrecover opts r _).mpr hsigned,rfl⟩

end Gate

section Runs
variable (ecrecover : Bytes → Bytes → Except GoError Bytes) (opts : Options)

/-- The registry, and the request that each session was made for. -/
structure Node where
  server : Server
  madeFor : ℕ → Option IngestRequest

def Node.start : Node := ⟨newServer, fun _ => none⟩

inductive NodeEvent where
  /-- A POST, with the identifier drawn and what comes of the negotiation. -/
  | handleIngest (r : IngestRequest) (id : Bytes) (negotiated : Bool)
  /-- A stream of a mirror with its header. -/
  | injectSession (id : Bytes)
  | removeSession (id : Bytes)
  | closeSession (j : ℕ)

def Node.next (s : Node) : NodeEvent → Node
  | .handleIngest r id negotiated =>
    match acceptIngest ecrecover opts r with
    | .error _ => s
    | .ok _ =>
      let made := s.server.newSession id true
      { server := if negotiated then made.register s.server.made else made.close s.server.made
        madeFor := Function.update s.madeFor s.server.made (some r) }
  | .injectSession id =>
    let made := s.server.newSession id false
    { server := commit made (made.injectSession (some s.server.made))
      madeFor := Function.update s.madeFor s.server.made none }
  | .removeSession id => { s with server := s.server.removeSession id }
  | .closeSession j => { s with server := s.server.close j }

/-- Registered sessions were made, and those that were made for a request had it admitted. -/
structure Guarded (s : Node) : Prop where
  made : ∀ id j, s.server.sessions.get id = some j → j < s.server.made
  admitted : ∀ j < s.server.made, ∀ r, s.madeFor j = some r →
    ∃ offer, Admitted ecrecover opts r offer
  mirrored : ∀ j < s.server.made, s.madeFor j = none → (s.server.session j).peerConn = false

variable {ecrecover opts}

theorem Guarded.grow {s : Node} (h : Guarded ecrecover opts s) (server : Server)
    (origin : Option IngestRequest) (hmade : server.made = s.server.made+1)
    (hsessions : ∀ id j, server.sessions.get id = some j →
      j = s.server.made ∨ s.server.sessions.get id = some j)
    (hkept : ∀ j < s.server.made, server.session j = s.server.session j)
    (horigin : ∀ r, origin = some r → ∃ offer, Admitted ecrecover opts r offer)
    (hmirrored : origin = none → (server.session s.server.made).peerConn = false) :
    Guarded ecrecover opts ⟨server, Function.update s.madeFor s.server.made origin⟩ where
  made := by
    intro id j hj
    show j < server.made
    rcases hsessions id j hj with rfl | hold
    · omega
    · have hlt := h.made id j hold
      omega
  admitted := by
    intro j hj r hr
    change j < server.made at hj
    change Function.update s.madeFor s.server.made origin j = some r at hr
    by_cases hnew : j = s.server.made
    · subst hnew
      rw [Function.update_self] at hr
      exact horigin r hr
    · rw [Function.update_of_ne hnew] at hr
      exact h.admitted j (by omega) r hr
  mirrored := by
    intro j hj hr
    change j < server.made at hj
    change Function.update s.madeFor s.server.made origin j = none at hr
    show (server.session j).peerConn = false
    by_cases hnew : j = s.server.made
    · subst hnew
      rw [Function.update_self] at hr
      exact hmirrored hr
    · rw [Function.update_of_ne hnew] at hr
      rw [hkept j (by omega)]
      exact h.mirrored j (by omega) hr

theorem Guarded.close {s : Node} (h : Guarded ecrecover opts s) (found : Option ℕ) :
    Guarded ecrecover opts { s with server := s.server.closeFound found } where
  made := by
    intro id j hj
    rw [Server.closeFound_sessions] at hj
    rw [Server.closeFound_made]
    exact h.made id j hj
  admitted := by
    intro j hj
    rw [Server.closeFound_made] at hj
    exact h.admitted j hj
  mirrored := by
    intro j hj hr
    rw [Server.closeFound_made] at hj
    cases found with
    | none => exact h.mirrored j hj hr
    | some k =>
      show ((s.server.close k).session j).peerConn = false
      rw [Server.close_session]
      split_ifs
      · rfl
      · exact h.mirrored j hj hr

theorem Guarded.next {s : Node} (h : Guarded ecrecover opts s) (e : NodeEvent) :
    Guarded ecrecover opts (s.next ecrecover opts e) := by
  have hnew : ∀ id peerConn, ∀ j < s.server.made,
      (s.server.newSession id peerConn).session j = s.server.session j := by
    intro id peerConn j hj
    rw [Server.newSession_session, if_neg (by omega)]
  have hfirst : ∀ id peerConn, (s.server.newSession id peerConn).session s.server.made =
      ⟨id, peerConn, false⟩ := by
    intro id peerConn
    rw [Server.newSession_session, if_pos rfl]
  cases e with
  | handleIngest r id negotiated =>
    simp only [Node.next]
    cases hr : acceptIngest ecrecover opts r with
    | error e => exact h
    | ok offer =>
      have hadmitted : ∀ r', some r = some r' → ∃ offer, Admitted ecrecover opts r' offer := by
        rintro r' ⟨⟩
        exact ⟨offer,(acceptIngest_ok ecrecover opts r offer).mp hr⟩
      cases negotiated with
      | true =>
        apply h.grow ((s.server.newSession id true).register s.server.made) (some r) rfl _
          (hnew id true) hadmitted (fun hnone => nomatch hnone)
        intro id' j hj
        rw [Server.register_get] at hj
        split_ifs at hj
        · exact .inl (Option.some.inj hj).symm
        · exact .inr hj
      | false =>
        apply h.grow ((s.server.newSession id true).close s.server.made) (some r) rfl
          (fun id' j hj => .inr hj) _ hadmitted (fun hnone => nomatch hnone)
        intro j hj
        rw [Server.close_session, if_neg (by omega)]
        exact hnew id true j hj
  | injectSession id =>
    simp only [Node.next]
    cases hinject : (s.server.newSession id false).injectSession (some s.server.made) with
    | error e =>
      exact h.grow _ none rfl (fun id' j hj => .inr hj) (hnew id false) (fun r hr => nomatch hr)
        (fun _ => by rw [commit_error, hfirst])
    | ok server =>
      obtain ⟨-, rfl⟩ := Server.injectSession_ok _ _ _ hinject
      apply h.grow ((s.server.newSession id false).register s.server.made) none rfl _
        (hnew id false) (fun r hr => nomatch hr)
      · intro _
        show ((s.server.newSession id false).session s.server.made).peerConn = false
        rw [hfirst]
      · intro id' j hj
        rw [Server.register_get] at hj
        split_ifs at hj
        · exact .inl (Option.some.inj hj).symm
        · exact .inr hj
  | removeSession id =>
    have hdetached : Guarded ecrecover opts { s with server := (s.server.detach id).1 } := by
      constructor
      · intro id' j hj
        rw [Server.detach_get] at hj
        split_ifs at hj
        rw [Server.detach_made]
        exact h.made id' j hj
      · intro j hj
        rw [Server.detach_made] at hj
        exact h.admitted j hj
      · intro j hj hr
        rw [Server.detach_made] at hj
        rw [Server.detach_session]
        exact h.mirrored j hj hr
    exact hdetached.close _
  | closeSession j => exact h.close (some j)

/-- In every run a registered session comes from a mirror stream, and then takes no media
of its own, or was made for a request that satisfied the allowlist and, where one was
asked for or given, carried a signature of its very offer by the address of its DID. -/
theorem sessions_admitted (ecrecover : Bytes → Bytes → Except GoError Bytes) (opts : Options)
    (events : List NodeEvent) (id : Bytes) (j : ℕ) :
    let s := run (Node.next ecrecover opts) Node.start events
    s.server.getSession id = .ok j →
      (s.madeFor j = none ∧ (s.server.session j).peerConn = false) ∨
      ∃ r offer, s.madeFor j = some r ∧ Admitted ecrecover opts r offer ∧
        ∀ other, eip191 other = eip191 offer → other = offer := by
  intro s hj
  have hguarded : Guarded ecrecover opts s := by
    apply run_invariant (Node.next ecrecover opts) (Guarded ecrecover opts)
    · exact fun t e ht => ht.next e
    · constructor
      · exact fun _ _ h => nomatch h
      · exact fun _ h => absurd h (Nat.not_lt_zero _)
      · exact fun _ h => absurd h (Nat.not_lt_zero _)
  have hlt := hguarded.made id j ((s.server.getSession_ok id j).mp hj)
  cases horigin : s.madeFor j with
  | none => exact .inl ⟨rfl,hguarded.mirrored j hlt horigin⟩
  | some r =>
    obtain ⟨offer, hoffer⟩ := hguarded.admitted j hlt r horigin
    exact .inr ⟨r,offer,rfl,hoffer,fun other h => eip191_inj other offer h⟩

end Runs

section Publishing
variable (ecrecover : Bytes → Bytes → Except GoError Bytes) (opts : Options)

/-- What the browser posts. A signer that is missing or refuses leaves the header out, and
so does a DID that is empty. -/
def publishWhip (did : Bytes) (sign : Bytes → Option Bytes) (offerSdp : Bytes) : IngestRequest where
  contentType := ascii "application/sdp"
  did := did
  signature :=
    if offerSdp = [] then []
    else match sign offerSdp with
      | none => []
      | some sig => if (ascii "0x").isPrefixOf sig then sig else ascii "0x"++sig
  body := .ok offerSdp

theorem hexValue_space : ∀ w ∈ whiteSpaces, w ≠ [] ∧
    ∀ c ∈ w, hexValue c = none ∧ c ∉ ascii "0x" := by decide +kernel

theorem hexDecode_digits (s b : Bytes) (h : hexDecode s = some b) :
    s.length = 2*b.length ∧ ∀ c ∈ s, hexValue c ≠ none := by
  induction s using hexDecode.induct generalizing b with
  | case1 =>
    cases h
    simp
  | case2 => cases h
  | case3 x y rest ih =>
    simp only [hexDecode, Option.bind_eq_bind, Option.bind_eq_some_iff, Option.some.injEq] at h
    obtain ⟨d, hd, e, he, bs, hbs, rfl⟩ := h
    obtain ⟨hlength, hdigits⟩ := ih bs hbs
    constructor
    · simp only [List.length_cons]
      omega
    · intro c hc
      simp only [List.mem_cons] at hc
      rcases hc with rfl | rfl | hc
      · simp [hd]
      · simp [he]
      · exact hdigits c hc

theorem parseHexSignature_hex (digits sig : Bytes) (h : hexDecode digits = some sig)
    (hlength : sig.length = 65) : parseHexSignature (ascii "0x"++digits) = .ok sig := by
  obtain ⟨hdigits, hvalues⟩ := hexDecode_digits digits sig h
  have htrim : trimSpace (ascii "0x"++digits) = ascii "0x"++digits := by
    apply trimSpace_disjoint
    intro w hw
    obtain ⟨hne, hspace⟩ := hexValue_space w hw
    refine ⟨hne, fun c hc hmem => ?_⟩
    obtain ⟨hnone, hout⟩ := hspace c hc
    rcases List.mem_append.mp hmem with hpre | hdigit
    · exact hout hpre
    · exact hvalues c hdigit hnone
  have hprefix : (ascii "0x").isPrefixOf (ascii "0x"++digits) = true :=
    List.isPrefixOf_iff_prefix.mpr (List.prefix_append _ _)
  unfold parseHexSignature
  rw [htrim, trimPrefix, if_pos hprefix, List.drop_left]
  dsimp only
  rw [if_neg (by omega)]
  exact (Manifests.hexDecodeString_ok digits sig).mpr h

structure Wallet (sign : Bytes → Option Bytes) (offer sig : Bytes) : Prop where
  digits : ∃ digits, hexDecode digits = some sig ∧
    (sign offer = some digits ∨ sign offer = some (ascii "0x"++digits))
  length : sig.length = 65

theorem publishWhip_signature (did : Bytes) (sign : Bytes → Option Bytes) (offer sig : Bytes)
    (hoffer : offer ≠ []) (hwallet : Wallet sign offer sig) :
    parseHexSignature (publishWhip did sign offer).signature = .ok sig := by
  obtain ⟨⟨digits, hdigits, hsign⟩, hlength⟩ := hwallet
  have hheader : (publishWhip did sign offer).signature = ascii "0x"++digits := by
    unfold publishWhip
    dsimp only
    rw [if_neg hoffer]
    rcases hsign with hsign | hsign
    · have hbare : ¬(ascii "0x").isPrefixOf digits = true := by
        intro hpre
        obtain ⟨rest, rfl⟩ := List.isPrefixOf_iff_prefix.mp hpre
        exact (hexDecode_digits _ sig hdigits).2 120 (by simp [ascii]) (by decide)
      rw [hsign]
      dsimp only
      rw [if_neg hbare]
    · rw [hsign]
      dsimp only
      rw [if_pos (List.isPrefixOf_iff_prefix.mpr (List.prefix_append _ _))]
  rw [hheader]
  exact parseHexSignature_hex digits sig hdigits hlength

/-- What a browser publishes is admitted if and only if its DID is allowed and ends in the
address that its wallet signed with; without a signature, if and only if its DID is allowed
and none is asked for. -/
theorem publishWhip_admitted (did : Bytes) (sign : Bytes → Option Bytes) (offer : Bytes)
    (hoffer : offer ≠ []) :
    (∀ sig pub, Wallet sign offer sig →
      ecrecover (keccak256 (eip191 offer)) (normalise sig) = .ok pub →
      (acceptIngest ecrecover opts (publishWhip did sign offer) = .ok offer ↔
        (opts.dids = [] ∨ did ∈ opts.dids) ∧ addressFromDID did = .ok (addressOf pub))) ∧
    (sign offer = none →
      (acceptIngest ecrecover opts (publishWhip did sign offer) = .ok offer ↔
        (opts.dids = [] ∨ did ∈ opts.dids) ∧ opts.requireSignatures = false)) := by
  constructor
  · intro sig pub hwallet hpub
    have hparse := publishWhip_signature did sign offer sig hoffer hwallet
    have hgiven : (publishWhip did sign offer).signature ≠ [] := by
      intro hnil
      rw [hnil] at hparse
      exact parseHexSignature_nil sig hparse
    rw [acceptIngest_ok]
    constructor
    · intro h
      obtain ⟨sig', pub', hsig', -, hpub', hdid⟩ := h.signed (.inr hgiven)
      rw [hparse] at hsig'
      cases hsig'
      rw [hpub] at hpub'
      cases hpub'
      exact ⟨h.allowed,hdid⟩
    · rintro ⟨hallowed, hdid⟩
      exact ⟨rfl,hallowed,rfl,hoffer,fun _ => ⟨sig,pub,hparse,hwallet.length,hpub,hdid⟩⟩
  · intro hnone
    have hempty : (publishWhip did sign offer).signature = [] := by
      unfold publishWhip
      dsimp only
      rw [if_neg hoffer, hnone]
    rw [acceptIngest_ok]
    constructor
    · intro h
      refine ⟨h.allowed, ?_⟩
      by_contra hrequired
      obtain ⟨sig, pub, hparse, -⟩ := h.signed (.inl (by simpa using hrequired))
      rw [hempty] at hparse
      exact parseHexSignature_nil sig hparse
    · rintro ⟨hallowed, hoff⟩
      refine ⟨rfl, hallowed, rfl, hoffer, fun hasked => ?_⟩
      rw [hempty, hoff] at hasked
      simp at hasked

section Samples

def oneKey (_ _ : Bytes) : Except GoError Bytes := .ok (List.replicate 65 4)

def sampleDid : Bytes := ascii "did:pkh:eip155:84532:"++addressOf (List.replicate 65 4)

def sampleSign (_ : Bytes) : Option Bytes := some (hexEncode (List.replicate 65 27))

theorem publishWhip_admitted_once :
    acceptIngest oneKey ⟨[sampleDid], true⟩ (publishWhip sampleDid sampleSign [1]) = .ok [1] :=
  ((publishWhip_admitted oneKey ⟨[sampleDid], true⟩ sampleDid sampleSign [1] (by simp)).1
    (List.replicate 65 27) (List.replicate 65 4)
    ⟨⟨_, hexDecode_hexEncode _, .inl rfl⟩, rfl⟩ rfl).mpr
    ⟨by decide +kernel, by decide +kernel⟩

def sampleRun : List NodeEvent :=
  [.handleIngest (publishWhip sampleDid sampleSign [1]) (ascii "s_1") true,
    .injectSession (ascii "s_2"), .handleIngest (publishWhip [] sampleSign [1]) (ascii "s_3") true]

theorem sessions_admitted_once :
    let s := run (Node.next oneKey ⟨[sampleDid], true⟩) Node.start sampleRun
    (s.madeFor 0 = none ∧ (s.server.session 0).peerConn = false) ∨
      ∃ r offer, s.madeFor 0 = some r ∧ Admitted oneKey ⟨[sampleDid], true⟩ r offer ∧
        ∀ other, eip191 other = eip191 offer → other = offer :=
  sessions_admitted oneKey ⟨[sampleDid], true⟩ sampleRun (ascii "s_1") 0 (by decide +kernel)

end Samples

end Publishing

end Aevia.Whip
