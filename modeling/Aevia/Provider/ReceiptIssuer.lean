import Aevia.Provider.SettleableReceipts

/-!
# Issuing receipts

The viewer's side of proof of relay: build a receipt, sign it, post it to the provider's
`/ack`, read the countersigned receipt back. Both ends speak JSON, so what is signed must
survive the trip there and back.
-/

set_option autoImplicit false

namespace Aevia.Por
open Aevia.Bytes Aevia.Fallible Aevia.Run Aevia.Storage Aevia.StructCodec Aevia.Utf8

structure Issuer (PrivateKey : Type) where
  viewerPriv : PrivateKey
  viewerPID : Bytes

/-- What a receipt is asked for, with what the clock, the nonce source and the random
source give at that moment. -/
structure Asked where
  providerPID : Bytes
  cid : Bytes
  segmentIndex : Int64
  segmentSize : Int64
  nowUnix : Int64
  nonce : UInt64
  random : Bytes

def statusOK : ℕ := 200

def ackURL (providerPID : Bytes) : Bytes := ascii "libp2p://"++providerPID++ascii "/ack"

section Issue
variable {PublicKey PrivateKey : Type} (lib : Libp2p PublicKey PrivateKey)

def newIssuer (viewerPriv : PrivateKey) : Except GoError (Issuer PrivateKey) :=
  match lib.peerIDOf viewerPriv with
  | .error e => .error e
  | .ok pid => .ok ⟨viewerPriv,pid⟩

variable (i : Issuer PrivateKey) (a : Asked)

def Issuer.receipt : Receipt where
  providerPeerID := a.providerPID
  viewerPeerID := i.viewerPID
  cid := a.cid
  segmentIndex := a.segmentIndex
  segmentSize := a.segmentSize
  timestampUnix := a.nowUnix
  nonce := a.nonce
  viewerSig := []
  providerSig := []

def Issuer.sent : Except GoError Receipt := (i.receipt a).signAsViewer lib i.viewerPriv a.random

/-- `post` takes the URL and the body to the status and the body of the answer. -/
def issue (post : Bytes → Bytes → Except GoError (ℕ × Bytes)) : Except GoError Receipt :=
  match i.sent lib a with
  | .error e => .error e
  | .ok r => match post (ackURL a.providerPID) (receiptJson r).print with
    | .error e => .error (.wrap "por: POST /ack: %w" [] e)
    | .ok (status, raw) =>
      if status ≠ statusOK then .error (.errorf "por: /ack returned %d: %s" [.int status, .text raw])
      else match decodeReceipt raw with
        | .error e => .error (.wrap "por: decode /ack response: %w" [] e)
        | .ok signed => match signed.verifyBoth lib with
          | .error e => .error (.wrap "por: /ack response failed verification: %w" [] e)
          | .ok () => .ok signed

structure Issued (post : Bytes → Bytes → Except GoError (ℕ × Bytes)) (r signed : Receipt)
    (raw : Bytes) : Prop where
  sent : i.sent lib a = .ok r
  answered : post (ackURL a.providerPID) (receiptJson r).print = .ok (statusOK, raw)
  decoded : decodeReceipt raw = .ok signed
  verified : signed.verifyBoth lib = .ok ()

theorem issue_ok (post : Bytes → Bytes → Except GoError (ℕ × Bytes)) (signed : Receipt) :
    issue lib i a post = .ok signed ↔ ∃ r raw, Issued lib i a post r signed raw := by
  constructor
  · intro h
    unfold issue at h
    cases hsent : i.sent lib a with
    | error e =>
      rw [hsent] at h
      cases h
    | ok r =>
      rw [hsent] at h
      dsimp only at h
      cases hpost : post (ackURL a.providerPID) (receiptJson r).print with
      | error e =>
        rw [hpost] at h
        cases h
      | ok answer =>
        obtain ⟨status, raw⟩ := answer
        rw [hpost] at h
        dsimp only at h
        obtain ⟨hstatus, h⟩ := (guard_ok _ _ _ _).mp h
        rw [not_not] at hstatus
        cases hdecoded : decodeReceipt raw with
        | error e =>
          rw [hdecoded] at h
          cases h
        | ok back =>
          rw [hdecoded] at h
          dsimp only at h
          cases hverified : back.verifyBoth lib with
          | error e =>
            rw [hverified] at h
            cases h
          | ok u =>
            rw [hverified] at h
            cases h
            exact ⟨r,raw,hsent,hstatus ▸ hpost,hdecoded,hverified⟩
  · rintro ⟨r, raw, h⟩
    simp [issue, h.sent, h.answered, h.decoded, h.verified]

theorem decodeReceipt_print (r : Receipt) (rest : Bytes) :
    decodeReceipt ((receiptJson r).print++rest) = .ok r.sanitized := by
  have hread : decodeFirst receiptFields .zero ((receiptJson r).print++rest) =
      .ok ⟨r.sanitized,r.sanitized.viewerSig,r.sanitized.providerSig⟩ := by
    apply decodeFirst_print
    · exact receiptJson_printable r
    · exact receiptJson_height r
    · exact (congrArg _ (receiptJson_sanitized r)).trans (receiptJson_decode r.sanitized)
  rw [decodeReceipt, hread]
  rfl

/-- Nothing compares the answer with what was sent: one receipt that both sides once signed
satisfies every viewer, whatever it asks a receipt for. -/
theorem issue_replayed (old : Receipt) (rest : Bytes) (htext : old.ValidText)
    (hold : old.verifyBoth lib = .ok ()) (r : Receipt) (hsent : i.sent lib a = .ok r) :
    issue lib i a (fun _ _ => .ok (statusOK,(receiptJson old).print++rest)) = .ok old := by
  rw [issue_ok]
  refine ⟨r, _, hsent, rfl, ?_, hold⟩
  rw [decodeReceipt_print, old.sanitized_eq htext]

end Issue

section Wire
variable {PublicKey PrivateKey : Type} (lib : Libp2p PublicKey PrivateKey)
  (s : AckServer PrivateKey) (errorText : GoError → Bytes)

/-- The status and the body of an answer; both writers end the body with a line feed. -/
def Reply.wire : Reply → ℕ × Bytes
  | .httpError status text => (status,errorText text++[10])
  | .ok receipt => (statusOK,(receiptJson receipt).print++[10])

theorem handle_status (db : Database) (req : Request) (status : ℕ) (text : GoError)
    (h : (handle lib s db req).1 = .httpError status text) : status ≠ statusOK := by
  unfold handle at h
  split at h
  · cases h
    decide
  · split_ifs at h with haddressed
    · cases h
      decide
    · split at h
      · cases h
        decide
      · split at h
        · cases h
          decide
        · split at h
          · cases h
            decide
          · cases h

/-- An answer with 200 carries the receipt that the run acknowledges. -/
theorem handle_acked (n : Node) (req : Request) (raw : Bytes)
    (h : ((handle lib s n.store req).1).wire errorText = (statusOK,raw)) :
    ∃ r signed, Acceptable lib s req r ∧ Cosigned signed r ∧
      lib.sign s.providerPriv req.random r.canonicalBytes = .ok signed.providerSig ∧
      (serve lib s n req).acked = n.acked++[signed] ∧ raw = (receiptJson signed).print++[10] := by
  cases hreply : handle lib s n.store req with
  | mk reply db =>
    cases reply with
    | httpError status text =>
      rw [hreply] at h
      have hstatus := handle_status lib s n.store req status text (by rw [hreply])
      exact absurd (Prod.mk.inj h).1 hstatus
    | ok receipt =>
      rw [hreply] at h
      have hserve : serve lib s n req = ⟨db,n.acked++[receipt]⟩ := by
        rw [serve, hreply]
      rcases serve_cases lib s n req with ⟨hsame, -⟩ | ⟨r, signed, hr, hsigned, hsig, hcases⟩
      · rw [hserve] at hsame
        have hlength := congrArg (fun n => n.acked.length) hsame
        simp at hlength
      · rw [hserve] at hcases
        have hlast : receipt = signed := by
          have hacked := (Node.mk.inj hcases).2
          rwa [List.append_cancel_left_eq, List.cons.injEq, and_iff_left rfl] at hacked
        refine ⟨r, signed, hr, hsigned, hsig, ?_, ?_⟩
        · rw [hserve, hlast]
        · rw [← hlast]
          exact (Prod.mk.inj h).2.symm

/-- An acceptable request is answered with 200. -/
theorem handle_acceptable (n : Node) (req : Request) (r : Receipt) (hr : Acceptable lib s req r) :
    ∃ raw, ((handle lib s n.store req).1).wire errorText = (statusOK,raw) := by
  cases hreply : handle lib s n.store req with
  | mk reply db =>
    cases reply with
    | ok receipt => exact ⟨_,rfl⟩
    | httpError status text =>
      have hserve : serve lib s n req = { n with store := db } := by
        rw [serve, hreply]
      rcases serve_cases lib s n req with ⟨-, hnone⟩ | ⟨r', signed, -, -, -, hcases⟩
      · exact absurd hr (hnone r)
      · rw [hserve] at hcases
        have hlength := congrArg (fun n => n.acked.length) hcases
        simp at hlength

end Wire

section Exchanges

inductive Travel where
  | unsent (e : GoError)
  | unanswered (e : GoError)
  | answered

/-- A call of an issuer, with what the node draws and its database answers if the request
gets there, and with what is answered under any other URL. -/
structure Call (PrivateKey : Type) where
  issuer : Issuer PrivateKey
  asked : Asked
  travel : Travel
  random : Bytes
  fault : Option GoError
  elsewhere : Bytes → Bytes → Except GoError (ℕ × Bytes)

inductive Posting (PrivateKey : Type) where
  | issue (c : Call PrivateKey)
  | post (req : Request)

/-- The node, and every receipt that was sent with the one that came back for it. -/
structure Exchange where
  node : Node
  issued : List (Receipt × Receipt)

def Exchange.start : Exchange := ⟨Por.start,[]⟩

variable {PublicKey PrivateKey : Type} (lib : Libp2p PublicKey PrivateKey)
  (s : AckServer PrivateKey) (errorText : GoError → Bytes)

def Call.transport (c : Call PrivateKey) (n : Node) (url body : Bytes) :
    Except GoError (ℕ × Bytes) :=
  if url = ackURL s.providerPID then
    match c.travel with
    | .unsent e | .unanswered e => .error e
    | .answered =>
      .ok (((handle lib s n.store ⟨body,c.random,c.fault⟩).1).wire errorText)
  else c.elsewhere url body

def Call.arrives (c : Call PrivateKey) : Option Request :=
  match c.issuer.sent lib c.asked, c.travel with
  | .error _, _ | .ok _, .unsent _ => none
  | .ok r, _ =>
    if ackURL c.asked.providerPID = ackURL s.providerPID then
      some ⟨(receiptJson r).print,c.random,c.fault⟩
    else none

def Call.outcome (c : Call PrivateKey) (n : Node) : Except GoError Receipt :=
  issue lib c.issuer c.asked (c.transport lib s errorText n)

def Exchange.next (x : Exchange) : Posting PrivateKey → Exchange
  | .post req => { x with node := serve lib s x.node req }
  | .issue c =>
    ⟨(c.arrives lib s).elim x.node (serve lib s x.node),
      match c.issuer.sent lib c.asked, c.outcome lib s errorText x.node with
      | .ok r, .ok signed => x.issued++[(r,signed)]
      | _, _ => x.issued⟩

variable {lib s errorText}

theorem Call.outcome_acked (c : Call PrivateKey) (n : Node) (r signed : Receipt)
    (hsent : c.issuer.sent lib c.asked = .ok r)
    (haddressed : c.asked.providerPID = s.providerPID)
    (h : c.outcome lib s errorText n = .ok signed) :
    ∃ req, c.arrives lib s = some req ∧ Cosigned signed r.sanitized ∧
      signed ∈ (serve lib s n req).acked := by
  obtain ⟨r', raw, hissued⟩ := (issue_ok lib c.issuer c.asked _ signed).mp h
  have hsame : r' = r := by
    have hsent' := hissued.sent
    rw [hsent] at hsent'
    exact (Except.ok.inj hsent').symm
  have hanswer := hissued.answered
  rw [haddressed, Call.transport, if_pos rfl, hsame] at hanswer
  cases htravel : c.travel with
  | unsent e | unanswered e =>
    rw [htravel] at hanswer
    cases hanswer
  | answered =>
    rw [htravel] at hanswer
    obtain ⟨got, back, hgot, hback, -, hacked, hraw⟩ :=
      handle_acked lib s errorText n _ raw (Except.ok.inj hanswer)
    have hread := hgot.decoded
    have hprint := decodeReceipt_print r []
    rw [List.append_nil] at hprint
    rw [hprint] at hread
    obtain rfl := Except.ok.inj hread
    have hvalid := decodeReceipt_validText _ _ hgot.decoded
    have htext : back.ValidText := by
      rw [hback]
      exact ⟨hvalid.providerPeerID,hvalid.viewerPeerID,hvalid.cid⟩
    have hdecoded := hissued.decoded
    rw [hraw, decodeReceipt_print, back.sanitized_eq htext] at hdecoded
    obtain rfl := Except.ok.inj hdecoded
    refine ⟨⟨(receiptJson r).print,c.random,c.fault⟩, ?_, hback, ?_⟩
    · rw [Call.arrives, hsent, htravel, haddressed]
      exact if_pos rfl
    · rw [hacked]
      exact List.mem_append_right _ (List.mem_singleton.mpr rfl)

theorem Exchange.next_issue (x : Exchange) (c : Call PrivateKey) :
    (x.next lib s errorText (.issue c)).issued = x.issued ∨
    ∃ r signed, c.issuer.sent lib c.asked = .ok r ∧ c.outcome lib s errorText x.node = .ok signed ∧
      signed.verifyBoth lib = .ok () ∧
      (x.next lib s errorText (.issue c)).issued = x.issued++[(r,signed)] := by
  cases hsent : c.issuer.sent lib c.asked with
  | error e =>
    apply Or.inl
    simp only [Exchange.next, hsent]
  | ok r =>
    cases houtcome : c.outcome lib s errorText x.node with
    | error e =>
      apply Or.inl
      simp only [Exchange.next, hsent, houtcome]
    | ok signed =>
      obtain ⟨r', raw, hissued⟩ := (issue_ok lib c.issuer c.asked _ signed).mp houtcome
      refine Or.inr ⟨r, signed, rfl, rfl, hissued.verified, ?_⟩
      simp only [Exchange.next, hsent, houtcome]

theorem Exchange.next_node (x : Exchange) (e : Posting PrivateKey) :
    (x.next lib s errorText e).node = x.node ∨
      ∃ req, (x.next lib s errorText e).node = serve lib s x.node req := by
  cases e with
  | post req => exact Or.inr ⟨req,rfl⟩
  | issue c =>
    cases harrives : c.arrives lib s with
    | none =>
      apply Or.inl
      simp only [Exchange.next, harrives, Option.elim_none]
    | some req =>
      apply Or.inr
      exact ⟨req,by simp only [Exchange.next, harrives, Option.elim_some]⟩

theorem serve_keeps (n : Node) (req : Request) (r : Receipt) (hr : r ∈ n.acked) :
    r ∈ (serve lib s n req).acked := by
  obtain ⟨more, hmore⟩ := acked_append lib s n [req]
  rw [run, run] at hmore
  rw [hmore]
  exact List.mem_append_left _ hr

theorem Exchange.next_keeps (x : Exchange) (e : Posting PrivateKey) (r : Receipt)
    (hr : r ∈ x.node.acked) : r ∈ (x.next lib s errorText e).node.acked := by
  rcases x.next_node e with hsame | ⟨req, hserve⟩
  · rw [hsame]
    exact hr
  · rw [hserve]
    exact serve_keeps x.node req r hr

/-- What viewers hold: verified receipts, and from the node the ones it acknowledged. -/
structure Matched (lib : Libp2p PublicKey PrivateKey) (s : AckServer PrivateKey)
    (x : Exchange) : Prop where
  ledger : Ledger s x.node
  verified : ∀ p ∈ x.issued, p.2.verifyBoth lib = .ok ()
  acked : ∀ p ∈ x.issued, p.1.providerPeerID = s.providerPID →
    Cosigned p.2 p.1.sanitized ∧ p.2 ∈ x.node.acked

theorem sent_provider (i : Issuer PrivateKey) (a : Asked) (r : Receipt)
    (h : i.sent lib a = .ok r) : r.providerPeerID = a.providerPID := by
  unfold Issuer.sent Receipt.signAsViewer at h
  split at h
  · cases h
  · cases h
    rfl

theorem Matched.next {x : Exchange} (hx : Matched lib s x) (e : Posting PrivateKey) :
    Matched lib s (x.next lib s errorText e) := by
  have hledger : Ledger s (x.next lib s errorText e).node := by
    rcases x.next_node e with hsame | ⟨req, hserve⟩
    · rw [hsame]
      exact hx.ledger
    · rw [hserve]
      exact serve_ledger lib s x.node req hx.ledger
  have hkept : ∀ p ∈ x.issued, p.1.providerPeerID = s.providerPID →
      Cosigned p.2 p.1.sanitized ∧ p.2 ∈ (x.next lib s errorText e).node.acked := by
    intro p hp hprovider
    obtain ⟨hcosigned, hacked⟩ := hx.acked p hp hprovider
    exact ⟨hcosigned,x.next_keeps e p.2 hacked⟩
  cases e with
  | post req => exact ⟨hledger,hx.verified,hkept⟩
  | issue c =>
    obtain hsame | ⟨r, signed, hsent, houtcome, hverified, hnew⟩ :
        (x.next lib s errorText (.issue c)).issued = x.issued ∨ _ := x.next_issue c
    · constructor
      · exact hledger
      · rw [hsame]
        exact hx.verified
      · rw [hsame]
        exact hkept
    · constructor
      · exact hledger
      · rw [hnew]
        intro p hp
        rcases List.mem_append.mp hp with hp | hp
        · exact hx.verified p hp
        · rw [List.mem_singleton.mp hp]
          exact hverified
      · rw [hnew]
        intro p hp hprovider
        rcases List.mem_append.mp hp with hp | hp
        · exact hkept p hp hprovider
        · obtain rfl := List.mem_singleton.mp hp
          rw [sent_provider c.issuer c.asked r hsent] at hprovider
          obtain ⟨req, harrives, hcosigned, hacked⟩ :=
            c.outcome_acked x.node r signed hsent hprovider houtcome
          refine ⟨hcosigned, ?_⟩
          rw [Exchange.next, harrives]
          exact hacked

/-- A call of a viewer whose key can be recovered, for well-formed content, that reaches the
node and meets no fault there. -/
structure Honoured (lib : Libp2p PublicKey PrivateKey) (s : AckServer PrivateKey)
    (c : Call PrivateKey) : Prop where
  issuer : newIssuer lib c.issuer.viewerPriv = .ok c.issuer
  viewerKey : Recoverable lib c.issuer.viewerPriv
  viewerSigns : ∃ sig, lib.sign c.issuer.viewerPriv c.asked.random
    (c.issuer.receipt c.asked).canonicalBytes = .ok sig
  providerSigns : ∃ sig, lib.sign s.providerPriv c.random
    (c.issuer.receipt c.asked).canonicalBytes = .ok sig
  cid : Valid c.asked.cid
  addressed : c.asked.providerPID = s.providerPID
  answered : c.travel = .answered
  stored : c.fault = none

theorem newIssuer_ok (priv : PrivateKey) (i : Issuer PrivateKey) (h : newIssuer lib priv = .ok i) :
    i.viewerPriv = priv ∧ lib.peerIDOf priv = .ok i.viewerPID := by
  unfold newIssuer at h
  split at h
  · cases h
  · rename_i pid hpid
    cases h
    exact ⟨rfl,hpid⟩

/-- The texts of peer ids are in Base58. -/
def PlainPeerIDs (lib : Libp2p PublicKey PrivateKey) : Prop :=
  ∀ priv pid, lib.peerIDOf priv = .ok pid → Valid pid ∧ pid ≠ []

theorem Honoured.acceptable {c : Call PrivateKey} (hc : Honoured lib s c)
    (hpids : PlainPeerIDs lib) (hs : newAckServer lib s.providerPriv = .ok s) :
    ∃ r, c.issuer.sent lib c.asked = .ok r ∧ r.ValidText ∧
      Acceptable lib s ⟨(receiptJson r).print,c.random,c.fault⟩ r := by
  obtain ⟨sig, hsig⟩ := hc.viewerSigns
  obtain ⟨-, hviewer⟩ := newIssuer_ok _ _ hc.issuer
  obtain ⟨-, hprovider⟩ := newAckServer_ok lib _ s hs
  obtain ⟨pub, hpub, hverify⟩ := hc.viewerKey _ hviewer
  obtain ⟨hlength, haccepted⟩ := hverify _ _ _ hsig
  have hvalid : ({ c.issuer.receipt c.asked with viewerSig := sig } : Receipt).ValidText := by
    constructor
    · show Valid c.asked.providerPID
      rw [hc.addressed]
      exact (hpids _ _ hprovider).1
    · exact (hpids _ _ hviewer).1
    · exact hc.cid
  refine ⟨{ c.issuer.receipt c.asked with viewerSig := sig }, ?_, hvalid, ?_⟩
  · rw [Issuer.sent, Receipt.signAsViewer, hsig]
  · constructor
    · have hprint := decodeReceipt_print { c.issuer.receipt c.asked with viewerSig := sig } []
      rw [List.append_nil, Receipt.sanitized_eq _ hvalid] at hprint
      exact hprint
    · exact hc.addressed
    · show c.asked.providerPID ≠ []
      rw [hc.addressed]
      exact (hpids _ _ hprovider).2
    · show Receipt.verifySig lib "viewer" c.issuer.viewerPID sig _ = .ok ()
      rw [Receipt.verifySig, if_neg hlength, hpub]
      dsimp only
      rw [show Receipt.canonicalBytes { c.issuer.receipt c.asked with viewerSig := sig } =
        (c.issuer.receipt c.asked).canonicalBytes from rfl, haccepted]
    · exact hc.providerSigns
    · exact hc.stored

theorem Honoured.issued {c : Call PrivateKey} (hc : Honoured lib s c) (hpids : PlainPeerIDs lib)
    (hs : newAckServer lib s.providerPriv = .ok s) (hkey : Recoverable lib s.providerPriv)
    (x : Exchange) : ∃ r signed, c.issuer.sent lib c.asked = .ok r ∧ Cosigned signed r ∧
      (x.next lib s errorText (.issue c)).issued = x.issued++[(r,signed)] := by
  obtain ⟨r, hsent, hvalid, hr⟩ := hc.acceptable hpids hs
  obtain ⟨raw, hwire⟩ := handle_acceptable lib s errorText x.node _ r hr
  obtain ⟨got, back, hgot, hback, hsig, -, hraw⟩ :=
    handle_acked lib s errorText x.node _ raw hwire
  have hsame : got = r := by
    have hdecoded := hgot.decoded
    rw [hr.decoded] at hdecoded
    exact (Except.ok.inj hdecoded).symm
  rw [hsame] at hgot hback hsig
  have hverified := cosigned_verifyBoth lib s hs hkey _ r back hgot hback hsig
  have htext : back.ValidText := by
    rw [hback]
    exact ⟨hvalid.providerPeerID,hvalid.viewerPeerID,hvalid.cid⟩
  have houtcome : c.outcome lib s errorText x.node = .ok back := by
    apply (issue_ok lib c.issuer c.asked _ back).mpr
    refine ⟨r, raw, hsent, ?_, ?_, hverified⟩
    · rw [hc.addressed, Call.transport, if_pos rfl, hc.answered]
      exact congrArg Except.ok hwire
    · rw [hraw, decodeReceipt_print, back.sanitized_eq htext]
  refine ⟨r, back, hsent, hback, ?_⟩
  simp only [Exchange.next, hsent, houtcome]

theorem Exchange.next_issued (x : Exchange) (e : Posting PrivateKey) (p : Receipt × Receipt)
    (hp : p ∈ x.issued) : p ∈ (x.next lib s errorText e).issued := by
  cases e with
  | post req => exact hp
  | issue c =>
    obtain hsame | ⟨r, signed, -, -, -, hnew⟩ :
        (x.next lib s errorText (.issue c)).issued = x.issued ∨ _ := x.next_issue c
    · rw [hsame]
      exact hp
    · rw [hnew]
      exact List.mem_append_left _ hp

theorem Exchange.run_issued (x : Exchange) (events : List (Posting PrivateKey))
    (p : Receipt × Receipt) (hp : p ∈ x.issued) :
    p ∈ (run (Exchange.next lib s errorText) x events).issued := by
  apply run_invariant (Exchange.next lib s errorText) (fun x => p ∈ x.issued)
  · exact fun x e h => x.next_issued e p h
  · exact hp

theorem Exchange.honoured_issued (hpids : PlainPeerIDs lib)
    (hs : newAckServer lib s.providerPriv = .ok s) (hkey : Recoverable lib s.providerPriv)
    (c : Call PrivateKey) (hc : Honoured lib s c) (x : Exchange)
    (events : List (Posting PrivateKey)) (h : .issue c ∈ events) :
    ∃ r signed, c.issuer.sent lib c.asked = .ok r ∧ Cosigned signed r ∧
      (r,signed) ∈ (run (Exchange.next lib s errorText) x events).issued := by
  induction events generalizing x with
  | nil => exact absurd h List.not_mem_nil
  | cons e events ih =>
    rcases List.mem_cons.mp h with rfl | h
    · obtain ⟨r, signed, hsent, hcosigned, hnew⟩ := hc.issued hpids hs hkey x
      have hmem : (r,signed) ∈ (x.next lib s errorText (.issue c)).issued := by
        rw [hnew]
        exact List.mem_append_right _ (List.mem_singleton.mpr rfl)
      exact ⟨r,signed,hsent,hcosigned,Exchange.run_issued _ events _ hmem⟩
    · exact ih _ h

/-- Whatever is posted to the node, by its viewers or by anyone, and however their requests
fare: what a viewer got back for a request to the node is its receipt with the node's
signature, acknowledged there and listed under its key; every call that can be honoured is;
and any distinct receipts that viewers got back settle together. -/
theorem issued_settle (priv : PrivateKey) (hs : newAckServer lib priv = .ok s)
    (hkey : Recoverable lib priv) (hpids : PlainPeerIDs lib) (events : List (Posting PrivateKey)) :
    let x := run (Exchange.next lib s errorText) Exchange.start events
    (∃ rs, list x.node.store = .ok rs ∧ ∀ p ∈ x.issued, p.1.providerPeerID = s.providerPID →
      Cosigned p.2 p.1.sanitized ∧ p.2 ∈ x.node.acked ∧
        ∃ r ∈ rs, receiptKey r = receiptKey p.2) ∧
    (∀ c, .issue c ∈ events → Honoured lib s c → ∃ r signed,
      c.issuer.sent lib c.asked = .ok r ∧ Cosigned signed r ∧ (r,signed) ∈ x.issued) ∧
    ∀ rs, rs ≠ [] → (∀ r ∈ rs, r ∈ x.issued.map Prod.snd) →
      rs.Pairwise (fun r r' => ¬ (r.providerPeerID = r'.providerPeerID ∧
        r.timestampUnix = r'.timestampUnix ∧ r.nonce = r'.nonce)) →
      ∃ t, buildSettlement lib rs = .ok t := by
  intro x
  obtain ⟨rfl, -⟩ := newAckServer_ok lib priv s hs
  have hmatched : Matched lib s x := by
    apply run_invariant (Exchange.next lib s errorText) (Matched lib s)
    · exact fun x e hx => hx.next e
    · exact ⟨start_ledger s,fun _ h => absurd h List.not_mem_nil,
        fun _ h => absurd h List.not_mem_nil⟩
  obtain ⟨listed, hlist, -⟩ := list_ok _ hmatched.ledger.recorded
  refine ⟨⟨listed, hlist, ?_⟩, ?_, ?_⟩
  · intro p hp hprovider
    obtain ⟨hcosigned, hacked⟩ := hmatched.acked p hp hprovider
    obtain ⟨r, hr, hsame, hstored⟩ := hmatched.ledger.kept p.2 hacked
    refine ⟨hcosigned, hacked, r, ?_, hsame⟩
    exact (hmatched.ledger.mem_list s listed hlist r).mpr ⟨hr,hsame ▸ hstored⟩
  · exact fun c hc hhonoured =>
      Exchange.honoured_issued hpids hs hkey c hhonoured Exchange.start events hc
  · intro rs hne hissued hdistinct
    apply buildSettlement_of_distinct lib rs hne _ hdistinct
    intro r hr
    obtain ⟨p, hp, rfl⟩ := List.mem_map.mp (hissued r hr)
    exact hmatched.verified p hp

section Samples

def plainLib : Libp2p Bytes Bytes where
  decodePeerID := .ok
  extractPublicKey := .ok
  verify := fun _ _ sig => .ok (sig == [1])
  sign := fun _ _ _ => .ok [1]
  peerIDOf := fun priv => .ok (if priv = [0] then ascii "v" else ascii "p")

def sampleCall : Call Bytes where
  issuer := ⟨[0],ascii "v"⟩
  asked := ⟨ascii "p",ascii "c",0,10,5,1,[]⟩
  travel := .answered
  random := []
  fault := none
  elsewhere := fun _ _ => .error (.new "no route")

def plainServer : AckServer Bytes := ⟨[2],ascii "p"⟩

theorem plainLib_recoverable (priv : Bytes) : Recoverable plainLib priv := by
  rintro pid -
  refine ⟨pid, rfl, ?_⟩
  rintro random msg sig ⟨⟩
  exact ⟨by decide,rfl⟩

theorem plainLib_peerIDs : PlainPeerIDs plainLib := by
  rintro priv pid ⟨⟩
  split_ifs
  · exact ⟨valid_ascii _ (by decide +kernel),by decide⟩
  · exact ⟨valid_ascii _ (by decide +kernel),by decide⟩

theorem sampleCall_honoured : Honoured plainLib plainServer sampleCall where
  issuer := rfl
  viewerKey := plainLib_recoverable _
  viewerSigns := ⟨_,rfl⟩
  providerSigns := ⟨_,rfl⟩
  cid := valid_ascii _ (by decide +kernel)
  addressed := rfl
  answered := rfl
  stored := rfl

theorem issued_settle_once : ∃ r signed, sampleCall.issuer.sent plainLib sampleCall.asked = .ok r ∧
    Cosigned signed r ∧ (r,signed) ∈ (run (Exchange.next plainLib plainServer fun _ => [])
      Exchange.start [.issue sampleCall]).issued :=
  (issued_settle [2] rfl (plainLib_recoverable _) plainLib_peerIDs [.issue sampleCall]).2.1
    sampleCall List.mem_cons_self sampleCall_honoured

def replayed : Receipt := { sampleReceipt "w" with providerSig := [1] }

/-- A viewer that asks for segment 0 of "c" is handed the receipt of another. -/
theorem issue_replayed_once :
    issue plainLib sampleCall.issuer sampleCall.asked
      (fun _ _ => .ok (statusOK,(receiptJson replayed).print++[10])) = .ok replayed := by
  obtain ⟨r, hr⟩ : ∃ r, sampleCall.issuer.sent plainLib sampleCall.asked = .ok r := ⟨_,rfl⟩
  apply issue_replayed plainLib sampleCall.issuer sampleCall.asked replayed [10] _ rfl r hr
  exact ⟨valid_ascii _ (by decide +kernel),valid_ascii _ (by decide +kernel),valid_ascii _ (by decide +kernel)⟩

end Samples

end Exchanges

end Aevia.Por
