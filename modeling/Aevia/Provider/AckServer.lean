import Aevia.Foundation.Run
import Aevia.Provider.ReceiptStore

/-!
# Acknowledging receipts

The server behind `POST /ack`: decode, check the addressee and the viewer's
signature, co-sign, store, answer. Two viewers may choose the same timestamp and
nonce, and the store keeps one receipt for both.
-/

set_option autoImplicit false

namespace Aevia.Por
open Aevia.Bytes Aevia.Fallible Aevia.KeyValue Aevia.Run Aevia.Storage Aevia.StoreProgram

structure AckServer (PrivateKey : Type) where
  providerPriv : PrivateKey
  providerPID : Bytes

/-- A request body, the random bytes a signature may draw on, and what the
database answers to the write. -/
structure Request where
  body : Bytes
  random : Bytes
  fault : Option GoError

def statusBadRequest : ℕ := 400
def statusInternalServerError : ℕ := 500

/-- Status 200 carries the signed receipt as a document of its own. -/
inductive Reply where
  | httpError (status : ℕ) (text : GoError)
  | ok (receipt : Receipt)

section Server
variable {PublicKey PrivateKey : Type} (lib : Libp2p PublicKey PrivateKey)

def newAckServer (priv : PrivateKey) : Except GoError (AckServer PrivateKey) :=
  match lib.peerIDOf priv with
  | .error e => .error (.wrap "por: derive peer id: %w" [] e)
  | .ok pid => .ok ⟨priv, pid⟩

variable (s : AckServer PrivateKey)

def handle (db : Database) (req : Request) : Reply × Database :=
  match decodeReceipt req.body with
  | .error e => (.httpError statusBadRequest (.wrap "decode: %w" [] e), db)
  | .ok receipt =>
    if receipt.providerPeerID ≠ s.providerPID then
      (.httpError statusBadRequest (.new "receipt is not addressed to this provider"), db)
    else match receipt.verifyViewerSig lib with
    | .error e => (.httpError statusBadRequest (.wrap "viewer sig: %w" [] e), db)
    | .ok () => match receipt.signAsProvider lib s.providerPriv req.random with
      | .error e => (.httpError statusInternalServerError (.wrap "provider sign: %w" [] e), db)
      | .ok signed => match (put signed).runAlone req.fault db with
        | (.error e, db) =>
          (.httpError statusInternalServerError (.wrap "store: %w" [] e), db)
        | (.ok (), db) => (.ok signed, db)

structure Node where
  store : Database
  acked : List Receipt

def start : Node := ⟨Map.empty, []⟩

def serve (n : Node) (req : Request) : Node :=
  match handle lib s n.store req with
  | (.httpError _ _, db) => { n with store := db }
  | (.ok receipt, db) => ⟨db, n.acked++[receipt]⟩

structure Acceptable (req : Request) (r : Receipt) : Prop where
  decoded : decodeReceipt req.body = .ok r
  addressed : r.providerPeerID = s.providerPID
  named : r.providerPeerID ≠ []
  viewerSig : r.verifyViewerSig lib = .ok ()
  providerSig : ∃ sig, lib.sign s.providerPriv req.random r.canonicalBytes = .ok sig
  stored : req.fault = none

/-- Every acknowledged receipt is listed. -/
def Durable (n : Node) : Prop :=
  ∃ rs, list n.store = .ok rs ∧ ∀ r ∈ n.acked, ∃ r' ∈ rs, SameReceipt r r'

def Cosigned (signed r : Receipt) : Prop := signed = { r with providerSig := signed.providerSig }

/-- A request either fails and changes nothing, or its receipt is signed, stored
and answered. -/
theorem serve_cases (n : Node) (req : Request) :
    (serve lib s n req = n ∧ ∀ r, ¬ Acceptable lib s req r) ∨
    ∃ r signed, Acceptable lib s req r ∧ Cosigned signed r ∧
      lib.sign s.providerPriv req.random r.canonicalBytes = .ok signed.providerSig ∧
      serve lib s n req = ⟨applyBatch n.store [putWrite signed], n.acked++[signed]⟩ := by
  unfold serve handle
  cases hdecode : decodeReceipt req.body with
  | error e =>
    refine Or.inl ⟨rfl, fun r h => ?_⟩
    rw [h.decoded] at hdecode
    cases hdecode
  | ok r =>
    have hsame : ∀ r', Acceptable lib s req r' → r' = r := by
      intro r' h
      rw [h.decoded] at hdecode
      exact Except.ok.inj hdecode
    dsimp only
    by_cases haddressed : r.providerPeerID = s.providerPID
    · rw [if_neg (not_not.mpr haddressed)]
      cases hviewer : r.verifyViewerSig lib with
      | error e =>
        refine Or.inl ⟨rfl, fun r' h => ?_⟩
        have hsig := h.viewerSig
        rw [hsame r' h, hviewer] at hsig
        cases hsig
      | ok u =>
        dsimp only
        unfold Receipt.signAsProvider
        cases hsign : lib.sign s.providerPriv req.random r.canonicalBytes with
        | error e =>
          refine Or.inl ⟨rfl, fun r' h => ?_⟩
          obtain ⟨sig, hsig⟩ := h.providerSig
          rw [hsame r' h, hsign] at hsig
          cases hsig
        | ok sig =>
          dsimp only
          rw [runAlone_put]
          by_cases hnamed : r.providerPeerID = []
          · rw [if_pos hnamed]
            refine Or.inl ⟨rfl, fun r' h => ?_⟩
            exact h.named (by rw [hsame r' h]; exact hnamed)
          · rw [if_neg hnamed]
            cases hfault : req.fault with
            | some e =>
              refine Or.inl ⟨rfl, fun r' h => ?_⟩
              rw [h.stored] at hfault
              cases hfault
            | none =>
              exact Or.inr ⟨r,{ r with providerSig := sig },
                ⟨hdecode,haddressed,hnamed,hviewer,⟨sig,hsign⟩,hfault⟩,rfl,hsign,rfl⟩
    · rw [if_pos haddressed]
      refine Or.inl ⟨rfl, fun r' h => ?_⟩
      exact haddressed (by rw [← hsame r' h]; exact h.addressed)

structure Ledger (n : Node) : Prop where
  valid : ∀ r ∈ n.acked, r.ValidText ∧ r.providerPeerID = s.providerPID
  kept : ∀ r ∈ n.acked, ∃ r' ∈ n.acked, receiptKey r' = receiptKey r ∧
    n.store.get (receiptKey r) = some (receiptJson r').print
  stored : ∀ key raw, prefixReceipt.isPrefixOf key = true → n.store.get key = some raw →
    ∃ r ∈ n.acked, key = receiptKey r ∧ raw = (receiptJson r).print

theorem start_ledger : Ledger s start := ⟨by simp [start],by simp [start],by simp [start]⟩

theorem serve_ledger (n : Node) (req : Request) (h : Ledger s n) :
    Ledger s (serve lib s n req) := by
  rcases serve_cases lib s n req with ⟨hsame, -⟩ | ⟨r, signed, hr, hsigned, -, hserve⟩
  · rw [hsame]
    exact h
  rw [hserve]
  have hvalid := decodeReceipt_validText req.body r hr.decoded
  have hnew : (applyBatch n.store [putWrite signed]).get (receiptKey signed) =
      some (receiptJson signed).print :=
    get_applyBatch n.store [putWrite signed] (by simp) (putWrite signed) List.mem_cons_self
  have hother : ∀ key, key ≠ receiptKey signed →
      (applyBatch n.store [putWrite signed]).get key = n.store.get key :=
    fun key hkey => get_applyBatch_other n.store _ key (by simpa [putWrite, Write.key] using hkey)
  have hmem : signed ∈ n.acked++[signed] := by simp
  refine ⟨?_, ?_, ?_⟩
  · intro r' hr'
    rcases List.mem_append.mp hr' with hr' | hr'
    · exact h.valid r' hr'
    · rw [List.mem_singleton.mp hr', hsigned]
      exact ⟨⟨hvalid.providerPeerID,hvalid.viewerPeerID,hvalid.cid⟩,hr.addressed⟩
  · intro r' hr'
    by_cases hkey : receiptKey r' = receiptKey signed
    · exact ⟨signed,hmem,hkey.symm,by rw [hkey]; exact hnew⟩
    · rcases List.mem_append.mp hr' with hr' | hr'
      · obtain ⟨k, hk, hkk, hstored⟩ := h.kept r' hr'
        exact ⟨k,List.mem_append_left _ hk,hkk,by rw [hother _ hkey]; exact hstored⟩
      · exact (hkey (by rw [List.mem_singleton.mp hr'])).elim
  · intro key raw hpre hraw
    change (applyBatch n.store [putWrite signed]).get key = some raw at hraw
    by_cases hkey : key = receiptKey signed
    · rw [hkey, hnew] at hraw
      exact ⟨signed,hmem,hkey,(Option.some.inj hraw).symm⟩
    · rw [hother key hkey] at hraw
      obtain ⟨k, hk, hrest⟩ := h.stored key raw hpre hraw
      exact ⟨k,List.mem_append_left _ hk,hrest⟩

theorem acked_append (n : Node) (reqs : List Request) :
    ∃ more, (run (serve lib s) n reqs).acked = n.acked++more := by
  induction reqs generalizing n with
  | nil => exact ⟨[],by simp [run]⟩
  | cons req reqs ih =>
    obtain ⟨more, hmore⟩ := ih (serve lib s n req)
    rw [run, hmore]
    rcases serve_cases lib s n req with ⟨hsame, -⟩ | ⟨r, signed, -, -, -, hserve⟩
    · rw [hsame]
      exact ⟨more,rfl⟩
    · rw [hserve]
      exact ⟨signed::more,by simp⟩

theorem acked_of_acceptable (n : Node) (reqs : List Request) (req : Request) (hreq : req ∈ reqs)
    (r : Receipt) (hr : Acceptable lib s req r) :
    ∃ signed ∈ (run (serve lib s) n reqs).acked, Cosigned signed r := by
  induction reqs generalizing n with
  | nil => cases hreq
  | cons first reqs ih =>
    rcases List.mem_cons.mp hreq with rfl | hreq
    · rcases serve_cases lib s n req with ⟨-, hnone⟩ | ⟨r', signed, hr', hsigned, -, hserve⟩
      · exact (hnone r hr).elim
      · obtain ⟨more, hmore⟩ := acked_append lib s (serve lib s n req) reqs
        have hsame : r' = r := by
          have hdecoded := hr'.decoded
          rw [hr.decoded] at hdecoded
          exact (Except.ok.inj hdecoded).symm
        refine ⟨signed, ?_, hsame ▸ hsigned⟩
        rw [run, hmore, hserve]
        simp
    · exact ih (serve lib s n first) hreq

theorem acceptable_of_acked (n : Node) (reqs : List Request) (signed : Receipt)
    (h : signed ∈ (run (serve lib s) n reqs).acked) :
    signed ∈ n.acked ∨ ∃ req ∈ reqs, ∃ r, Acceptable lib s req r ∧ Cosigned signed r := by
  induction reqs generalizing n with
  | nil => exact Or.inl h
  | cons req reqs ih =>
    rcases ih (serve lib s n req) h with h | ⟨req', hreq', hr⟩
    · rcases serve_cases lib s n req with ⟨hsame, -⟩ | ⟨r, signed', hr, hsigned, -, hserve⟩
      · rw [hsame] at h
        exact Or.inl h
      · rw [hserve] at h
        rcases List.mem_append.mp h with h | h
        · exact Or.inl h
        · rw [List.mem_singleton.mp h]
          exact Or.inr ⟨req,List.mem_cons_self,r,hr,hsigned⟩
    · exact Or.inr ⟨req',List.mem_cons_of_mem _ hreq',hr⟩

theorem Cosigned.same {signed r : Receipt} (h : Cosigned signed r) : SameReceipt signed r := by
  rw [h]
  exact ⟨rfl,rfl,rfl,rfl,rfl,rfl,rfl⟩

theorem Ledger.recorded {n : Node} (h : Ledger s n) : Recorded n.store := by
  intro key raw hpre hraw
  obtain ⟨r, -, hkey, hprint⟩ := h.stored key raw hpre hraw
  exact ⟨r,hkey,hprint⟩

theorem Ledger.mem_list {n : Node} (h : Ledger s n) (rs : List Receipt)
    (hlist : list n.store = .ok rs) (r : Receipt) :
    r ∈ rs ↔ r ∈ n.acked ∧ n.store.get (receiptKey r) = some (receiptJson r).print := by
  rw [Por.mem_list n.store h.recorded rs hlist r]
  constructor
  · rintro ⟨k, hk, rfl⟩
    obtain ⟨k', hk', hkey, hprint⟩ := h.stored _ _ (prefixReceipt_receiptKey k) hk
    have hsanitized := receiptJson_inj k k' hprint
    rw [k'.sanitized_eq (h.valid k' hk').1] at hsanitized
    rw [hsanitized, ← hkey, ← hprint]
    exact ⟨hk',hk⟩
  · rintro ⟨hr, hstored⟩
    exact ⟨r,hstored,(r.sanitized_eq (h.valid r hr).1).symm⟩

/-- Every acknowledged receipt is listed afterwards exactly when no two
acceptable requests with one timestamp and nonce differ in viewer or content. -/
theorem acknowledged_durable (reqs : List Request) :
    Durable (run (serve lib s) start reqs) ↔
      ∀ req₁ ∈ reqs, ∀ req₂ ∈ reqs, ∀ r₁ r₂, Acceptable lib s req₁ r₁ → Acceptable lib s req₂ r₂ →
        r₁.timestampUnix = r₂.timestampUnix → r₁.nonce = r₂.nonce → SameReceipt r₁ r₂ := by
  have hledger := run_invariant (serve lib s) (Ledger s) (fun n req => serve_ledger lib s n req)
    start reqs (start_ledger s)
  obtain ⟨rs, hlist, -⟩ := list_ok _ hledger.recorded
  have hmem := hledger.mem_list s rs hlist
  constructor
  · rintro ⟨rs', hlist', hdurable⟩ req₁ hreq₁ req₂ hreq₂ r₁ r₂ hr₁ hr₂ hts hnonce
    rw [hlist] at hlist'
    cases hlist'
    obtain ⟨signed₁, hacked₁, hcosigned₁⟩ := acked_of_acceptable lib s start reqs req₁ hreq₁ r₁ hr₁
    obtain ⟨signed₂, hacked₂, hcosigned₂⟩ := acked_of_acceptable lib s start reqs req₂ hreq₂ r₂ hr₂
    obtain ⟨k₁, hk₁, hsame₁⟩ := hdurable signed₁ hacked₁
    obtain ⟨k₂, hk₂, hsame₂⟩ := hdurable signed₂ hacked₂
    have h₁ := hcosigned₁.same.symm.trans hsame₁
    have h₂ := hcosigned₂.same.symm.trans hsame₂
    -- Both stand under the same key, so they are the same stored receipt.
    have hkey : receiptKey k₁ = receiptKey k₂ := by
      refine receiptKey_congr k₁ k₂ ?_ ?_ ?_
      · rw [← h₁.provider, ← h₂.provider, hr₁.addressed, hr₂.addressed]
      · rw [← h₁.timestamp, ← h₂.timestamp, hts]
      · rw [← h₁.nonce, ← h₂.nonce, hnonce]
    obtain ⟨hacked₁, hstored₁⟩ := (hmem k₁).mp hk₁
    obtain ⟨hacked₂, hstored₂⟩ := (hmem k₂).mp hk₂
    rw [hkey, hstored₂, Option.some.injEq] at hstored₁
    have hsanitized := receiptJson_inj k₂ k₁ hstored₁
    rw [k₁.sanitized_eq (hledger.valid k₁ hacked₁).1, k₂.sanitized_eq (hledger.valid k₂ hacked₂).1]
      at hsanitized
    rw [hsanitized] at h₂
    exact h₁.trans h₂.symm
  · intro hcondition
    refine ⟨rs, hlist, fun signed hsigned => ?_⟩
    obtain ⟨k, hk, hkey, hstored⟩ := hledger.kept signed hsigned
    refine ⟨k, (hmem k).mpr ⟨hk,hkey ▸ hstored⟩, ?_⟩
    have hacked := fun r hr => (acceptable_of_acked lib s start reqs r hr).resolve_left (by simp [start])
    obtain ⟨req₁, hreq₁, r₁, hr₁, hcosigned₁⟩ := hacked signed hsigned
    obtain ⟨req₂, hreq₂, r₂, hr₂, hcosigned₂⟩ := hacked k hk
    obtain ⟨-, hts, hnonce⟩ := receiptKey_inj k signed hkey
    have h₁ := hcosigned₁.same
    have h₂ := hcosigned₂.same
    have hsame := hcondition req₁ hreq₁ req₂ hreq₂ r₁ r₂ hr₁ hr₂
      (by rw [← h₁.timestamp, ← h₂.timestamp, hts]) (by rw [← h₁.nonce, ← h₂.nonce, hnonce])
    exact (h₁.trans hsame).trans h₂.symm

end Server

section Samples

def sampleServer : AckServer Bytes := ⟨ascii "p", ascii "p"⟩

def sampleRequest (viewer : String) : Request :=
  ⟨(receiptJson (sampleReceipt viewer)).print, [], none⟩

/-- Two viewers with one timestamp and nonce: both are answered with 200, one
receipt is left. -/
theorem second_viewer_overwrites :
    (run (serve sampleLib sampleServer) start [sampleRequest "v", sampleRequest "w"]).acked.map
      Receipt.viewerPeerID = [ascii "v", ascii "w"] ∧
    ¬ Durable (run (serve sampleLib sampleServer) start [sampleRequest "v", sampleRequest "w"]) := by
  have hlist : list (run (serve sampleLib sampleServer) start
      [sampleRequest "v", sampleRequest "w"]).store =
        .ok [{ sampleReceipt "w" with providerSig := [1] }] := by
    decide +kernel
  have hacked : (run (serve sampleLib sampleServer) start
      [sampleRequest "v", sampleRequest "w"]).acked =
        [{ sampleReceipt "v" with providerSig := [1] },
          { sampleReceipt "w" with providerSig := [1] }] := by
    decide +kernel
  refine ⟨by rw [hacked]; rfl, ?_⟩
  rintro ⟨rs, hrs, hdurable⟩
  rw [hlist] at hrs
  cases hrs
  rw [hacked] at hdurable
  obtain ⟨r, hr, hsame⟩ := hdurable _ List.mem_cons_self
  have hviewer := hsame.viewer
  rw [List.mem_singleton.mp hr] at hviewer
  revert hviewer
  decide

end Samples

end Aevia.Por
