import Aevia.Provider.AckServer
import Aevia.Provider.Settlement

/-!
# Acknowledged receipts settle

The server only stores receipts whose two signatures verify over the bytes the
settlement will verify, and the store keeps one receipt for a timestamp and a
nonce. So nothing a viewer posts can make a later settlement fail.
-/

set_option autoImplicit false

namespace Aevia.Por
open Aevia.Bytes Aevia.Fallible Aevia.KeyValue Aevia.Run Aevia.Storage

section Keys

/-- The key of a receipt is that of the peer id: it can be recovered from it, and
it verifies what the receipt's key signs. -/
def Recoverable {PublicKey PrivateKey : Type} (lib : Libp2p PublicKey PrivateKey)
    (priv : PrivateKey) : Prop :=
  ∀ pid, lib.peerIDOf priv = .ok pid → ∃ pub, Receipt.pubKeyFromPeerID lib pid = .ok pub ∧
    ∀ random msg sig, lib.sign priv random msg = .ok sig →
      sig.length ≠ 0 ∧ lib.verify pub msg sig = .ok true

variable {PublicKey PrivateKey : Type} (lib : Libp2p PublicKey PrivateKey)

theorem newAckServer_ok (priv : PrivateKey) (s : AckServer PrivateKey)
    (h : newAckServer lib priv = .ok s) :
    s.providerPriv = priv ∧ lib.peerIDOf priv = .ok s.providerPID := by
  unfold newAckServer at h
  cases hpid : lib.peerIDOf priv with
  | error e =>
    rw [hpid] at h
    cases h
  | ok pid =>
    rw [hpid] at h
    cases h
    exact ⟨rfl,rfl⟩

theorem cosigned_verifyBoth (s : AckServer PrivateKey) (hs : newAckServer lib s.providerPriv = .ok s)
    (hkey : Recoverable lib s.providerPriv) (req : Request) (r signed : Receipt)
    (hr : Acceptable lib s req r) (hsigned : Cosigned signed r)
    (hsig : lib.sign s.providerPriv req.random r.canonicalBytes = .ok signed.providerSig) :
    signed.verifyBoth lib = .ok () := by
  obtain ⟨-, hpid⟩ := newAckServer_ok lib _ s hs
  obtain ⟨pub, hpub, hverify⟩ := hkey _ hpid
  obtain ⟨hlen, haccepted⟩ := hverify _ _ _ hsig
  have hviewer : signed.verifyViewerSig lib = .ok () := by
    rw [hsigned]
    exact hr.viewerSig
  have hbytes : signed.canonicalBytes = r.canonicalBytes := hsigned.same.canonicalBytes
  have hprovider : signed.providerPeerID = s.providerPID := by
    rw [hsigned.same.provider]
    exact hr.addressed
  rw [Receipt.verifyBoth, bind_ok]
  refine ⟨(), hviewer, ?_⟩
  rw [Receipt.verifyProviderSig, Receipt.verifySig, if_neg hlen, hprovider, hpub, hbytes]
  dsimp only
  rw [haccepted]

end Keys

section Runs
variable {PublicKey PrivateKey : Type} (lib : Libp2p PublicKey PrivateKey)
  (s : AckServer PrivateKey)

theorem serve_verified (hs : newAckServer lib s.providerPriv = .ok s)
    (hkey : Recoverable lib s.providerPriv) (n : Node) (req : Request)
    (h : ∀ r ∈ n.acked, r.verifyBoth lib = .ok ()) :
    ∀ r ∈ (serve lib s n req).acked, r.verifyBoth lib = .ok () := by
  rcases serve_cases lib s n req with ⟨hsame, -⟩ | ⟨r, signed, hr, hsigned, hsig, hserve⟩
  · rw [hsame]
    exact h
  · rw [hserve]
    intro r' hr'
    rcases List.mem_append.mp hr' with hr' | hr'
    · exact h r' hr'
    · rw [List.mem_singleton.mp hr']
      exact cosigned_verifyBoth lib s hs hkey req r signed hr hsigned hsig

theorem Ledger.listed_keys {n : Node} (h : Ledger s n) (rs : List Receipt)
    (hlist : list n.store = .ok rs) :
    rs.map receiptKey = listKeysWithPrefix n.store prefixReceipt := by
  have hreads := (readReceipts_ok n.store _ rs).mp hlist
  have hkey : ∀ key r, ReadsAs n.store key r → prefixReceipt.isPrefixOf key = true →
      receiptKey r = key := by
    rintro key r ⟨raw, hraw, hread⟩ hpre
    obtain ⟨k, hk, rfl, rfl⟩ := h.stored key raw hpre hraw
    rw [unmarshalReceipt_print, k.sanitized_eq (h.valid k hk).1, Except.ok.injEq] at hread
    rw [hread]
  have hpre : ∀ key ∈ listKeysWithPrefix n.store prefixReceipt,
      prefixReceipt.isPrefixOf key = true := fun key hk => ((mem_listKeys n.store key).mp hk).2
  clear hlist
  generalize listKeysWithPrefix n.store prefixReceipt = keys at hreads hpre
  induction hreads with
  | nil => rfl
  | cons hread _ ih =>
    rw [List.map_cons, hkey _ _ hread (hpre _ List.mem_cons_self),
      ih (fun key hk => hpre key (List.mem_cons_of_mem _ hk))]

theorem Ledger.listed_distinct {n : Node} (h : Ledger s n) (rs : List Receipt)
    (hlist : list n.store = .ok rs) : rs.Pairwise (fun r r' =>
      ¬ (r.providerPeerID = r'.providerPeerID ∧ r.timestampUnix = r'.timestampUnix ∧
        r.nonce = r'.nonce)) := by
  have hnodup : (rs.map receiptKey).Nodup := by
    rw [h.listed_keys s rs hlist, listKeysWithPrefix]
    exact (Map.keys_nodup n.store).filter _
  apply (List.pairwise_map.mp hnodup).imp
  rintro r r' hne ⟨hprovider, hts, hnonce⟩
  exact hne (receiptKey_congr r r' hprovider hts hnonce)

/-- Whatever is posted to a server whose key can be recovered from its peer id,
the stored receipts verify, are distinct, and every choice of them settles. -/
theorem acknowledged_settle (priv : PrivateKey) (hs : newAckServer lib priv = .ok s)
    (hkey : Recoverable lib priv) (reqs : List Request) :
    ∃ rs, list (run (serve lib s) start reqs).store = .ok rs ∧
      (∀ r ∈ rs, r.verifyBoth lib = .ok ()) ∧
      rs.Pairwise (fun r r' => ¬ (r.providerPeerID = r'.providerPeerID ∧
        r.timestampUnix = r'.timestampUnix ∧ r.nonce = r'.nonce)) ∧
      ∀ sub, sub.Sublist rs → sub ≠ [] → ∃ t, buildSettlement lib sub = .ok t := by
  obtain ⟨rfl, -⟩ := newAckServer_ok lib priv s hs
  have hledger := run_invariant (serve lib s) (Ledger s) (fun n req => serve_ledger lib s n req)
    start reqs (start_ledger s)
  have hverified := run_invariant (serve lib s) (fun n => ∀ r ∈ n.acked, r.verifyBoth lib = .ok ())
    (serve_verified lib s hs hkey) start reqs (fun r hr => (List.not_mem_nil hr).elim)
  obtain ⟨rs, hlist, -⟩ := list_ok _ hledger.recorded
  have hacked : ∀ r ∈ rs, r ∈ (run (serve lib s) start reqs).acked :=
    fun r hr => ((hledger.mem_list s rs hlist r).mp hr).1
  have hsettled : ∀ r ∈ rs, r.verifyBoth lib = .ok () := fun r hr => hverified r (hacked r hr)
  have hdistinct := hledger.listed_distinct s rs hlist
  refine ⟨rs, hlist, hsettled, hdistinct, fun sub hsub hne => ?_⟩
  exact buildSettlement_of_distinct lib sub hne (fun r hr => hsettled r (hsub.subset hr))
    (hdistinct.sublist hsub)

end Runs

section Samples

theorem acknowledged_settle_two :
    ∃ rs, list (run (serve sampleLib sampleServer) start
        [sampleRequest "v", sampleRequest "w"]).store = .ok rs ∧
      (∀ r ∈ rs, r.verifyBoth sampleLib = .ok ()) ∧
      rs.Pairwise (fun r r' => ¬ (r.providerPeerID = r'.providerPeerID ∧
        r.timestampUnix = r'.timestampUnix ∧ r.nonce = r'.nonce)) ∧
      ∀ sub, sub.Sublist rs → sub ≠ [] → ∃ t, buildSettlement sampleLib sub = .ok t := by
  apply acknowledged_settle sampleLib sampleServer (ascii "p") rfl
  rintro pid ⟨⟩
  refine ⟨ascii "p", rfl, ?_⟩
  rintro random msg sig ⟨⟩
  exact ⟨by decide,rfl⟩

end Samples

end Aevia.Por
