import Aevia.Foundation.Paired
import Aevia.Provider.Receipt
import Aevia.Provider.Storage

/-!
# The receipt store

Receipts are stored under provider, timestamp and nonce. A put overwrites what
stands under its key, whoever signed it.
-/

set_option autoImplicit false

namespace Aevia.Por
open Aevia.Bytes Aevia.KeyValue Aevia.Paired Aevia.Storage Aevia.StoreProgram
open Aevia.StoreProgram.Program

def prefixReceipt : Bytes := ascii "receipt:"
def keyTimestampSize : ℕ := 8
def keyNonceSize : ℕ := 8

/-- Timestamp and nonce have a fixed width. -/
def receiptKey (r : Receipt) : Bytes :=
  prefixReceipt++r.providerPeerID++58::(bigEndian keyTimestampSize r.timestampUnix.toUInt64.toNat++
    58::bigEndian keyNonceSize r.nonce.toNat)

def errMissingProvider : GoError := .new "por: receipt missing ProviderPeerID"

def putWrite (r : Receipt) : Write Bytes Bytes := .put (receiptKey r) (receiptJson r).print

/-- `ReceiptStore.Put`. Marshalling a receipt cannot fail. -/
def put (r : Receipt) : Call Unit :=
  if r.providerPeerID = [] then .fail errMissingProvider else writeBatch [putWrite r]

def putWrites (r : Receipt) : List (Write Bytes Bytes) :=
  if r.providerPeerID = [] then [] else [putWrite r]

def readReceipts : List Bytes → Call (List Receipt)
  | [] => pure []
  | k::ks => do
    let raw ← get k
    match unmarshalReceipt raw with
    | .error e => .fail (.wrap "por: unmarshal %s: %w" [.text (hexEncode k)] e)
    | .ok r => do
      let rs ← readReceipts ks
      pure (r::rs)

/-- `ReceiptStore.List`: the keys come from one transaction, every receipt from
another; puts may land in between. -/
def listAmid (others : List (List (Write Bytes Bytes))) (db : Database) :
    Except GoError (List Receipt) × Database :=
  (readReceipts (listKeysWithPrefix db prefixReceipt)).runAmid others db

/-- `List` when nobody writes. -/
def list (db : Database) : Except GoError (List Receipt) :=
  (readReceipts (listKeysWithPrefix db prefixReceipt)).read db

def Recorded (db : Database) : Prop :=
  ∀ key raw, prefixReceipt.isPrefixOf key = true → db.get key = some raw →
    ∃ r, key = receiptKey r ∧ raw = (receiptJson r).print

theorem receiptKey_inj (r s : Receipt) (h : receiptKey r = receiptKey s) :
    r.providerPeerID = s.providerPeerID ∧ r.timestampUnix = s.timestampUnix ∧
      r.nonce = s.nonce := by
  have hsplit : ∀ r : Receipt, receiptKey r = (prefixReceipt++r.providerPeerID)++
      ([58]++(bigEndian keyTimestampSize r.timestampUnix.toUInt64.toNat++
        ([58]++(bigEndian keyNonceSize r.nonce.toNat++[])))) := by
    intro r
    rw [List.append_nil]
    rfl
  rw [hsplit, hsplit] at h
  obtain ⟨hprovider, hsuffix⟩ := List.append_inj' h (by simp)
  obtain ⟨hts, hrest⟩ := int64Field_inj _ _ _ _ (List.append_cancel_left hsuffix)
  obtain ⟨hnonce, -⟩ := uint64Field_inj _ _ _ _ (List.append_cancel_left hrest)
  exact ⟨List.append_cancel_left hprovider,hts,hnonce⟩

theorem receiptKey_congr (r s : Receipt) (hprovider : r.providerPeerID = s.providerPeerID)
    (hts : r.timestampUnix = s.timestampUnix) (hnonce : r.nonce = s.nonce) :
    receiptKey r = receiptKey s := by
  rw [receiptKey, receiptKey, hprovider, hts, hnonce]

@[simp] theorem prefixReceipt_receiptKey (r : Receipt) :
    prefixReceipt.isPrefixOf (receiptKey r) = true := by
  simp [receiptKey, List.append_assoc]

theorem readReceipts_readOnly (ks : List Bytes) : (readReceipts ks).ReadOnly := by
  induction ks with
  | nil => trivial
  | cons k ks ih =>
    refine readOnly_bind _ _ (get_readOnly k) (fun raw => ?_)
    split
    · trivial
    · exact readOnly_bind _ _ ih (fun _ => trivial)

theorem readReceipts_hits (db : Database) (ks : List Bytes)
    (h : ∀ k ∈ ks, (db.get k).isSome = true) : (readReceipts ks).Hits db := by
  induction ks with
  | nil => trivial
  | cons k ks ih =>
    obtain ⟨raw, hraw⟩ := Option.isSome_iff_exists.mp (h k List.mem_cons_self)
    refine hits_bind _ _ db (get_hits k raw db hraw) (fun raw _ => ?_)
    split
    · trivial
    · exact hits_bind _ _ db (ih (fun k hk => h k (List.mem_cons_of_mem _ hk))) (fun _ _ => trivial)

def ReadsAs (db : Database) (key : Bytes) (r : Receipt) : Prop :=
  ∃ raw, db.get key = some raw ∧ unmarshalReceipt raw = .ok r

theorem readNext_ok (db : Database) (wrap : GoError → GoError) (k : Bytes) (ks : List Bytes)
    (next : Call (List Receipt)) (hnext : next.ReadOnly)
    (h : ∀ rs, next.read db = .ok rs ↔ List.Forall₂ (ReadsAs db) ks rs) (rs : List Receipt) :
    Program.read (do
      let raw ← get k
      match unmarshalReceipt raw with
      | .error e => .fail (wrap e)
      | .ok r => do
        let rs ← next
        pure (r::rs)) db = .ok rs ↔ List.Forall₂ (ReadsAs db) (k::ks) rs := by
  rw [read_bind _ _ (get_readOnly k), Fallible.bind_ok, List.forall₂_cons_left_iff]
  simp only [read_get_ok]
  constructor
  · rintro ⟨raw, hraw, hrest⟩
    split at hrest
    · cases hrest
    · rename_i r hr
      rw [read_bind _ _ hnext, Fallible.bind_ok] at hrest
      obtain ⟨rest, hread, hrs⟩ := hrest
      cases hrs
      exact ⟨r,rest,⟨raw,hraw,hr⟩,(h rest).mp hread,rfl⟩
  · rintro ⟨r, rest, ⟨raw, hraw, hr⟩, hrest, rfl⟩
    refine ⟨raw, hraw, ?_⟩
    simp only [hr]
    rw [read_bind _ _ hnext, (h rest).mpr hrest]
    rfl

theorem readReceipts_ok (db : Database) (ks : List Bytes) (rs : List Receipt) :
    (readReceipts ks).read db = .ok rs ↔ List.Forall₂ (ReadsAs db) ks rs := by
  induction ks generalizing rs with
  | nil =>
    change Except.ok [] = Except.ok rs ↔ _
    rw [Except.ok.injEq, List.forall₂_nil_left_iff, eq_comm]
  | cons k ks ih =>
    rw [readReceipts]
    exact readNext_ok db _ k ks _ (readReceipts_readOnly ks) ih rs

theorem mem_listKeys (db : Database) (key : Bytes) :
    key ∈ listKeysWithPrefix db prefixReceipt ↔
      (db.get key).isSome ∧ prefixReceipt.isPrefixOf key = true := by
  rw [listKeysWithPrefix, List.mem_filter, Map.mem_keys]

theorem recorded_readsAs (db : Database) (hdb : Recorded db) (key : Bytes)
    (hkey : key ∈ listKeysWithPrefix db prefixReceipt) :
    ∃ r : Receipt, key = receiptKey r ∧ db.get key = some (receiptJson r).print ∧
      ReadsAs db key r.sanitized := by
  obtain ⟨hsome, hpre⟩ := (mem_listKeys db key).mp hkey
  obtain ⟨raw, hraw⟩ := Option.isSome_iff_exists.mp hsome
  obtain ⟨r, hr, rfl⟩ := hdb key raw hpre hraw
  exact ⟨r,hr,hraw,_,hraw,unmarshalReceipt_print r⟩

theorem exists_reads (db : Database) (hdb : Recorded db) (ks : List Bytes)
    (h : ∀ k ∈ ks, k ∈ listKeysWithPrefix db prefixReceipt) :
    ∃ rs, List.Forall₂ (ReadsAs db) ks rs := by
  induction ks with
  | nil => exact ⟨[],.nil⟩
  | cons k ks ih =>
    obtain ⟨r, -, -, hr⟩ := recorded_readsAs db hdb k (h k List.mem_cons_self)
    obtain ⟨rs, hrs⟩ := ih (fun k hk => h k (List.mem_cons_of_mem _ hk))
    exact ⟨r.sanitized::rs,.cons hr hrs⟩

theorem list_ok (db : Database) (hdb : Recorded db) :
    ∃ rs, list db = .ok rs ∧ List.Forall₂ (ReadsAs db) (listKeysWithPrefix db prefixReceipt) rs := by
  obtain ⟨rs, hrs⟩ := exists_reads db hdb _ (fun _ h => h)
  exact ⟨rs,(readReceipts_ok db _ rs).mpr hrs,hrs⟩

theorem ReadsAs.unique {db : Database} {key : Bytes} {r r' : Receipt} (h : ReadsAs db key r)
    (h' : ReadsAs db key r') : r = r' := by
  obtain ⟨raw, hraw, hr⟩ := h
  obtain ⟨raw', hraw', hr'⟩ := h'
  rw [hraw, Option.some.injEq] at hraw'
  rw [← hraw', hr, Except.ok.injEq] at hr'
  exact hr'

theorem mem_reads (db : Database) (ks : List Bytes) (rs : List Receipt)
    (h : List.Forall₂ (ReadsAs db) ks rs) (r : Receipt) : r ∈ rs ↔ ∃ k ∈ ks, ReadsAs db k r := by
  constructor
  · exact forall₂_mem_right _ _ h r
  · rintro ⟨k, hk, hr⟩
    obtain ⟨r', hr', hread⟩ := forall₂_mem_left _ _ h k hk
    rwa [hr.unique hread]

theorem readsAs_of_stored (db : Database) (r : Receipt)
    (hr : db.get (receiptKey r) = some (receiptJson r).print) :
    ReadsAs db (receiptKey r) r.sanitized := ⟨_,hr,unmarshalReceipt_print r⟩

theorem mem_listKeys_of_stored (db : Database) (r : Receipt)
    (hr : db.get (receiptKey r) = some (receiptJson r).print) :
    receiptKey r ∈ listKeysWithPrefix db prefixReceipt :=
  (mem_listKeys db _).mpr ⟨by rw [hr]; rfl,prefixReceipt_receiptKey r⟩

theorem mem_list_of_stored (db : Database) (rs : List Receipt) (h : list db = .ok rs)
    (r : Receipt) (hr : db.get (receiptKey r) = some (receiptJson r).print) :
    r.sanitized ∈ rs :=
  (mem_reads db _ rs ((readReceipts_ok db _ rs).mp h) _).mpr
    ⟨_,mem_listKeys_of_stored db r hr,readsAs_of_stored db r hr⟩

theorem mem_list (db : Database) (hdb : Recorded db) (rs : List Receipt) (h : list db = .ok rs)
    (r : Receipt) : r ∈ rs ↔ ∃ s : Receipt,
      db.get (receiptKey s) = some (receiptJson s).print ∧ r = s.sanitized := by
  constructor
  · intro hr
    obtain ⟨key, hkey, hread⟩ := (mem_reads db _ rs ((readReceipts_ok db _ rs).mp h) r).mp hr
    obtain ⟨s, rfl, hs, hsread⟩ := recorded_readsAs db hdb key hkey
    exact ⟨s,hs,hread.unique hsread⟩
  · rintro ⟨s, hs, rfl⟩
    exact mem_list_of_stored db rs h s hs

section Puts
variable (db : Database) (hdb : Recorded db)
include hdb

theorem putWrites_recorded (r : Receipt) : Recorded (applyBatch db (putWrites r)) := by
  unfold putWrites
  split_ifs
  · exact hdb
  · intro key raw hpre hraw
    change Map.get (db.put (receiptKey r) _) key = some raw at hraw
    rw [Map.get_put] at hraw
    split_ifs at hraw with hkey
    · exact ⟨r,hkey,(Option.some.inj hraw).symm⟩
    · exact hdb key raw hpre hraw

end Puts

section Arrivals

def Keeps (db : Database) (r : Receipt) : Prop := r.providerPeerID = [] ∨
  db.get (receiptKey r) = none ∨ db.get (receiptKey r) = some (receiptJson r).print

def storePut (db : Database) (r : Receipt) : Database := applyBatch db (putWrites r)

theorem get_storePut (db : Database) (r : Receipt) (h : r.providerPeerID ≠ []) :
    (storePut db r).get (receiptKey r) = some (receiptJson r).print := by
  rw [storePut, putWrites, if_neg h]
  exact get_applyBatch db [putWrite r] (List.nodup_singleton _) _ List.mem_cons_self

theorem get_storePut_other (db : Database) (r : Receipt) (key : Bytes)
    (h : r.providerPeerID = [] ∨ key ≠ receiptKey r) : (storePut db r).get key = db.get key := by
  unfold storePut putWrites
  split_ifs with hprovider
  · rfl
  · exact get_applyBatch_other db _ key
      (fun hmem => h.elim hprovider (fun hkey => hkey (List.mem_singleton.mp hmem)))

theorem storePut_extends (db : Database) (r : Receipt) (h : Keeps db r) :
    db.Extends (storePut db r) := by
  intro key raw hraw
  by_cases hkey : r.providerPeerID = [] ∨ key ≠ receiptKey r
  · rw [get_storePut_other db r key hkey, hraw]
  · rw [not_or, not_not] at hkey
    obtain ⟨hprovider, rfl⟩ := hkey
    rw [get_storePut db r hprovider]
    rcases h with h | h | h
    · exact (hprovider h).elim
    · rw [h] at hraw
      cases hraw
    · rw [← h, hraw]

theorem applyBatch_putWrites (db : Database) (rs : List Receipt) :
    applyBatch db (rs.flatMap putWrites) = rs.foldl storePut db := by
  rw [applyBatch, List.foldl_flatMap]
  rfl

theorem foldl_storePut_extends (db : Database) (rs : List Receipt)
    (h : Run.Along storePut Keeps db rs) : db.Extends (rs.foldl storePut db) := by
  induction rs generalizing db with
  | nil => exact fun _ _ h => h
  | cons r rs ih => exact (storePut_extends db r h.1).trans (ih _ h.2)

theorem run_storePut (db : Database) (rs : List Receipt) :
    Run.run storePut db rs = rs.foldl storePut db := by
  induction rs generalizing db with
  | nil => rfl
  | cons r rs ih => exact ih _

theorem arrivals_extend (db : Database) (arrivals : List (List Receipt))
    (h : Run.Along storePut Keeps db arrivals.flatten) :
    Run.Along applyBatch (fun db ws => db.Extends (applyBatch db ws)) db
      (arrivals.map (fun rs => rs.flatMap putWrites)) := by
  induction arrivals generalizing db with
  | nil => trivial
  | cons rs arrivals ih =>
    rw [List.flatten_cons, Run.along_append, run_storePut] at h
    refine ⟨?_, ?_⟩
    · change db.Extends (applyBatch db (rs.flatMap putWrites))
      rw [applyBatch_putWrites]
      exact foldl_storePut_extends db rs h.1
    · rw [applyBatch_putWrites]
      exact ih _ h.2

theorem listAmid_arrivals (db : Database) (arrivals : List (List Receipt))
    (h : Run.Along storePut Keeps db arrivals.flatten) :
    (listAmid (arrivals.map (fun rs => rs.flatMap putWrites)) db).1 = list db :=
  runAmid_read _ _ db db (readReceipts_hits db _ (fun k hk => ((mem_listKeys db k).mp hk).1))
    (fun _ _ h => h) (arrivals_extend db arrivals h)

theorem listAmid_store (db : Database) (arrivals : List (List Receipt)) :
    (listAmid (arrivals.map (fun rs => rs.flatMap putWrites)) db).2 =
      arrivals.flatten.foldl storePut db := by
  rw [listAmid, runAmid_store _ (readReceipts_readOnly _)]
  induction arrivals generalizing db with
  | nil => rfl
  | cons rs arrivals ih =>
    rw [List.map_cons, List.foldl_cons, List.flatten_cons, List.foldl_append,
      applyBatch_putWrites]
    exact ih _

end Arrivals

theorem runAlone_put (fault : Option GoError) (r : Receipt) (db : Database) :
    (put r).runAlone fault db =
      if r.providerPeerID = [] then (.error errMissingProvider, db)
      else match fault with
        | none => (.ok (), applyBatch db [putWrite r])
        | some e => (.error e, db) := by
  unfold put
  split_ifs
  · rfl
  · exact runAlone_writeBatch fault _ db

section Histories

inductive StoreOp where
  | put (r : Receipt)
  | delete (r : Receipt)
  | other (w : { w : Write Bytes Bytes // prefixReceipt.isPrefixOf w.key = false })

def storeStep (db : Database) : StoreOp → Database
  | .put r => storePut db r
  | .delete r => (Write.delete (receiptKey r)).apply db
  | .other w => w.val.apply db

theorem storeStep_recorded (db : Database) (op : StoreOp) (hdb : Recorded db) :
    Recorded (storeStep db op) := by
  cases op with
  | put r => exact putWrites_recorded db hdb r
  | delete r =>
    intro key raw hpre hraw
    rw [storeStep, Write.get_apply] at hraw
    split_ifs at hraw
    · cases hraw
    · exact hdb key raw hpre hraw
  | other w =>
    intro key raw hpre hraw
    rw [storeStep, Write.get_apply] at hraw
    split_ifs at hraw with hkey
    · rw [hkey, w.property] at hpre
      cases hpre
    · exact hdb key raw hpre hraw

theorem history_recorded (ops : List StoreOp) : Recorded (Run.run storeStep Map.empty ops) :=
  Run.run_invariant storeStep Recorded storeStep_recorded Map.empty ops
    (fun _ _ _ h => by cases h)

end Histories

section Scans

def parseTsNonce (key keyPrefix : Bytes) : Except GoError (Int64 × UInt64) :=
  let suffix := key.drop keyPrefix.length
  if suffix.length ≠ keyTimestampSize+1+keyNonceSize ∨ suffix[keyTimestampSize]? ≠ some 58 then
    .error (.errorf "por: malformed receipt key suffix %x" [.text (hexEncode suffix)])
  else .ok ((UInt64.ofNat (ofBigEndian (suffix.take keyTimestampSize))).toInt64,
    UInt64.ofNat (ofBigEndian (suffix.drop (keyTimestampSize+1))))

def scanned (since til : Int64) ( keyPrefix key : Bytes) : Bool :=
  match parseTsNonce key keyPrefix with
  | .error _ => false
  | .ok (ts, _) => !(decide (0 < since) && decide (ts < since)) &&
      !(decide (0 < til) && decide (til ≤ ts))

def scanReceipts (since til : Int64) ( keyPrefix : Bytes) : List Bytes → Call (List Receipt)
  | [] => pure []
  | k::ks =>
    if scanned since til keyPrefix k then do
      let raw ← get k
      match unmarshalReceipt raw with
      | .error e => .fail (.wrap "por: unmarshal receipt %x: %w" [.text (hexEncode k)] e)
      | .ok r => do
        let rs ← scanReceipts since til keyPrefix ks
        pure (r::rs)
    else scanReceipts since til keyPrefix ks

def providerPrefix (providerPeerID : Bytes) : Bytes := prefixReceipt++providerPeerID++[58]

/-- `GetByProvider` when nobody writes. -/
def getByProvider (providerPeerID : Bytes) (since til : Int64) (db : Database) :
    Except GoError (List Receipt) :=
  (scanReceipts since til (providerPrefix providerPeerID)
    (listKeysWithPrefix db (providerPrefix providerPeerID))).read db

theorem scanReceipts_readOnly (since til : Int64) ( keyPrefix : Bytes) (ks : List Bytes) :
    (scanReceipts since til keyPrefix ks).ReadOnly := by
  induction ks with
  | nil => trivial
  | cons k ks ih =>
    unfold scanReceipts
    split_ifs
    · refine readOnly_bind _ _ (get_readOnly k) (fun raw => ?_)
      split
      · trivial
      · exact readOnly_bind _ _ ih (fun _ => trivial)
    · exact ih

theorem scanReceipts_ok (since til : Int64) ( keyPrefix : Bytes) (db : Database)
    (ks : List Bytes) (rs : List Receipt) :
    (scanReceipts since til keyPrefix ks).read db = .ok rs ↔
      List.Forall₂ (ReadsAs db) (ks.filter (scanned since til keyPrefix)) rs := by
  induction ks generalizing rs with
  | nil =>
    change Except.ok [] = Except.ok rs ↔ _
    rw [Except.ok.injEq, List.filter_nil, List.forall₂_nil_left_iff, eq_comm]
  | cons k ks ih =>
    rw [scanReceipts, List.filter_cons]
    by_cases hk : scanned since til keyPrefix k = true
    · rw [if_pos hk, if_pos hk]
      exact readNext_ok db _ k _ _ (scanReceipts_readOnly _ _ _ ks) ih rs
    · rw [if_neg hk, if_neg hk]
      exact ih rs

def keySuffix (r : Receipt) : Bytes :=
  bigEndian keyTimestampSize r.timestampUnix.toUInt64.toNat++
    58::bigEndian keyNonceSize r.nonce.toNat

theorem receiptKey_eq (r : Receipt) :
    receiptKey r = providerPrefix r.providerPeerID++keySuffix r := by
  simp [receiptKey, providerPrefix, keySuffix]

@[simp] theorem keySuffix_length (r : Receipt) :
    (keySuffix r).length = keyTimestampSize+1+keyNonceSize := by
  simp [keySuffix, keyTimestampSize, keyNonceSize]

theorem parseTsNonce_own (r : Receipt) :
    parseTsNonce (receiptKey r) (providerPrefix r.providerPeerID) =
      .ok (r.timestampUnix, r.nonce) := by
  have hts : (keySuffix r).take keyTimestampSize =
      bigEndian keyTimestampSize r.timestampUnix.toUInt64.toNat :=
    List.take_left' (bigEndian_length _ _)
  have hrest : (keySuffix r).drop keyTimestampSize = 58::bigEndian keyNonceSize r.nonce.toNat :=
    List.drop_left' (bigEndian_length _ _)
  have hcolon : (keySuffix r)[keyTimestampSize]? = some 58 := by
    rw [← List.head?_drop, hrest]
    rfl
  have hnonce : (keySuffix r).drop (keyTimestampSize+1) = bigEndian keyNonceSize r.nonce.toNat := by
    rw [← List.drop_drop, hrest]
    rfl
  rw [parseTsNonce, receiptKey_eq, List.drop_left]
  rw [if_neg (by rw [hcolon, keySuffix_length]; simp), hts, hnonce]
  have hstamp := ofBigEndian_uint64 r.timestampUnix.toUInt64
  have hcount := ofBigEndian_uint64 r.nonce
  rw [keyTimestampSize, keyNonceSize, hstamp, hcount]
  rfl

theorem parseTsNonce_receiptKey (r : Receipt) (provider : Bytes)
    (h : (providerPrefix provider).isPrefixOf (receiptKey r) = true) (ts : Int64) (nonce : UInt64) :
    parseTsNonce (receiptKey r) (providerPrefix provider) = .ok (ts, nonce) ↔
      r.providerPeerID = provider ∧ r.timestampUnix = ts ∧ r.nonce = nonce := by
  by_cases hprovider : r.providerPeerID = provider
  · rw [← hprovider, parseTsNonce_own, Except.ok.injEq, Prod.mk.injEq]
    simp
  · obtain ⟨t, ht⟩ := List.isPrefixOf_iff_prefix.mp h
    have hlen : t.length ≠ keyTimestampSize+1+keyNonceSize := by
      intro hlen
      apply hprovider
      rw [receiptKey_eq] at ht
      have hsplit := List.append_inj_left' ht (by rw [hlen, keySuffix_length])
      have hcut := List.append_cancel_right hsplit
      exact (List.append_cancel_left hcut).symm
    rw [parseTsNonce, ← ht, List.drop_left]
    rw [if_pos (Or.inl hlen)]
    simp [hprovider]

theorem scanned_receiptKey (since til : Int64) (r : Receipt) (provider : Bytes)
    (h : (providerPrefix provider).isPrefixOf (receiptKey r) = true) :
    scanned since til (providerPrefix provider) (receiptKey r) = true ↔
      r.providerPeerID = provider ∧ (0 < since → since ≤ r.timestampUnix) ∧
        (0 < til → r.timestampUnix < til) := by
  unfold scanned
  by_cases hprovider : r.providerPeerID = provider
  · rw [← hprovider, parseTsNonce_own]
    by_cases hsince : 0 < since <;> by_cases htil : 0 < til <;>
      simp [hsince, htil, Int64.not_lt, Int64.not_le]
  · cases hparse : parseTsNonce (receiptKey r) (providerPrefix provider) with
    | error e => simp [hprovider]
    | ok p =>
      exact (hprovider ((parseTsNonce_receiptKey r provider h p.1 p.2).mp hparse).1).elim

theorem mem_providerKeys (db : Database) (provider key : Bytes) :
    key ∈ listKeysWithPrefix db (providerPrefix provider) ↔
      key ∈ listKeysWithPrefix db prefixReceipt ∧
        (providerPrefix provider).isPrefixOf key = true := by
  have hlonger : (providerPrefix provider).isPrefixOf key = true →
      prefixReceipt.isPrefixOf key = true := by
    rw [List.isPrefixOf_iff_prefix, List.isPrefixOf_iff_prefix, providerPrefix, List.append_assoc]
    exact (List.prefix_append _ _).trans
  rw [mem_listKeys, listKeysWithPrefix, List.mem_filter, Map.mem_keys]
  exact ⟨fun h => ⟨⟨h.1,hlonger h.2⟩,h.2⟩,fun h => ⟨h.1.1,h.2⟩⟩

theorem mem_getByProvider (db : Database) (hdb : Recorded db) (provider : Bytes)
    (since til : Int64) : ∃ rs, getByProvider provider since til db = .ok rs ∧
      ∀ r, r ∈ rs ↔ ∃ s : Receipt, db.get (receiptKey s) = some (receiptJson s).print ∧
        s.providerPeerID = provider ∧ ((0 < since → since ≤ s.timestampUnix) ∧
        (0 < til → s.timestampUnix < til)) ∧ r = s.sanitized := by
  have hlisted : ∀ k ∈ (listKeysWithPrefix db (providerPrefix provider)).filter
      (scanned since til (providerPrefix provider)), k ∈ listKeysWithPrefix db prefixReceipt :=
    fun k hk => ((mem_providerKeys db provider k).mp (List.mem_filter.mp hk).1).1
  obtain ⟨rs, hrs⟩ := exists_reads db hdb _ hlisted
  refine ⟨rs, (scanReceipts_ok since til _ db _ rs).mpr hrs, fun r => ?_⟩
  rw [mem_reads db _ rs hrs]
  constructor
  · rintro ⟨key, hkey, hread⟩
    obtain ⟨s, rfl, hs, hsread⟩ := recorded_readsAs db hdb key (hlisted key hkey)
    obtain ⟨hpre, hscanned⟩ := List.mem_filter.mp hkey
    obtain ⟨hprovider, hbounds⟩ := (scanned_receiptKey since til s provider
      ((mem_providerKeys db provider _).mp hpre).2).mp hscanned
    exact ⟨s,hs,hprovider,hbounds,hread.unique hsread⟩
  · rintro ⟨s, hs, rfl, hbounds, rfl⟩
    have hpre : (providerPrefix s.providerPeerID).isPrefixOf (receiptKey s) = true := by
      rw [List.isPrefixOf_iff_prefix, receiptKey_eq]
      exact List.prefix_append _ _
    refine ⟨receiptKey s, List.mem_filter.mpr ⟨?_, ?_⟩, readsAs_of_stored db s hs⟩
    · exact (mem_providerKeys db _ _).mpr ⟨mem_listKeys_of_stored db s hs,hpre⟩
    · exact (scanned_receiptKey since til s _ hpre).mpr ⟨rfl,hbounds⟩

end Scans

end Aevia.Por
