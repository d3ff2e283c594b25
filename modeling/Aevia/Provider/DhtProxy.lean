import Aevia.Foundation.JsJson
import Aevia.Foundation.StructCodec
import Aevia.Provider.Manifest

/-!
# The DHT over HTTP

A relay answers `POST /dht/resolve` with the providers of a CID and their addresses. The
CID of a live session is made of its id alone, so that whoever announces the session and
whoever looks for it agree on it.
-/

set_option autoImplicit false

namespace Aevia.DhtProxy
open Aevia.Bytes Aevia.Manifests Aevia.StructCodec Aevia.Utf8

def sessionCidOf (sessionID : Bytes) : Except GoError Bytes :=
  if sessionID = [] then .error (.new "sessioncid: empty sessionID")
  else .ok (cidText (Sha256.sha256 sessionID))

structure Resolver (PeerId : Type) where
  findProviders : Bytes → ℤ → Except GoError (List PeerId)
  peerAddrs : PeerId → Option (List Bytes)
  string : PeerId → Bytes

section Adapter
variable {Cid PeerId : Type}

/-- What the wrapper calls: `cid.Parse`, and the peers that kad-dht names for a CID, up to a
number. -/
structure Kad (Cid PeerId : Type) where
  parse : Bytes → Except GoError Cid
  findProvidersAsync : Cid → ℤ → List PeerId

/-- The addresses are those in the peerstore of the host. -/
structure Dht (Cid PeerId : Type) where
  host : Option (PeerId → List Bytes)
  ipfs : Option (Kad Cid PeerId)

def defaultProviderLimit : ℤ := 20

def Dht.findProviders (d : Dht Cid PeerId) (cidStr : Bytes) (limit : ℤ) :
    Except GoError (List PeerId) :=
  match d.ipfs with
  | none => .error (.new "dht: not initialized")
  | some kad =>
    match kad.parse cidStr with
    | .error e => .error (.wrap "dht: parse cid %q: %w" [.text cidStr] e)
    | .ok c => .ok (kad.findProvidersAsync c (if limit ≤ 0 then defaultProviderLimit else limit))

def adaptDHT (string : PeerId → Bytes) (d : Dht Cid PeerId) : Resolver PeerId where
  findProviders := d.findProviders
  peerAddrs := fun pid =>
    d.host.map fun addrs => (addrs pid).map fun ma => ma++(ascii "/p2p/"++string pid)
  string := string

end Adapter

structure ResolveRequest where
  cid : Bytes
  limit : Int64

def cidField : RecordField ResolveRequest :=
  ⟨ascii "cid", fun j r => (setString j r.cid).map (fun s => { r with cid := s })⟩

def limitField : RecordField ResolveRequest :=
  ⟨ascii "limit", fun j r => (setInt64 j r.limit).map (fun n => { r with limit := n })⟩

def requestFields : List (RecordField ResolveRequest) := [cidField,limitField]

def maxLimit : Int64 := 20

def statusUnsupportedMediaType : ℕ := 415
def statusBadRequest : ℕ := 400
def statusInternalServerError : ℕ := 500

inductive Reply where
  | httpError (text : GoError) (status : ℕ)
  | ok (body : Bytes)

section Handler
variable {PeerId : Type} (r : Resolver PeerId)

def providerJson (pid : PeerId) : Json := .obj [
  (ascii "peer_id", .str (r.string pid)),
  (ascii "multiaddrs", stringsJson (r.peerAddrs pid))]

def responseJson (cid : Bytes) (providers : List PeerId) : Json := .obj [
  (ascii "cid", .str cid),
  (ascii "providers", .arr (providers.map (providerJson r)))]

def effectiveLimit (limit : Int64) : Int64 := if limit ≤ 0 ∨ maxLimit < limit then maxLimit else limit

def handleResolve (contentType body : Bytes) : Reply :=
  if (ascii "application/json").isPrefixOf contentType = false then
    .httpError (.new "dhtproxy: Content-Type must be application/json") statusUnsupportedMediaType
  else match decodeFirst requestFields ⟨[],0⟩ body with
  | .error e => .httpError (.wrap "dhtproxy: decode: %w" [] e) statusBadRequest
  | .ok req =>
    if req.cid = [] then .httpError (.new "dhtproxy: cid is required") statusBadRequest
    else match r.findProviders req.cid (effectiveLimit req.limit).toInt with
    | .error e => .httpError (.wrap "dhtproxy: find providers: %w" [] e) statusInternalServerError
    | .ok providers => .ok (responseJson r req.cid providers).print

/-- The texts of peer ids and addresses are ASCII, and a peer has no more addresses than an
array has places. -/
structure Plain : Prop where
  string : ∀ pid, Valid (r.string pid)
  addrs : ∀ pid addrs, r.peerAddrs pid = some addrs →
    (∀ addr ∈ addrs, Valid addr) ∧ addrs.length < 2^32

theorem stringsJson_same (xs : Option (List Bytes)) (h : ∀ ys, xs = some ys → ∀ y ∈ ys, Valid y) :
    (stringsJson xs).sanitized = stringsJson xs := by
  rw [stringsJson_sanitized]
  cases xs with
  | none => rfl
  | some ys =>
    have hsame : ys.map Json.sanitize = ys.map id :=
      List.map_congr_left (fun y hy => Json.sanitize_valid y (h ys rfl y hy))
    rw [Option.map_some, hsame, List.map_id]

section Documents
variable {r} (hr : Plain r)

include hr in
theorem providerJson_sanitized (pid : PeerId) :
    (providerJson r pid).sanitized = providerJson r pid := by
  have haddrs := stringsJson_same (r.peerAddrs pid) (fun ys hys => (hr.addrs pid ys hys).1)
  simp only [providerJson, Json.sanitized, Json.sanitizedFields, haddrs,
    Json.sanitize_valid _ (hr.string pid)]
  rfl

include hr in
theorem providers_sanitized (providers : List PeerId) :
    Json.sanitizedItems (providers.map (providerJson r)) = providers.map (providerJson r) := by
  induction providers with
  | nil => rfl
  | cons pid providers ih =>
    rw [List.map_cons, Json.sanitizedItems, providerJson_sanitized hr, ih]

theorem providers_printable (providers : List PeerId) :
    Json.PrintableItems (providers.map (providerJson r)) := by
  induction providers with
  | nil => trivial
  | cons pid providers ih =>
    constructor
    · rw [providerJson, Json.Printable]
      exact ⟨by simp [Json.Printable],stringsJson_printable _,trivial⟩
    · exact ih

include hr in
theorem providers_width (providers : List PeerId) :
    Json.widthItems (providers.map (providerJson r)) < 2^32 := by
  induction providers with
  | nil =>
    show 0 < 2^32
    omega
  | cons pid providers ih =>
    have haddrs : (stringsJson (r.peerAddrs pid)).width < 2^32 := by
      cases h : r.peerAddrs pid with
      | none => decide
      | some addrs =>
        have hlength := (hr.addrs pid addrs h).2
        rw [stringsJson, Json.width, Json.widthItems_strings, List.length_map]
        omega
    rw [List.map_cons, Json.widthItems]
    simp only [providerJson, Json.width, Json.widthFields]
    omega

include hr in
theorem responseJson_parse (cid : Bytes) (hcid : Valid cid) (providers : List PeerId)
    (hlength : providers.length < 2^32) :
    Json.jsParse (responseJson r cid providers).print = some (responseJson r cid providers) := by
  have hprintable : (responseJson r cid providers).Printable := by
    rw [responseJson, Json.Printable]
    refine ⟨by simp [Json.Printable], ?_, trivial⟩
    rw [Json.Printable]
    exact providers_printable providers
  have hsame : (responseJson r cid providers).sanitized = responseJson r cid providers := by
    simp only [responseJson, Json.sanitized, Json.sanitizedFields, providers_sanitized hr,
      Json.sanitize_valid _ hcid]
    rfl
  have hwidth : (responseJson r cid providers).width < 2^32 := by
    have hitems := providers_width hr providers
    simp only [responseJson, Json.width, Json.widthFields, List.length_map]
    omega
  rw [Json.jsParse_print _ hprintable, hsame, if_pos hwidth]

end Documents

def requestJson (cid : Bytes) (limit : ℕ) : Json := .obj [
  (ascii "cid", .str cid),(ascii "limit", .num (decimal limit))]

theorem decode_request (cid : Bytes) (hcid : Valid cid) (limit : ℕ) (hlimit : limit < 2^63) :
    decodeFirst requestFields ⟨[],0⟩ (requestJson cid limit).print =
      .ok ⟨cid,Int64.ofNat limit⟩ := by
  have hint : (Int64.ofNat limit).toInt = limit := Int64.toInt_ofNat_of_lt hlimit
  have hliteral : (Json.num (decimal limit)) = int64Json (Int64.ofNat limit) := by
    rw [int64Json, hint, intLiteral, if_neg (by omega), Int.natAbs_natCast]
  have hread := decodeFirst_print requestFields ⟨[],0⟩ ⟨cid,Int64.ofNat limit⟩
    [(ascii "cid", .str cid),(ascii "limit", int64Json (Int64.ofNat limit))] []
    (by simp [Json.Printable, Json.PrintableFields, int64Json_printable])
    (by simp [Json.height, Json.heightFields, int64Json, Json.maxNestingDepth]) ?_
  · rw [List.append_nil] at hread
    rw [requestJson, hliteral]
    exact hread
  · have hsame : (Json.obj [(ascii "cid", .str cid),
        (ascii "limit", int64Json (Int64.ofNat limit))]).sanitized =
        .obj [(ascii "cid", .str cid),(ascii "limit", int64Json (Int64.ofNat limit))] := by
      simp only [Json.sanitized, Json.sanitizedFields, Json.sanitize_valid _ hcid, int64Json]
      rfl
    have heach := setFields_each requestFields (by decide)
      [(cidField,.str cid),(limitField,int64Json (Int64.ofNat limit))]
      (by simp [requestFields]) ⟨[],0⟩
    rw [hsame, decodeRecord]
    exact heach.trans (by simp [setEach, cidField, limitField])

theorem handleResolve_request (cid : Bytes) (hcid : Valid cid) (hne : cid ≠ []) (limit : ℕ)
    (hpos : 0 < limit) (hmax : limit ≤ 20) :
    handleResolve r (ascii "application/json") (requestJson cid limit).print =
      match r.findProviders cid limit with
      | .error e => .httpError (.wrap "dhtproxy: find providers: %w" [] e) statusInternalServerError
      | .ok providers => .ok (responseJson r cid providers).print := by
  have hint : (Int64.ofNat limit).toInt = limit := Int64.toInt_ofNat_of_lt (by omega)
  have heffective : effectiveLimit (Int64.ofNat limit) = Int64.ofNat limit := by
    rw [effectiveLimit, if_neg]
    rw [Int64.le_iff_toInt_le, Int64.lt_iff_toInt_lt, hint, Int64.toInt_zero,
      show maxLimit.toInt = 20 by decide]
    omega
  have htype : ((ascii "application/json").isPrefixOf (ascii "application/json") = false) = False := by
    decide
  rw [handleResolve, decode_request cid hcid limit (by omega)]
  simp only [htype, if_false, if_neg hne, heffective, hint]

end Handler

end Aevia.DhtProxy
