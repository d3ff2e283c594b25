import Aevia.Provider.SessionAnnounce
import Aevia.Video.SessionResolution

/-!
# Discovery of live sessions

The walk over the relays takes a relay for a list that it cuts to the limit. A relay is a
node of the DHT behind HTTP: the question is written by `JSON.stringify` and decoded by the
handler, the answer is written by the handler and read back in the browser.
-/

set_option autoImplicit false

namespace Aevia.Mesh
open Aevia.Bytes Aevia.DhtProxy Aevia.Manifests Aevia.Utf8

section Request

/-- `JSON.stringify` of a byte of a well-formed text. -/
def stringifyByte (b : UInt8) : Bytes :=
  if b = 34 ∨ b = 92 then [92,b]
  else if b = 8 then ascii "\\b"
  else if b = 12 then ascii "\\f"
  else if b = 10 then ascii "\\n"
  else if b = 13 then ascii "\\r"
  else if b = 9 then ascii "\\t"
  else if b.toNat < 0x20 then ascii "\\u00"++[hexDigit (b.toNat/16),hexDigit (b.toNat%16)]
  else [b]

/-- `JSON.stringify` of the CID and the limit. -/
def requestBody (cid : Bytes) (limit : ℕ) : Bytes :=
  ascii "\x7b\"cid\":\""++(cid.flatMap stringifyByte++(ascii "\",\"limit\":"++(decimal limit++
    ascii "\x7d")))

def isPlain (b : UInt8) : Bool :=
  b.toNat < 0x80 && Json.escapeByte b == [b] && stringifyByte b == [b]

theorem isPlain_iff (b : UInt8) :
    isPlain b = true ↔ b.toNat < 0x80 ∧ Json.escapeByte b = [b] ∧ stringifyByte b = [b] := by
  simp [isPlain, and_assoc]

theorem splitRune_plain (b : UInt8) (hb : b.toNat < 0x80) (s : Bytes) :
    splitRune (b::s) = some ([b],s) := splitRune_append [b] s (.one b hb)

theorem quoteBody_plain (s : Bytes) (hs : ∀ b ∈ s, isPlain b = true) :
    Json.quoteBody s.length s = s := by
  induction s with
  | nil => rfl
  | cons b s ih =>
    have hb := (isPlain_iff b).mp (hs b List.mem_cons_self)
    have hrune : Json.escapeRune [b] = [b] := by
      rw [Json.escapeRune, if_neg (by simp), if_neg (by simp)]
      exact hb.2.1
    simp only [List.length_cons, Json.quoteBody, splitRune_plain b hb.1]
    rw [hrune, ih (fun c hc => hs c (List.mem_cons_of_mem b hc))]
    rfl

theorem stringify_plain (s : Bytes) (hs : ∀ b ∈ s, isPlain b = true) :
    s.flatMap stringifyByte = s := by
  induction s with
  | nil => rfl
  | cons b s ih =>
    have hb := (isPlain_iff b).mp (hs b List.mem_cons_self)
    rw [List.flatMap_cons, hb.2.2, ih (fun c hc => hs c (List.mem_cons_of_mem b hc))]
    rfl

theorem requestBody_eq (cid : Bytes) (hcid : ∀ b ∈ cid, isPlain b = true) (limit : ℕ) :
    requestBody cid limit = (requestJson cid limit).print := by
  have hkey (name : Bytes) (h : ∀ b ∈ name, isPlain b = true) :
      Json.quote name = 34::(name++[34]) := by rw [Json.quote, quoteBody_plain name h]; rfl
  rw [requestBody, stringify_plain cid hcid, requestJson, Json.print, Json.printFields,
    Json.printFields, Json.print, Json.print, hkey (ascii "cid") (by decide +kernel),
    hkey (ascii "limit") (by decide +kernel), hkey cid hcid]
  simp [ascii]

theorem cidText_plain (digest : Bytes) : ∀ b ∈ cidText digest, isPlain b = true := by
  have hsymbols : ∀ d < 2^5, isPlain (BaseEncoding.base32Lower.symbol d) = true := by decide
  intro b hb
  rcases List.mem_cons.mp hb with rfl | hb
  · decide
  · obtain ⟨d, hd, rfl⟩ := BaseEncoding.encode_symbol _ _ b hb
    exact hsymbols d hd

end Request

section Reading

inductive Fetched where
  | rejected
  | answered (status : ℕ) (body : Bytes)

def readText : Json → Option Bytes
  | .str text => some text
  | _ => none

def readRecord : Json → Option (Option ProviderRecord)
  | .null => some none
  | .obj fields =>
    match Json.member fields (ascii "peer_id"), Json.member fields (ascii "multiaddrs") with
    | some (.str peer_id), none => some (some ⟨peer_id,none⟩)
    | some (.str peer_id), some .null => some (some ⟨peer_id,none⟩)
    | some (.str peer_id), some (.arr items) =>
      (items.mapM readText).map (fun addrs => some ⟨peer_id,some addrs⟩)
    | _, _ => none
  | _ => none

def readBody : Json → Option Response
  | .null => some .throws
  | .obj fields =>
    match Json.member fields (ascii "providers") with
    | none => some (.body none)
    | some .null => some (.body none)
    | some (.arr items) => (items.mapM readRecord).map (fun providers => .body (some providers))
    | some _ => none
  | _ => none

def readResponse : Fetched → Option Response
  | .rejected => some .throws
  | .answered status body =>
    if 200 ≤ status ∧ status < 300 then
      match Json.jsParse body with
      | none => some .throws
      | some j => readBody j
    else some .notOk

def exchange (fetch : (url body : Bytes) → Fetched) (url cid : Bytes) (limit : ℕ) : Option Response :=
  readResponse (fetch url (requestBody cid limit))

end Reading

section Answers
variable {PeerId : Type} (r : Resolver PeerId)

def recordOf (pid : PeerId) : ProviderRecord := ⟨r.string pid,r.peerAddrs pid⟩

theorem readText_strings (texts : List Bytes) : (texts.map Json.str).mapM readText = some texts := by
  induction texts with
  | nil => rfl
  | cons text texts ih =>
    rw [List.map_cons, List.mapM_cons, ih]
    rfl

theorem readRecord_providerJson (pid : PeerId) :
    readRecord (providerJson r pid) = some (some (recordOf r pid)) := by
  have hid : Json.member [(ascii "peer_id", .str (r.string pid)),
      (ascii "multiaddrs", StructCodec.stringsJson (r.peerAddrs pid))] (ascii "peer_id") =
      some (.str (r.string pid)) := rfl
  have haddrs : Json.member [(ascii "peer_id", .str (r.string pid)),
      (ascii "multiaddrs", StructCodec.stringsJson (r.peerAddrs pid))] (ascii "multiaddrs") =
      some (StructCodec.stringsJson (r.peerAddrs pid)) := rfl
  rw [providerJson, readRecord, hid, haddrs, recordOf]
  cases r.peerAddrs pid with
  | none => rfl
  | some addrs =>
    simp only [StructCodec.stringsJson, readText_strings]
    rfl

theorem readRecord_providers (providers : List PeerId) :
    (providers.map (providerJson r)).mapM readRecord =
      some (providers.map (fun pid => some (recordOf r pid))) := by
  induction providers with
  | nil => rfl
  | cons pid providers ih =>
    rw [List.map_cons, List.mapM_cons, readRecord_providerJson, ih]
    rfl

theorem readBody_responseJson (cid : Bytes) (providers : List PeerId) :
    readBody (responseJson r cid providers) =
      some (.body (some (providers.map (fun pid => some (recordOf r pid))))) := by
  have hmember : Json.member [(ascii "cid", .str cid),
      (ascii "providers", .arr (providers.map (providerJson r)))] (ascii "providers") =
      some (.arr (providers.map (providerJson r))) := rfl
  rw [responseJson, readBody, hmember]
  simp only [readRecord_providers]
  rfl

end Answers

section Relays
variable {Cid PeerId : Type} (string : PeerId → Bytes) (nodeAt : Bytes → Option (Dht Cid PeerId))
  (errorText : GoError → Bytes)

def fetch (url body : Bytes) : Fetched :=
  match nodeAt url with
  | none => .rejected
  | some d =>
    match handleResolve (adaptDHT string d) (ascii "application/json") body with
    | .httpError text status => .answered status (errorText text)
    | .ok body => .answered 200 body

variable (found : (url : Bytes) → Cid → List PeerId)

/-- kad-dht names the peers that it finds, and stops at the number that it is given. -/
structure Deployed : Prop where
  plain : ∀ url d, nodeAt url = some d → Plain (adaptDHT string d)
  cuts : ∀ url d kad, nodeAt url = some d → d.ipfs = some kad → ∀ (c : Cid) (limit : ℕ),
    0 < limit → kad.findProvidersAsync c limit = (found url c).take limit

/-- What the walk takes a node for. -/
def relayOf (url cid : Bytes) : Relay :=
  match nodeAt url with
  | none => .fails .throws nofun
  | some d =>
    match d.ipfs with
    | none => .fails .notOk nofun
    | some kad =>
      match kad.parse cid with
      | .error _ => .fails .notOk nofun
      | .ok c => .lists ((found url c).map fun pid => some (recordOf (adaptDHT string d) pid))

theorem readResponse_refused (status : ℕ) (body : Bytes) (h : 300 ≤ status) :
    readResponse (.answered status body) = some .notOk := by
  rw [readResponse, if_neg (by omega)]

variable {string nodeAt found}

theorem exchange_plain (hdeployed : Deployed string nodeAt found) (url cid : Bytes)
    (hplain : ∀ b ∈ cid, isPlain b = true) (hne : cid ≠ []) (limit : ℕ) (hpos : 0 < limit)
    (hmax : limit ≤ 20) :
    exchange (fetch string nodeAt errorText) url cid limit =
      some ((relayOf string nodeAt found url cid).resolve limit) := by
  have hvalid : Valid cid := valid_ascii cid (fun b hb => ((isPlain_iff b).mp (hplain b hb)).1)
  rw [exchange, requestBody_eq cid hplain, fetch, relayOf]
  cases hnode : nodeAt url with
  | none => rfl
  | some d =>
    simp only [handleResolve_request (adaptDHT string d) cid hvalid hne limit hpos hmax]
    have hfind : (adaptDHT string d).findProviders cid limit = d.findProviders cid limit := rfl
    rw [hfind, Dht.findProviders]
    cases hipfs : d.ipfs with
    | none => exact readResponse_refused _ _ (by decide)
    | some kad =>
      cases hparse : kad.parse cid with
      | error e =>
        simp only [hparse]
        exact readResponse_refused _ _ (by decide)
      | ok c =>
        have hcut := hdeployed.cuts url d kad hnode hipfs c limit hpos
        have hlength : ((found url c).take limit).length < 2^32 := by
          have htake := List.length_take_le limit (found url c)
          omega
        have hparsed := responseJson_parse (hdeployed.plain url d hnode) cid hvalid _ hlength
        simp only [hparse, if_neg (show ¬ (limit : ℤ) ≤ 0 by omega), hcut, readResponse]
        rw [if_pos (by decide), hparsed]
        simp only [readBody_responseJson, Relay.resolve, List.map_take]

/-- A question for a CID, asked over HTTP, is answered as the walk takes it. -/
theorem exchange_relay (hdeployed : Deployed string nodeAt found) (url digest : Bytes) (limit : ℕ)
    (hpos : 0 < limit) (hmax : limit ≤ 20) :
    exchange (fetch string nodeAt errorText) url (cidText digest) limit =
      some ((relayOf string nodeAt found url (cidText digest)).resolve limit) :=
  exchange_plain errorText hdeployed url _ (cidText_plain digest) nofun limit hpos hmax

end Relays

section Samples

inductive SamplePeer where
  | origin
  | mirror

def SamplePeer.name : SamplePeer → Bytes
  | origin => ascii "12D3KooWorigin"
  | mirror => ascii "12D3KooWmirror"

def SamplePeer.addrs : SamplePeer → List Bytes
  | origin => [ascii "/ip4/203.0.113.7/udp/4001/quic-v1"]
  | mirror => [ascii "/ip4/203.0.113.8/tcp/4001",ascii "/dns4/mirror.aevia.network/tcp/443/wss"]

/-- The digest of a CIDv1 of raw bytes, and of no other text. -/
def parseRaw : Bytes → Except GoError Bytes
  | 98::s =>
    match BaseEncoding.decode BaseEncoding.base32Lower s with
    | some (1::0x55::0x12::0x20::digest) =>
      if digest.length = Sha256.digestSize then .ok digest else .error (.new "invalid cid")
    | _ => .error (.new "invalid cid")
  | _ => .error (.new "invalid cid")

def sampleKad (peers : Bytes → List SamplePeer) : Kad Bytes SamplePeer where
  parse := parseRaw
  findProvidersAsync := fun c limit => (peers c).take limit.toNat

def sampleDht (peers : Bytes → List SamplePeer) : Dht Bytes SamplePeer where
  host := some SamplePeer.addrs
  ipfs := some (sampleKad peers)

theorem parseRaw_cidText (digest : Bytes) (h : digest.length = Sha256.digestSize) :
    parseRaw (cidText digest) = .ok digest := by
  rw [cidText, parseRaw, BaseEncoding.decode_encode _ (by decide) (by decide)]
  exact if_pos h

theorem sampleDht_deployed (peers : Bytes → List SamplePeer) :
    Deployed SamplePeer.name (fun _ => some (sampleDht peers)) (fun _ => peers) := by
  constructor
  · rintro url d hd
    obtain rfl := Option.some.inj hd
    constructor
    · intro pid
      show Valid pid.name
      apply valid_ascii
      cases pid <;> decide +kernel
    · rintro pid addrs haddrs
      obtain rfl := Option.some.inj haddrs
      have hascii : ∀ addr ∈ pid.addrs.map (fun ma => ma++(ascii "/p2p/"++pid.name)),
          ∀ b ∈ addr, b.toNat < 0x80 := by
        cases pid <;> decide +kernel
      refine ⟨fun addr haddr => valid_ascii addr (hascii addr haddr), ?_⟩
      cases pid <;> decide
  · rintro url d kad hd hkad c limit -
    obtain rfl := Option.some.inj hd
    obtain rfl := Option.some.inj hkad
    rfl

def sampleDigest : Bytes := (List.range 32).map UInt8.ofNat

/-- The mirror is cut off, the origin comes with its address. -/
theorem exchange_relay_cut :
    exchange (fetch SamplePeer.name (fun _ => some (sampleDht fun _ => [.origin,.mirror]))
        (fun _ => [])) (ascii "https://relay/dht/resolve") (cidText sampleDigest) 1 =
      some (.body (some [some ⟨ascii "12D3KooWorigin",
        some [ascii "/ip4/203.0.113.7/udp/4001/quic-v1/p2p/12D3KooWorigin"]⟩])) := by
  rw [exchange_relay (fun _ => []) (sampleDht_deployed fun _ => [.origin,.mirror]) _ sampleDigest 1
    (by decide) (by decide)]
  have hparse : parseRaw (cidText sampleDigest) = .ok sampleDigest :=
    parseRaw_cidText sampleDigest (by decide)
  simp only [relayOf, sampleDht, sampleKad, hparse]
  rfl

end Samples

section Discovery
variable {Cid PeerId : Type} (string : PeerId → Bytes) (nodeAt : Bytes → Option (Dht Cid PeerId))
  (found : (url : Bytes) → Cid → List PeerId) (dhtOf : PeerId → Dht Cid PeerId)
  (opts : ResolveOptions)

def namedFive (url cid : Bytes) : List PeerId :=
  match (nodeAt url).bind Dht.ipfs with
  | none => []
  | some kad =>
    match kad.parse cid with
    | .error _ => []
    | .ok c => (found url c).take 5

def dialled (relay : Bytes) (d : Dht Cid PeerId) (pid : PeerId) : Option ResolvedProvider :=
  (registered opts (string pid)).map (resolvedProvider relay (recordOf (adaptDHT string d) pid))

theorem firstProvider_records (relay : Bytes) (d : Dht Cid PeerId) (pids : List PeerId) :
    firstProvider opts relay (pids.map fun pid => some (recordOf (adaptDHT string d) pid)) =
      pids.findSome? (dialled string opts relay d) := by
  induction pids with
  | nil => rfl
  | cons pid pids ih =>
    have hid : (recordOf (adaptDHT string d) pid).peer_id = string pid := rfl
    rw [List.map_cons, firstProvider, List.findSome?_cons, dialled, hid]
    cases registered opts (string pid) with
    | none => exact ih
    | some httpsBase => rfl

theorem firstNamed_relayOf (relay cid : Bytes) :
    firstNamed (relayOf string nodeAt found) opts cid 5 relay =
      (nodeAt (endpoint relay)).bind fun d =>
        (namedFive nodeAt found (endpoint relay) cid).findSome? (dialled string opts relay d) := by
  cases hnode : nodeAt (endpoint relay) with
  | none => simp only [firstNamed, relayOf, hnode, Relay.resolve, Option.bind_none]
  | some d =>
    cases hipfs : d.ipfs with
    | none =>
      simp only [firstNamed, relayOf, namedFive, hnode, hipfs, Relay.resolve, Option.bind_some,
        List.findSome?_nil]
    | some kad =>
      cases hparse : kad.parse cid with
      | error e =>
        simp only [firstNamed, relayOf, namedFive, hnode, hipfs, hparse, Relay.resolve,
          Option.bind_some, List.findSome?_nil]
      | ok c =>
        simp only [firstNamed, relayOf, namedFive, hnode, hipfs, hparse, Relay.resolve,
          Option.bind_some, ← List.map_take]
        exact firstProvider_records string opts relay d _

structure Parses (kad : Kad Cid PeerId) (rawCid : Bytes → Cid) : Prop where
  canonical : ∀ digest, digest.length = Sha256.digestSize → kad.parse (cidText digest) = .ok (rawCid digest)

theorem resolve_relays (relayAt : (url cid : Bytes) → Relay) (sessionId : Bytes) (h : sessionId ≠ []) :
    resolveSessionProvider relayAt opts sessionId = .ok (opts.relayUrls.findSome?
      (firstNamed relayAt opts (cidText (Sha256.sha256 sessionId)) 5)) := by
  rw [resolveSessionProvider, sessionIdToCid, if_neg h, ← tryRelays_eq]
  by_cases hrelays : opts.relayUrls = []
  · rw [if_pos hrelays, hrelays]
    rfl
  · rw [if_neg hrelays]
    rfl

theorem firstNamed_some (relay cid : Bytes) (provider : ResolvedProvider)
    (h : firstNamed (relayOf string nodeAt found) opts cid 5 relay = some provider) :
    ∃ pid ∈ namedFive nodeAt found (endpoint relay) cid, provider.peerId = string pid ∧
      registered opts (string pid) = some provider.httpsBase ∧ provider.resolvedVia = relay := by
  rw [firstNamed_relayOf, Option.bind_eq_some_iff] at h
  obtain ⟨d, -, hfirst⟩ := h
  obtain ⟨pid, hpid, hdialled⟩ := List.exists_of_findSome?_eq_some hfirst
  obtain ⟨httpsBase, hbase, rfl⟩ := Option.map_eq_some_iff.mp hdialled
  exact ⟨pid,hpid,rfl,hbase,rfl⟩

theorem firstNamed_none (relay cid : Bytes) :
    firstNamed (relayOf string nodeAt found) opts cid 5 relay = none ↔
      ∀ pid ∈ namedFive nodeAt found (endpoint relay) cid, registered opts (string pid) = none := by
  rw [firstNamed_relayOf]
  cases hnode : nodeAt (endpoint relay) with
  | none => simp [namedFive, hnode]
  | some d =>
    rw [Option.bind_some, List.findSome?_eq_none_iff]
    simp only [dialled, Option.map_eq_none_iff]

section Announced
variable (rawCid : Bytes → Cid) (hinj : Function.Injective rawCid)
  (hannouncers : ∀ peer kad, (dhtOf peer).ipfs = some kad → Parses kad rawCid)
  (hrelays : ∀ url d kad, nodeAt url = some d → d.ipfs = some kad → Parses kad rawCid)

theorem sessionCidOf_ok (sessionID cidStr : Bytes) :
    sessionCidOf sessionID = .ok cidStr ↔
      sessionID ≠ [] ∧ cidText (Sha256.sha256 sessionID) = cidStr := by
  rw [sessionCidOf]
  by_cases h : sessionID = []
  · rw [if_pos h]
    exact iff_of_false nofun (fun hne => hne.1 h)
  · rw [if_neg h]
    simp [h]

include hrelays in
theorem namedFive_mem (url sessionId : Bytes) (pid : PeerId)
    (h : pid ∈ namedFive nodeAt found url (cidText (Sha256.sha256 sessionId))) :
    pid ∈ found url (rawCid (Sha256.sha256 sessionId)) := by
  rw [namedFive] at h
  cases hnode : nodeAt url with
  | none =>
    rw [hnode] at h
    cases h
  | some d =>
    rw [hnode, Option.bind_some] at h
    cases hipfs : d.ipfs with
    | none =>
      rw [hipfs] at h
      cases h
    | some kad =>
      have hcid := (hrelays url d kad hnode hipfs).canonical _ (Sha256.sha256_length sessionId)
      simp only [hipfs, hcid] at h
      exact List.mem_of_mem_take h

include hinj hannouncers in
theorem reported_digest (peer : PeerId) (sessionID sessionId cidStr : Bytes)
    (hcid : sessionCidOf sessionID = .ok cidStr)
    (hidentified : Announce.identified dhtOf peer cidStr = some (rawCid (Sha256.sha256 sessionId))) :
    Sha256.sha256 sessionID = Sha256.sha256 sessionId := by
  obtain ⟨-, rfl⟩ := (sessionCidOf_ok sessionID cidStr).mp hcid
  rw [Announce.identified] at hidentified
  cases hipfs : (dhtOf peer).ipfs with
  | none =>
    rw [hipfs] at hidentified
    cases hidentified
  | some kad =>
    have hcanonical := (hannouncers peer kad hipfs).canonical _ (Sha256.sha256_length sessionID)
    rw [hipfs, Option.bind_some, hcanonical] at hidentified
    exact hinj (Option.some.inj hidentified)

include hinj hannouncers hrelays in
/-- What a browser is given is a registered peer whose loop has reported an announcement of
the session. It is given nothing exactly if no relay names a registered peer. -/
theorem session_discovered (actions : List (Announce.Action PeerId)) (sessionId : Bytes)
    (hne : sessionId ≠ [])
    (hrecords : ∀ url pid, pid ∈ found url (rawCid (Sha256.sha256 sessionId)) →
      (rawCid (Sha256.sha256 sessionId),pid) ∈
        (Run.run (Announce.next dhtOf) Announce.initial actions).records) :
    let cid := cidText (Sha256.sha256 sessionId)
    let resolved := resolveSessionProvider (relayOf string nodeAt found) opts sessionId
    (∀ provider, resolved = .ok (some provider) →
      registered opts provider.peerId = some provider.httpsBase ∧
      provider.resolvedVia ∈ opts.relayUrls ∧
      ∃ a ∈ (Run.run (Announce.next dhtOf) Announce.initial actions).announcements,
        provider.peerId = string a.peer ∧ Announce.Announced a.events ∧
        Sha256.sha256 a.sessionID = Sha256.sha256 sessionId) ∧
    (resolved = .ok none ↔ ∀ relay ∈ opts.relayUrls,
      ∀ pid ∈ namedFive nodeAt found (endpoint relay) cid, registered opts (string pid) = none) := by
  intro cid resolved
  have hwalk : resolved = .ok _ := resolve_relays opts (relayOf string nodeAt found) sessionId hne
  rw [hwalk]
  constructor
  · intro provider hprovider
    obtain ⟨relay, hrelay, hfirst⟩ := List.exists_of_findSome?_eq_some (Except.ok.inj hprovider)
    obtain ⟨pid, hpid, hid, hbase, hvia⟩ := firstNamed_some string nodeAt found opts relay cid _ hfirst
    have hfound := namedFive_mem nodeAt found rawCid hrelays (endpoint relay) sessionId pid hpid
    have hinv := Announce.run_inv dhtOf actions
    obtain ⟨a, ha, hpeer, hidentified, hannounced⟩ :=
      (hinv.records _ pid).mp (hrecords (endpoint relay) pid hfound)
    refine ⟨by rw [hid]; exact hbase,by rw [hvia]; exact hrelay,a,ha,?_,hannounced,?_⟩
    · rw [hid, hpeer]
    · exact reported_digest dhtOf rawCid hinj hannouncers a.peer a.sessionID sessionId a.cidStr
        (hinv.named a ha) hidentified
  · rw [Except.ok.injEq, List.findSome?_eq_none_iff]
    exact forall₂_congr fun relay _ => firstNamed_none string nodeAt found opts relay cid

end Announced

section Samples

def announcesBoth : List (Announce.Action SamplePeer) :=
  [.start .origin (ascii "s") none, .start .mirror (ascii "s") (some (.new "failed to find any peers"))]

def findsOrigin (c : Bytes) : List SamplePeer :=
  if c = Sha256.sha256 (ascii "s") then [.origin] else [.mirror]

theorem session_discovered_origin :
    let opts : ResolveOptions := ⟨[ascii "https://relay"],fun _ => some (ascii "https://provider")⟩
    let nodeAt := fun _ => some (sampleDht findsOrigin)
    let resolved := resolveSessionProvider (relayOf SamplePeer.name nodeAt (fun _ => findsOrigin))
      opts (ascii "s")
    (∀ provider, resolved = .ok (some provider) →
      registered opts provider.peerId = some provider.httpsBase ∧
      provider.resolvedVia ∈ opts.relayUrls ∧
      ∃ a ∈ (Run.run (Announce.next fun _ => sampleDht findsOrigin) Announce.initial
          announcesBoth).announcements,
        provider.peerId = a.peer.name ∧ Announce.Announced a.events ∧
        Sha256.sha256 a.sessionID = Sha256.sha256 (ascii "s")) ∧
    (resolved = .ok none ↔ ∀ relay ∈ opts.relayUrls,
      ∀ pid ∈ namedFive nodeAt (fun _ => findsOrigin) (endpoint relay)
        (cidText (Sha256.sha256 (ascii "s"))), registered opts pid.name = none) := by
  have hparses : Parses (sampleKad findsOrigin) id := ⟨parseRaw_cidText⟩
  refine session_discovered SamplePeer.name (fun _ => some (sampleDht findsOrigin))
    (fun _ => findsOrigin) (fun _ => sampleDht findsOrigin) _ id Function.injective_id ?_ ?_
    announcesBoth (ascii "s") (by decide) ?_
  · rintro peer kad hkad
    obtain rfl := Option.some.inj hkad
    exact hparses
  · rintro url d kad hd hkad
    obtain rfl := Option.some.inj hd
    obtain rfl := Option.some.inj hkad
    exact hparses
  · intro url pid hpid
    rw [id, findsOrigin, if_pos rfl] at hpid
    obtain rfl := List.mem_singleton.mp hpid
    have hprovide : Announce.provide (sampleDht findsOrigin)
        (cidText (Sha256.sha256 (ascii "s"))) none = .ok (Sha256.sha256 (ascii "s")) := by
      simp only [Announce.provide, sampleDht, sampleKad,
        parseRaw_cidText _ (Sha256.sha256_length (ascii "s"))]
    apply List.mem_append_left
    show _ ∈ [] ++ Announce.recorded SamplePeer.origin (Announce.provide (sampleDht findsOrigin)
      (cidText (Sha256.sha256 (ascii "s"))) none)
    rw [hprovide]
    exact List.mem_singleton_self _

end Samples

end Discovery

end Aevia.Mesh
