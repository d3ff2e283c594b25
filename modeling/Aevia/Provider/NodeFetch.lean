import Aevia.Provider.HonestContent
import Aevia.Provider.ServedContent

/-!
# Fetching content from nodes

A network of nodes that answer the client's requests with their content handlers, each
over the store that its own pins and unpins have led to. A node may pin and unpin between
two requests of one attempt, and may be away for any of them. What comes back is bound to
what the answering node had pinned when it was asked for the manifest; a node that keeps
its pin delivers it byte for byte.
-/

set_option autoImplicit false

namespace Aevia.ContentClient
open Aevia.Bytes Aevia.Content Aevia.Fallible Aevia.Manifests Aevia.PinStore Aevia.Run
open Aevia.Sha256 Aevia.StoreProgram

def splitURL (url : Bytes) : Bytes × Bytes :=
  let rest := url.drop (ascii "libp2p://").length
  (rest.takeWhile (fun c => c != 47), rest.dropWhile (fun c => c != 47))

/-- The content routes of the mux, for paths without escapes. -/
def route (path : Bytes) : Option Request :=
  match path.splitOn 47 with
  | [[], content, cid, document] =>
    if content ≠ ascii "content" then none
    else if document = ascii "index.m3u8" then some (.playlist cid)
    else if document = ascii "manifest.json" then some (.manifest cid)
    else none
  | [[], content, cid, segment, n] =>
    if content = ascii "content" ∧ segment = ascii "segment" then some (.segment cid n) else none
  | _ => none

/-- The headers are set under their canonical names, and read under them. -/
def headerValue (header : List (String × Bytes)) (name : Bytes) : Bytes :=
  ((header.find? (fun field => ascii field.1 == name)).map Prod.snd).getD []

/-- The client reads no body of a status other than 200. -/
def replyResponse : Content.Reply → Response
  | .httpError _ status => ⟨status, fun _ => [], .ok []⟩
  | .ok header body => ⟨statusOK, headerValue header, .ok body⟩

/-- The nodes of the network with all that has happened at each of them, in order, by the
time it answers the request for a path of an attempt. -/
structure Nodes (Peer : Type) where
  text : Peer → Bytes
  decode : Bytes → Option Peer
  decode_text : ∀ pid, decode (text pid) = some pid
  text_plain : ∀ pid, (47 : UInt8) ∉ text pid
  quota : Peer → Quota
  history : ℕ → Peer → Bytes → Option (List (Event GoError PinCall))
  findProviders : Option (Bytes → ℤ → Except GoError (List Peer))
  connectedness : ℕ → Peer → Bytes
  addresses : ℕ → Peer → List Bytes
  connect : ℕ → Peer → Option GoError

section Network
variable {Peer : Type} (nodes : Nodes Peer)

def Nodes.answer (pid : Peer) (path : Bytes) (events : List (Event GoError PinCall)) : Response :=
  match route path with
  | none => ⟨statusNotFound, fun _ => [], .ok []⟩
  | some r => replyResponse
    ((providerHandlers (run (pinNext (nodes.quota pid)) emptyPinSet events).shared.store).serve r)

def Nodes.network : Network Peer where
  text := nodes.text
  findProviders := nodes.findProviders
  connectedness := nodes.connectedness
  addresses := nodes.addresses
  connect := nodes.connect
  newRequest := fun _ => none
  send := fun attempt url =>
    let (host, path) := splitURL url
    match nodes.decode host with
    | none => .error (.new "failed to parse peer ID")
    | some pid => match nodes.history attempt pid path with
      | none => .error (.new "failed to dial")
      | some events => .ok (nodes.answer pid path events)

def Nodes.pinned (pid : Peer) (events : List (Event GoError PinCall)) : Pinned :=
  (run (pinNext (nodes.quota pid)) emptyPinSet events).entry

def Nodes.store (pid : Peer) (events : List (Event GoError PinCall)) : Storage.Database :=
  (run (pinNext (nodes.quota pid)) emptyPinSet events).shared.store

end Network

def fixtureSegments (cid : Bytes) : List Bytes :=
  (List.range defaultSegmentCount.toInt.toNat).map
    (fun i => fixtureBytes cid (Int64.ofNat i) fixtureSegmentSize)

/-- The fixture for a CID is content like any other, under a CID of its own. -/
def fixturePin (cid : Bytes) : Pin :=
  match h : buildFixtureManifest cid with
  | .ok m => ⟨fixtureSegments cid, defaultSegmentDuration, m, h⟩
  | .error _ => False.elim (by
    obtain ⟨m, hm⟩ := buildFixtureManifest_ok cid
    rw [h] at hm
    cases hm)

def offered (pinned : Pinned) (cid : Bytes) : Pin := (pinned cid).getD (fixturePin cid)

theorem fixturePin_payloads (cid : Bytes) : (fixturePin cid).payloads = fixtureSegments cid := by
  unfold fixturePin
  split
  · rfl
  · rename_i e h
    obtain ⟨m, hm⟩ := buildFixtureManifest_ok cid
    rw [h] at hm
    cases hm

theorem fixturePin_manifest (cid : Bytes) :
    buildFixtureManifest cid = .ok (fixturePin cid).manifest := by
  have h := (fixturePin cid).built
  rw [fixturePin_payloads] at h
  have hduration : (fixturePin cid).segmentDuration = defaultSegmentDuration := by
    unfold fixturePin
    split
    · rfl
    · rename_i e h'
      obtain ⟨m, hm⟩ := buildFixtureManifest_ok cid
      rw [h'] at hm
      cases hm
  rw [hduration] at h
  exact h

/-- A CID that a path carries as it is: no character that a URL gives a meaning to, and not a
segment of dots. -/
structure Plain (cid : Bytes) : Prop where
  nonempty : cid ≠ []
  literal : ∀ c ∈ cid, c ∉ ascii "/?#%" ∧ 0x20 < c ∧ c < 0x7f
  noDots : cid ≠ ascii "." ∧ cid ≠ ascii ".."

theorem Plain.noSlash {cid : Bytes} (h : Plain cid) : (47 : UInt8) ∉ cid :=
  fun hmem => (h.literal 47 hmem).1 (by decide)

section Routing
variable {cid : Bytes} (hcid : Plain cid)

theorem decimal_no_slash (n : ℕ) : (47 : UInt8) ∉ decimal n := by
  intro h
  have hdigit := decimal_isDigit n 47 h
  exact absurd hdigit (by decide)

include hcid in
theorem route_manifest : route (manifestPath cid) = some (.manifest cid) := by
  have hpath : manifestPath cid =
      [47].intercalate [[], ascii "content", cid, ascii "manifest.json"] := by
    simp [manifestPath, ascii, List.intercalate]
  have hfields : ∀ field ∈ [[], ascii "content", cid, ascii "manifest.json"],
      (47 : UInt8) ∉ field := by
    intro field hfield
    simp only [List.mem_cons, List.not_mem_nil, or_false] at hfield
    rcases hfield with rfl | rfl | rfl | rfl
    · simp
    · decide
    · exact hcid.noSlash
    · decide
  rw [route, hpath, List.splitOn_intercalate 47 hfields (by simp)]
  rfl

include hcid in
theorem route_segment (i : ℕ) : route (segmentPath cid i) = some (.segment cid (decimal i)) := by
  have hpath : segmentPath cid i =
      [47].intercalate [[], ascii "content", cid, ascii "segment", decimal i] := by
    simp [segmentPath, ascii, List.intercalate]
  have hfields : ∀ field ∈ [[], ascii "content", cid, ascii "segment", decimal i],
      (47 : UInt8) ∉ field := by
    intro field hfield
    simp only [List.mem_cons, List.not_mem_nil, or_false] at hfield
    rcases hfield with rfl | rfl | rfl | rfl | rfl
    · simp
    · decide
    · exact hcid.noSlash
    · decide
    · exact decimal_no_slash i
  rw [route, hpath, List.splitOn_intercalate 47 hfields (by simp)]
  rfl

variable {Peer : Type} (nodes : Nodes Peer)

theorem splitURL_url (pid : Peer) (path : Bytes) :
    splitURL (nodes.network.url pid (47::path)) = (nodes.text pid, 47::path) := by
  have hdrop : (nodes.network.url pid (47::path)).drop (ascii "libp2p://").length =
      nodes.text pid++47::path := by
    rw [Network.url, List.append_assoc, List.drop_left]
    rfl
  have hhost : ∀ c ∈ nodes.text pid, (c != 47) = true := by
    intro c hc
    rw [bne_iff_ne]
    rintro rfl
    exact nodes.text_plain pid hc
  rw [splitURL, hdrop, List.takeWhile_append_of_pos hhost, List.dropWhile_append_of_pos hhost]
  simp

theorem send_url (n : ℕ) (pid : Peer) (path : Bytes) (resp : Response) :
    nodes.network.send n (nodes.network.url pid (47::path)) = .ok resp ↔
      ∃ events, nodes.history n pid (47::path) = some events ∧
        nodes.answer pid (47::path) events = resp := by
  simp only [Nodes.network]
  have hsplit := splitURL_url nodes pid path
  simp only [Nodes.network] at hsplit
  rw [hsplit]
  dsimp only
  rw [nodes.decode_text]
  cases h : nodes.history n pid (47::path) with
  | none => simp [h]
  | some events => simp [h]

end Routing

section Answers
variable {Peer : Type} (nodes : Nodes Peer) (pid : Peer) (events : List (Event GoError PinCall))
  (cid : Bytes) (hcid : Plain cid)

theorem nodes_hold : Holds (nodes.store pid events) (nodes.pinned pid events) :=
  run_holds (nodes.quota pid) events

theorem offered_manifest : ∃ t : Tree,
    t.leaves = (offered (nodes.pinned pid events) cid).payloads.map hashLeaf ∧
    (offered (nodes.pinned pid events) cid).manifest =
      manifestOf t (offered (nodes.pinned pid events) cid).segmentDuration := by
  obtain ⟨-, t, ht, hm⟩ := (buildFromPayloads_ok _ _ _).mp (offered (nodes.pinned pid events) cid).built
  exact ⟨t,ht,hm⟩

theorem offered_length : (offered (nodes.pinned pid events) cid).payloads.length < 2^63 := by
  unfold offered
  cases hp : nodes.pinned pid events cid with
  | none =>
    rw [Option.getD_none, fixturePin_payloads, fixtureSegments, List.length_map, List.length_range]
    decide
  | some p =>
    have hcounted := ((nodes_hold nodes pid events).pins cid p hp).counted
    have hlt := p.manifest.segmentCount.toInt_lt
    rw [Option.getD_some]
    omega

theorem offered_verify : (offered (nodes.pinned pid events) cid).manifest.verify = .ok () := by
  obtain ⟨hd, t, ht, hm⟩ :=
    (buildFromPayloads_ok _ _ _).mp (offered (nodes.pinned pid events) cid).built
  have hlength := offered_length nodes pid events cid
  rw [hm]
  apply manifestOf_verify t _ hd
  rw [Tree.leafCount, ht, List.length_map]
  exact hlength

theorem offered_leafList : (offered (nodes.pinned pid events) cid).manifest.leafList =
    (offered (nodes.pinned pid events) cid).payloads.map (fun b => hexEncode (hashLeaf b)) := by
  obtain ⟨t, ht, hm⟩ := offered_manifest nodes pid events cid
  rw [hm, Manifest.leafList, manifestOf, Option.getD_some, ht, List.map_map]
  rfl

theorem offered_count : (offered (nodes.pinned pid events) cid).manifest.segmentCount.toInt.toNat =
    (offered (nodes.pinned pid events) cid).payloads.length := by
  obtain ⟨-, hcount, -⟩ := (verify_ok _).mp (offered_verify nodes pid events cid)
  rw [hcount, offered_leafList, List.length_map]
  rfl

include hcid in
theorem serveManifest_offered : (providerHandlers (nodes.store pid events)).serveManifest cid =
    manifestReply (offered (nodes.pinned pid events) cid).manifest
      (manifestJson (offered (nodes.pinned pid events) cid).manifest).print := by
  have hholds := nodes_hold nodes pid events
  unfold offered
  cases hp : nodes.pinned pid events cid with
  | some p => exact serveManifest_pinned _ _ hholds cid p hp
  | none =>
    have hread := getManifest_unpinned _ _ hholds cid hp
    simp only [Handlers.serveManifest, if_neg hcid.nonempty, providerHandlers,
      Handlers.withSource, Handlers.resolveManifest, Handlers.resolve, hread, isNotFound_errNotFound,
      newHandlers, fixturePin_manifest cid, if_true, Manifest.canonicalJSON, Option.getD_none]

include hcid in
theorem servesManifest_nodes (n : ℕ) (m : Manifest) : ServesManifest nodes.network n pid cid m ↔
    ∃ events, nodes.history n pid (manifestPath cid) = some events ∧
      m = (offered (nodes.pinned pid events) cid).manifest := by
  have hanswer : ∀ events, nodes.answer pid (manifestPath cid) events =
      replyResponse ((providerHandlers (nodes.store pid events)).serveManifest cid) := by
    intro events
    rw [Nodes.answer, route_manifest hcid]
    rfl
  have hparse : ∀ events, parseManifest
      (manifestJson (offered (nodes.pinned pid events) cid).manifest).print =
        .ok (offered (nodes.pinned pid events) cid).manifest := by
    intro events
    obtain ⟨t, -, hm⟩ := offered_manifest nodes pid events cid
    rw [parseManifest_print, hm, manifestOf_sanitized]
  constructor
  · rintro ⟨⟨body, resp, hdelivers, hbody⟩, -⟩
    obtain ⟨events, hhistory, hresp⟩ := (send_url nodes n pid _ resp).mp hdelivers.sent
    have hread := hdelivers.read
    change nodes.answer pid (manifestPath cid) events = resp at hresp
    rw [← hresp, hanswer, serveManifest_offered nodes _ _ _ hcid] at hread
    obtain rfl := Except.ok.inj hread
    rw [hparse] at hbody
    exact ⟨events,hhistory,(Except.ok.inj hbody).symm⟩
  · rintro ⟨events, hhistory, rfl⟩
    refine ⟨⟨_, _, ⟨rfl, (send_url nodes n pid _ _).mpr ⟨events,hhistory,rfl⟩, ?_, ?_⟩,
      hparse events⟩, offered_verify nodes pid events cid⟩
    · change (nodes.answer pid (manifestPath cid) events).statusCode = statusOK
      rw [hanswer, serveManifest_offered nodes _ _ _ hcid]
      rfl
    · change (nodes.answer pid (manifestPath cid) events).body = _
      rw [hanswer, serveManifest_offered nodes _ _ _ hcid]
      rfl

end Answers

section Segments
variable {Peer : Type} (nodes : Nodes Peer) {cid : Bytes} (hcid : Plain cid) (pid : Peer)

theorem atoi_decimal (i : ℕ) (hi : i < 2^63) : atoi (decimal i) = some (Int64.ofNat i) := by
  have hdigits := decimal_isDigit i
  have hsigned : atoi (decimal i) = atoiDigits false (decimal i) := by
    unfold atoi
    split
    · rename_i digits h
      exact absurd (hdigits 43 (by rw [h]; exact List.mem_cons_self)) (by decide)
    · rename_i digits h
      exact absurd (hdigits 45 (by rw [h]; exact List.mem_cons_self)) (by decide)
    · rfl
  have hall : (decimal i).all isDigit = true := List.all_eq_true.mpr hdigits
  have hvalid : ¬(decimal i = [] ∨ (decimal i).all isDigit = false) := by
    simp [decimal_ne_nil, hall]
  rw [hsigned, atoiDigits, ofDecimal_decimal, if_neg hvalid, if_neg Bool.false_ne_true, if_pos hi]

theorem segmentReply_hash (payload : Bytes) :
    (replyResponse (segmentReply payload)).header segmentHashHeader = hexEncode (sha256 payload) := by
  have htype : (ascii "Content-Type" == segmentHashHeader) = false := by decide
  have hlength : (ascii "Content-Length" == segmentHashHeader) = false := by decide
  have hhash : (ascii "X-Aevia-Segment-Sha256" == segmentHashHeader) = true := by decide
  simp [replyResponse, segmentReply, headerValue, htype, hlength, hhash]

include hcid in
theorem servesSegment_nodes (n i : ℕ) (events : List (Event GoError PinCall)) (p : Pin) (seg : Bytes)
    (hhistory : nodes.history n pid (segmentPath cid i) = some events)
    (hp : nodes.pinned pid events cid = some p) (hseg : p.payloads[i]? = some seg) :
    ServesSegment nodes.network n pid cid i seg := by
  have hheld := (nodes_hold nodes pid events).pins cid p hp
  obtain ⟨hlt, rfl⟩ := List.getElem?_eq_some_iff.mp hseg
  have hbound : i < 2^63 := by
    have hcounted := hheld.counted
    have hmax := p.manifest.segmentCount.toInt_lt
    omega
  have hint : (Int64.ofNat i).toInt = i := Int64.toInt_ofNat_of_lt hbound
  have hanswer : nodes.answer pid (segmentPath cid i) events =
      replyResponse (segmentReply p.payloads[i]) := by
    have hnonneg : 0 ≤ Int64.ofNat i := by
      rw [Int64.le_iff_toInt_le, hint, Int64.toInt_zero]
      omega
    rw [Nodes.answer, route_segment hcid]
    show replyResponse ((providerHandlers (nodes.store pid events)).serveSegment cid (decimal i)) = _
    rw [serveSegment_answered _ cid (decimal i) (Int64.ofNat i) hcid.nonempty
      (atoi_decimal i hbound) hnonneg, hint, Int.toNat_natCast, hheld.segments i hlt]
    rfl
  refine ⟨_, ⟨rfl, (send_url nodes n pid _ _).mpr ⟨events,hhistory,rfl⟩, ?_, ?_⟩, ?_⟩
  · change (nodes.answer pid (segmentPath cid i) events).statusCode = statusOK
    rw [hanswer]
    rfl
  · change (nodes.answer pid (segmentPath cid i) events).body = _
    rw [hanswer]
    rfl
  · change (nodes.answer pid (segmentPath cid i) events).header segmentHashHeader = _
    rw [hanswer, segmentReply_hash]

end Segments

section Fetching
variable {Peer : Type} (nodes : Nodes Peer) (cid : Bytes)

/-- Whatever the nodes pin and unpin while the client is asking, what it returns is the
manifest that a node handed out, over segments with the digests of what belongs to it. -/
theorem fetchAndVerifyByCID_offered (hcid : Plain cid) (vc : VerifiedContent)
    (h : fetchAndVerifyByCID nodes.network cid = .ok vc) :
    ∃ providers n pid events,
      resolveProviders nodes.network cid defaultResolveLimit = .ok providers ∧
      providers[n]? = some pid ∧ nodes.history n pid (manifestPath cid) = some events ∧
      vc.manifest = (offered (nodes.pinned pid events) cid).manifest ∧
      vc.segments.map hashLeaf = (offered (nodes.pinned pid events) cid).payloads.map hashLeaf := by
  obtain ⟨providers, hproviders, n, pid, hpid, hserves, -⟩ :=
    (fetchAndVerifyByCID_ok nodes.network cid vc).mp h
  obtain ⟨events, hhistory, hm⟩ :=
    (servesManifest_nodes nodes pid cid hcid n vc.manifest).mp hserves.manifest
  refine ⟨providers, n, pid, events, hproviders, hpid, hhistory, hm, ?_⟩
  have hlength : vc.segments.length = (offered (nodes.pinned pid events) cid).payloads.length := by
    rw [hserves.count, hm, offered_count]
  apply List.ext_getElem?
  intro i
  rw [List.getElem?_map, List.getElem?_map]
  by_cases hi : i < vc.segments.length
  · have hleaf := (hserves.segments i _ (List.getElem?_eq_getElem hi)).2
    rw [hm, offered_leafList, List.getD_eq_getElem?_getD, List.getElem?_map,
      List.getElem?_eq_getElem (by omega), Option.map_some, Option.getD_some] at hleaf
    rw [List.getElem?_eq_getElem hi, List.getElem?_eq_getElem (by omega), Option.map_some,
      Option.map_some]
    have hdecoded := congrArg hexDecode hleaf
    rw [hexDecode_hexEncode, hexDecode_hexEncode] at hdecoded
    rw [hdecoded]
    rfl
  · rw [List.getElem?_eq_none (by omega), List.getElem?_eq_none (by omega)]

/-- A node that is reached and has the pin whenever it is asked. -/
structure Keeps (n : ℕ) (pid : Peer) (p : Pin) : Prop where
  connected : ensureConnected nodes.network n pid = none
  manifest : ∃ events, nodes.history n pid (manifestPath cid) = some events ∧
    nodes.pinned pid events cid = some p
  segments : ∀ i < p.payloads.length, ∃ events,
    nodes.history n pid (segmentPath cid i) = some events ∧ nodes.pinned pid events cid = some p

def Away (n : ℕ) (pid : Peer) : Prop :=
  ensureConnected nodes.network n pid ≠ none ∨ nodes.history n pid (manifestPath cid) = none

/-- The first node of the resolver's list that is not away delivers what it keeps pinned,
whatever the others are up to. -/
theorem fetchAndVerifyByCID_pinned (hcid : Plain cid) (providers : List Peer)
    (hproviders : resolveProviders nodes.network cid defaultResolveLimit = .ok providers)
    (n : ℕ) (pid : Peer) (p : Pin) (hpid : providers[n]? = some pid)
    (hkeeps : Keeps nodes cid n pid p)
    (hbefore : ∀ k < n, ∀ other, providers[k]? = some other → Away nodes cid k other) :
    fetchAndVerifyByCID nodes.network cid = .ok ⟨p.manifest,p.payloads⟩ ∧
      Bound cid ⟨p.manifest,p.payloads⟩ := by
  obtain ⟨events, hhistory, hp⟩ := hkeeps.manifest
  have hoffered : offered (nodes.pinned pid events) cid = p := by
    rw [offered, hp, Option.getD_some]
  have hserves : Serves nodes.network n pid cid p.manifest p.payloads := by
    constructor
    · exact hkeeps.connected
    · exact (servesManifest_nodes nodes pid cid hcid n p.manifest).mpr ⟨events,hhistory,by rw [hoffered]⟩
    · rw [← hoffered, offered_count]
    · intro i seg hseg
      obtain ⟨hlt, -⟩ := List.getElem?_eq_some_iff.mp hseg
      obtain ⟨later, hlater, hpinned⟩ := hkeeps.segments i hlt
      constructor
      · exact servesSegment_nodes nodes hcid pid n i later p seg hlater hpinned hseg
      · rw [← hoffered, offered_leafList, hoffered, List.getD_eq_getElem?_getD, List.getElem?_map,
          hseg]
        rfl
  have hnamed := ((nodes_hold nodes pid events).pins cid p hp).named
  constructor
  · apply (fetchAndVerifyByCID_ok nodes.network cid _).mpr
    refine ⟨providers, hproviders, n, pid, hpid, hserves, ?_⟩
    intro k hk other hother m segments hother_serves
    rcases hbefore k hk other hother with haway | hsilent
    · exact haway hother_serves.connected
    · obtain ⟨es, hes, -⟩ :=
        (servesManifest_nodes nodes other cid hcid k m).mp hother_serves.manifest
      rw [hsilent] at hes
      cases hes
  · obtain ⟨t, ht, hroot⟩ := serves_root nodes.network n pid cid _ _ hserves
    rw [hnamed] at hroot
    exact ⟨hnamed,t,ht,hroot⟩

end Fetching

section Samples

inductive SampleNode where
  | gone
  | keeper
  deriving DecidableEq

def SampleNode.text : SampleNode → Bytes
  | gone => ascii "12D3KooWgone"
  | keeper => ascii "12D3KooWkeeper"

def sampleTree : Tree where
  leaves := [hashLeaf [7],hashLeaf [8]]
  nonempty := by simp
  sized := by simp [hashLeaf, hashSize]

def sampleCid : Bytes := cidText sampleTree.root

def keptPin : List (Event GoError PinCall) :=
  .start (.pinPayloads [[7],[8]] 6)::List.replicate 5 (.step 0 none)

def pinnedMore : List (Event GoError PinCall) :=
  keptPin++.start (.pinPayloads [[9]] 6)::List.replicate 4 (.step 1 none)

/-- The first node does not answer. The second pins other content once it has handed out
the manifest. -/
def sampleNodes : Nodes SampleNode where
  text := SampleNode.text
  decode := fun host => if host = ascii "12D3KooWgone" then some .gone else some .keeper
  decode_text := fun pid => by cases pid <;> decide
  text_plain := fun pid => by cases pid <;> decide
  quota := fun _ => ⟨0, 0⟩
  history := fun _ pid path =>
    if pid = .gone then none
    else if path = manifestPath sampleCid then some keptPin
    else some pinnedMore
  findProviders := some (fun _ _ => .ok [.gone,.keeper])
  connectedness := fun _ _ => ascii "Connected"
  addresses := fun _ _ => []
  connect := fun _ _ => none

theorem sampleCid_plain : Plain sampleCid :=
  ⟨List.cons_ne_nil _ _,by decide +kernel,by decide +kernel⟩

theorem fetchAndVerifyByCID_offered_second :
    fetchAndVerifyByCID sampleNodes.network sampleCid = .ok ⟨manifestOf sampleTree 6,[[7],[8]]⟩ ∧
    ∃ p : Pin, manifestOf sampleTree 6 = p.manifest ∧
      [[7],[8]].map hashLeaf = p.payloads.map hashLeaf := by
  have hfetched : fetchAndVerifyByCID sampleNodes.network sampleCid =
      .ok ⟨manifestOf sampleTree 6,[[7],[8]]⟩ := by decide +kernel
  obtain ⟨-, -, pid, events, -, -, -, hm, hsegments⟩ :=
    fetchAndVerifyByCID_offered sampleNodes sampleCid sampleCid_plain _ hfetched
  exact ⟨hfetched,offered (sampleNodes.pinned pid events) sampleCid,hm,hsegments⟩

theorem pin_eq (p p' : Pin) (hpayloads : p.payloads = p'.payloads)
    (hduration : p.segmentDuration = p'.segmentDuration) : p = p' := by
  obtain ⟨payloads, duration, manifest, hbuilt⟩ := p
  obtain ⟨payloads', duration', manifest', hbuilt'⟩ := p'
  obtain rfl : payloads = payloads' := hpayloads
  obtain rfl : duration = duration' := hduration
  obtain rfl : manifest = manifest' := Except.ok.inj (hbuilt.symm.trans hbuilt')
  rfl

theorem sampleNodes_history (n i : ℕ) :
    sampleNodes.history n .keeper (segmentPath sampleCid i) = some pinnedMore := by
  have hpath : segmentPath sampleCid i ≠ manifestPath sampleCid := by
    intro h
    have hroute := congrArg route h
    rw [route_segment sampleCid_plain, route_manifest sampleCid_plain] at hroute
    cases hroute
  simp [sampleNodes, hpath]

theorem fetchAndVerifyByCID_pinned_second : ∃ p : Pin, p.payloads = [[7],[8]] ∧
    fetchAndVerifyByCID sampleNodes.network sampleCid = .ok ⟨p.manifest,p.payloads⟩ := by
  have hkept : (sampleNodes.pinned .keeper keptPin sampleCid).map
      (fun p => (p.payloads,p.segmentDuration)) = some ([[7],[8]],6) := by decide +kernel
  have hmore : (sampleNodes.pinned .keeper pinnedMore sampleCid).map
      (fun p => (p.payloads,p.segmentDuration)) = some ([[7],[8]],6) := by decide +kernel
  obtain ⟨p, hp, hpair⟩ := Option.map_eq_some_iff.mp hkept
  obtain ⟨p', hp', hpair'⟩ := Option.map_eq_some_iff.mp hmore
  obtain ⟨hpayloads, hduration⟩ := Prod.mk.inj hpair
  obtain ⟨hpayloads', hduration'⟩ := Prod.mk.inj hpair'
  obtain rfl := pin_eq p p' (hpayloads.trans hpayloads'.symm) (hduration.trans hduration'.symm)
  have hkeeps : Keeps sampleNodes sampleCid 1 .keeper p :=
    ⟨by decide,⟨keptPin,by simp [sampleNodes],hp⟩,
      fun i _ => ⟨pinnedMore,sampleNodes_history 1 i,hp'⟩⟩
  refine ⟨p, hpayloads, (fetchAndVerifyByCID_pinned sampleNodes sampleCid sampleCid_plain
    [.gone,.keeper] (by decide) 1 .keeper p rfl hkeeps ?_).1⟩
  intro k hk other hother
  obtain rfl : k = 0 := by omega
  obtain rfl : SampleNode.gone = other := Option.some.inj hother
  exact .inr rfl

end Samples

end Aevia.ContentClient
