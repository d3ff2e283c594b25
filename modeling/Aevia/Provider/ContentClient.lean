import Aevia.Provider.ManifestCodec

/-!
# Fetching content from providers

The client asks the providers of a CID one after the other and returns what the
first one delivers that survives all checks. Everything that comes over the
network is an argument: the answers may differ from attempt to attempt and need
not be honest. The checks tie segments to the manifest and the manifest to its
own CID, so the content is bound to the requested CID when that provider's
manifest names it.
-/

set_option autoImplicit false

namespace Aevia.ContentClient
open Aevia.Bytes Aevia.Fallible Aevia.Manifests Aevia.Sha256

/-- What a request is answered with; `header` gives "" for a missing one. -/
structure Response where
  statusCode : ℤ
  header : Bytes → Bytes
  body : Except GoError Bytes

/-- The host and its network. Providers are tried once per position in the
resolver's list, which numbers the attempts. -/
structure Network (Peer : Type) where
  text : Peer → Bytes
  findProviders : Option (Bytes → ℤ → Except GoError (List Peer))
  connectedness : ℕ → Peer → Bytes
  addresses : ℕ → Peer → List Bytes
  connect : ℕ → Peer → Option GoError
  newRequest : Bytes → Option GoError
  send : ℕ → Bytes → Except GoError Response

structure VerifiedContent where
  manifest : Manifest
  segments : List Bytes
  deriving DecidableEq

def statusOK : ℤ := 200
def segmentHashHeader : Bytes := ascii "X-Aevia-Segment-Sha256"
def defaultResolveLimit : ℤ := 10

def errNoResolver : GoError :=
  .new "client: no resolver configured (use client.WithResolver)"

def errNoProviders (cid : Bytes) : GoError :=
  .errorf "client: no providers found for cid=%s" [.text cid]

def errHashMismatch (cid : Bytes) (index : ℤ) (claimed actual : Bytes) : GoError :=
  .errorf "client: segment hash mismatch cid=%s idx=%d claimed=%s actual=%s"
    [.text cid, .int index, .text claimed, .text actual]

def errLeafMismatch (cid : Bytes) (index : ℤ) (expected actual : Bytes) : GoError :=
  .errorf "client: segment leaf mismatch cid=%s idx=%d expected=%s actual=%s"
    [.text cid, .int index, .text expected, .text actual]

def manifestPath (cid : Bytes) : Bytes := ascii "/content/"++cid++ascii "/manifest.json"

def segmentPath (cid : Bytes) (index : ℕ) : Bytes :=
  ascii "/content/"++cid++ascii "/segment/"++decimal index

section Calls
variable {Peer : Type} (net : Network Peer) (attempt : ℕ) (pid : Peer)

def Network.url (path : Bytes) : Bytes := ascii "libp2p://"++net.text pid++path

def getBytes (path : Bytes) : Except GoError (Bytes × Response) :=
  match net.newRequest (net.url pid path) with
  | some e => .error (.wrap "client: build request: %w" [] e)
  | none => match net.send attempt (net.url pid path) with
    | .error e => .error (.wrap "client: GET %s: %w" [.text path] e)
    | .ok resp =>
      if resp.statusCode ≠ statusOK then
        .error (.errorf "client: GET %s: unexpected status %d"
          [.text path, .int resp.statusCode])
      else match resp.body with
        | .error e => .error (.wrap "client: read body: %w" [] e)
        | .ok body => .ok (body, resp)

/-- Parsed and consistent in itself; not compared with the CID asked for. -/
def fetchManifest (cid : Bytes) : Except GoError Manifest := do
  let (body, _) ← getBytes net attempt pid (manifestPath cid)
  match parseManifest body with
  | .error e => .error (.wrap "client: parse manifest: %w" [] e)
  | .ok m => match m.verify with
    | .error e => .error (.wrap "client: manifest self-consistency: %w" [] e)
    | .ok () => .ok m

def fetchManifestExpectingCID (cid expectedCID : Bytes) : Except GoError Manifest := do
  let m ← fetchManifest net attempt pid cid
  if m.cid ≠ expectedCID then
    .error (.errorf "client: manifest cid %q does not match expected %q"
      [.text m.cid, .text expectedCID])
  else .ok m

/-- The body, if the hash the server reports is that of the body. -/
def fetchSegment (cid : Bytes) (index : ℤ) : Except GoError Bytes :=
  if index < 0 then
    .error (.errorf "client: segment index must be >= 0 (got %d)" [.int index])
  else do
    let (body, resp) ← getBytes net attempt pid (segmentPath cid index.toNat)
    if resp.header segmentHashHeader = [] then
      .error (.errorf "client: server did not report X-Aevia-Segment-Sha256 for cid=%s idx=%d"
        [.text cid, .int index])
    else if hexEncode (sha256 body) ≠ resp.header segmentHashHeader then
      .error (errHashMismatch cid index (resp.header segmentHashHeader) (hexEncode (sha256 body)))
    else .ok body

/-- The loop over the segments from an index on. A verified manifest has a leaf
for every segment. -/
def fetchSegments (cid : Bytes) (m : Manifest) : ℕ → ℕ → Except GoError (List Bytes)
  | _, 0 => .ok []
  | i, n+1 => do
    let seg ← fetchSegment net attempt pid cid i
    if hexEncode (sha256 seg) ≠ m.leafList.getD i [] then
      .error (errLeafMismatch cid i (m.leafList.getD i []) (hexEncode (sha256 seg)))
    else do
      let segments ← fetchSegments cid m (i+1) n
      .ok (seg::segments)

def fetchAndVerifyContent (cid : Bytes) : Except GoError VerifiedContent := do
  let m ← fetchManifest net attempt pid cid
  let segments ← fetchSegments net attempt pid cid m 0 m.segmentCount.toInt.toNat
  .ok ⟨m, segments⟩

def ensureConnected : Option GoError :=
  if net.connectedness attempt pid = ascii "Connected" then none
  else if net.addresses attempt pid = [] then
    some (.errorf "no addresses known for %s" [.text (net.text pid)])
  else net.connect attempt pid

def resolveProviders (cid : Bytes) (limit : ℤ) : Except GoError (List Peer) :=
  match net.findProviders with
  | none => .error errNoResolver
  | some find => match find cid limit with
    | .error e => .error (.wrap "client: resolve providers for %s: %w" [.text cid] e)
    | .ok providers => if providers = [] then .error (errNoProviders cid) else .ok providers

/-- The loop over the providers; without a success it ends with the last error. -/
def tryProviders (cid : Bytes) : ℕ → List Peer → Option GoError →
    Except (Option GoError) VerifiedContent
  | _, [], lastErr => .error lastErr
  | n, pid::pids, _ =>
    match ensureConnected net n pid with
    | some e =>
      tryProviders cid (n+1) pids
        (some (.wrap "client: connect %s: %w" [.text (net.text pid)] e))
    | none => match fetchAndVerifyContent net n pid cid with
      | .ok vc => .ok vc
      | .error e => tryProviders cid (n+1) pids (some e)

def fetchAndVerifyByCID (cid : Bytes) : Except GoError VerifiedContent := do
  let providers ← resolveProviders net cid defaultResolveLimit
  match tryProviders net cid 0 providers none with
  | .ok vc => .ok vc
  | .error (some lastErr) =>
    .error (.wrap "client: all %d providers failed: %w" [.int providers.length] lastErr)
  | .error none => .error (errNoProviders cid)

end Calls

section Served
variable {Peer : Type} (net : Network Peer)

structure Delivers (n : ℕ) (pid : Peer) (path body : Bytes) (resp : Response) : Prop where
  built : net.newRequest (net.url pid path) = none
  sent : net.send n (net.url pid path) = .ok resp
  status : resp.statusCode = statusOK
  read : resp.body = .ok body

/-- A manifest document that gets through and is consistent in itself. -/
structure ServesManifest (n : ℕ) (pid : Peer) (cid : Bytes) (m : Manifest) : Prop where
  document : ∃ body resp, Delivers net n pid (manifestPath cid) body resp ∧
    parseManifest body = .ok m
  verified : m.verify = .ok ()

def ServesSegment (n : ℕ) (pid : Peer) (cid : Bytes) (i : ℕ) (seg : Bytes) : Prop :=
  ∃ resp, Delivers net n pid (segmentPath cid i) seg resp ∧
    resp.header segmentHashHeader = hexEncode (sha256 seg)

/-- A provider that is reachable and whose answers pass every check. -/
structure Serves (n : ℕ) (pid : Peer) (cid : Bytes) (m : Manifest) (segments : List Bytes) :
    Prop where
  connected : ensureConnected net n pid = none
  manifest : ServesManifest net n pid cid m
  count : segments.length = m.segmentCount.toInt.toNat
  segments : ∀ i seg, segments[i]? = some seg → ServesSegment net n pid cid i seg ∧
    m.leafList.getD i [] = hexEncode (sha256 seg)

/-- The first provider of a list that serves a CID, with what it serves. -/
def FirstToServe (cid : Bytes) (providers : List Peer) (m : Manifest) (segments : List Bytes) :
    Prop :=
  ∃ n pid, providers[n]? = some pid ∧ Serves net n pid cid m segments ∧
    ∀ k < n, ∀ other, providers[k]? = some other → ∀ m' segments',
      ¬ Serves net k other cid m' segments'

theorem getBytes_ok (n : ℕ) (pid : Peer) (path body : Bytes) (resp : Response) :
    getBytes net n pid path = .ok (body, resp) ↔ Delivers net n pid path body resp := by
  unfold getBytes
  constructor
  · intro h
    split at h
    · cases h
    · rename_i hbuilt
      split at h
      · cases h
      · rename_i r hsent
        rw [guard_ok] at h
        obtain ⟨hstatus, h⟩ := h
        split at h
        · cases h
        · rename_i b hread
          cases h
          exact ⟨hbuilt,hsent,not_not.mp hstatus,hread⟩
  · rintro ⟨hbuilt, hsent, hstatus, hread⟩
    rw [hbuilt, hsent]
    simp [hstatus, hread]

theorem fetchManifest_ok (n : ℕ) (pid : Peer) (cid : Bytes) (m : Manifest) :
    fetchManifest net n pid cid = .ok m ↔ ServesManifest net n pid cid m := by
  unfold fetchManifest
  rw [bind_ok]
  constructor
  · rintro ⟨⟨body, resp⟩, hbytes, h⟩
    rw [getBytes_ok] at hbytes
    dsimp only at h
    split at h
    · cases h
    · rename_i m' hparse
      split at h
      · cases h
      · rename_i hverify
        cases h
        exact ⟨⟨body,resp,hbytes,hparse⟩,hverify⟩
  · rintro ⟨⟨body, resp, hbytes, hparse⟩, hverify⟩
    refine ⟨(body, resp), (getBytes_ok net n pid _ _ _).mpr hbytes, ?_⟩
    simp only [hparse, hverify]

theorem fetchManifestExpectingCID_ok (n : ℕ) (pid : Peer) (cid expectedCID : Bytes)
    (m : Manifest) : fetchManifestExpectingCID net n pid cid expectedCID = .ok m ↔
      ServesManifest net n pid cid m ∧ m.cid = expectedCID := by
  unfold fetchManifestExpectingCID
  simp only [bind_ok, guard_ok, not_not, fetchManifest_ok, Except.ok.injEq]
  constructor
  · rintro ⟨m, hm, hcid, rfl⟩
    exact ⟨hm,hcid⟩
  · rintro ⟨hm, hcid⟩
    exact ⟨m,hm,hcid,rfl⟩

theorem fetchSegment_ok (n : ℕ) (pid : Peer) (cid : Bytes) (i : ℕ) (seg : Bytes) :
    fetchSegment net n pid cid i = .ok seg ↔ ServesSegment net n pid cid i seg := by
  unfold fetchSegment
  rw [if_neg (by omega), bind_ok, Int.toNat_natCast]
  constructor
  · rintro ⟨⟨body, resp⟩, hbytes, h⟩
    rw [getBytes_ok] at hbytes
    dsimp only at h
    simp only [guard_ok, not_not] at h
    obtain ⟨-, hhash, h⟩ := h
    cases h
    exact ⟨resp,hbytes,hhash.symm⟩
  · rintro ⟨resp, hbytes, hhash⟩
    have hne : hexEncode (sha256 seg) ≠ [] := by
      intro h
      have hdecode := hexDecode_hexEncode (sha256 seg)
      have hlen := sha256_length seg
      rw [h] at hdecode
      rw [← Option.some.inj hdecode] at hlen
      cases hlen
    refine ⟨(seg, resp), (getBytes_ok net n pid _ _ _).mpr hbytes, ?_⟩
    dsimp only
    rw [hhash, if_neg hne, if_neg (not_not.mpr rfl)]

theorem fetchSegments_ok (n : ℕ) (pid : Peer) (cid : Bytes) (m : Manifest) (i count : ℕ)
    (segments : List Bytes) : fetchSegments net n pid cid m i count = .ok segments ↔
      segments.length = count ∧ ∀ j seg, segments[j]? = some seg →
        ServesSegment net n pid cid (i+j) seg ∧
          m.leafList.getD (i+j) [] = hexEncode (sha256 seg) := by
  induction count generalizing i segments with
  | zero =>
    rw [fetchSegments, Except.ok.injEq]
    constructor
    · rintro rfl
      simp
    · rintro ⟨hlen, -⟩
      exact (List.length_eq_zero_iff.mp hlen).symm
  | succ count ih =>
    simp only [fetchSegments, bind_ok, guard_ok, not_not, fetchSegment_ok, Except.ok.injEq, ih]
    constructor
    · rintro ⟨seg, hseg, hleaf, rest, ⟨hlen, hrest⟩, rfl⟩
      refine ⟨by simp [hlen], fun j s hj => ?_⟩
      cases j with
      | zero =>
        cases hj
        exact ⟨hseg,hleaf.symm⟩
      | succ j =>
        have h := hrest j s hj
        rwa [Nat.add_right_comm, Nat.add_assoc] at h
    · rintro ⟨hlen, h⟩
      cases segments with
      | nil => cases hlen
      | cons seg rest =>
        obtain ⟨hseg, hleaf⟩ := h 0 seg rfl
        refine ⟨seg, hseg, hleaf.symm, rest, ⟨by simpa using hlen, fun j s hj => ?_⟩, rfl⟩
        have hj := h (j+1) s hj
        rwa [← Nat.add_assoc, Nat.add_right_comm] at hj

theorem fetchAndVerifyContent_ok (n : ℕ) (pid : Peer) (cid : Bytes) (vc : VerifiedContent)
    (hconnected : ensureConnected net n pid = none) :
    fetchAndVerifyContent net n pid cid = .ok vc ↔
      Serves net n pid cid vc.manifest vc.segments := by
  unfold fetchAndVerifyContent
  simp only [bind_ok, fetchManifest_ok, fetchSegments_ok, Nat.zero_add, Except.ok.injEq]
  constructor
  · rintro ⟨m, hm, segments, ⟨hlen, hsegments⟩, rfl⟩
    exact ⟨hconnected,hm,hlen,hsegments⟩
  · intro h
    exact ⟨_,h.manifest,_,⟨h.count,h.segments⟩,rfl⟩

theorem first_serving_cons (cid : Bytes) (n : ℕ) (pid : Peer) (pids : List Peer)
    (vc : VerifiedContent) (hnone : ∀ m' segments', ¬ Serves net n pid cid m' segments') :
    (∃ k p, (pid::pids)[k]? = some p ∧ Serves net (n+k) p cid vc.manifest vc.segments ∧
      ∀ j < k, ∀ other, (pid::pids)[j]? = some other → ∀ m' segments',
        ¬ Serves net (n+j) other cid m' segments') ↔
    ∃ k p, pids[k]? = some p ∧ Serves net (n+1+k) p cid vc.manifest vc.segments ∧
      ∀ j < k, ∀ other, pids[j]? = some other → ∀ m' segments',
        ¬ Serves net (n+1+j) other cid m' segments' := by
  constructor
  · rintro ⟨k, p, hp, hserves, hbefore⟩
    cases k with
    | zero =>
      cases hp
      exact (hnone _ _ hserves).elim
    | succ k =>
      refine ⟨k, p, hp, by rwa [Nat.add_assoc, Nat.add_comm 1], fun j hj other ho => ?_⟩
      have h := hbefore (j+1) (by omega) other ho
      rwa [Nat.add_assoc, Nat.add_comm 1]
  · rintro ⟨k, p, hp, hserves, hbefore⟩
    refine ⟨k+1, p, hp, by rwa [Nat.add_assoc, Nat.add_comm 1] at hserves, fun j hj other ho => ?_⟩
    cases j with
    | zero =>
      cases ho
      exact hnone
    | succ j =>
      have h := hbefore j (by omega) other ho
      rwa [Nat.add_assoc, Nat.add_comm 1] at h

theorem tryProviders_ok (cid : Bytes) (n : ℕ) (providers : List Peer) (lastErr : Option GoError)
    (vc : VerifiedContent) : tryProviders net cid n providers lastErr = .ok vc ↔
      ∃ k pid, providers[k]? = some pid ∧ Serves net (n+k) pid cid vc.manifest vc.segments ∧
        ∀ j < k, ∀ other, providers[j]? = some other → ∀ m' segments',
          ¬ Serves net (n+j) other cid m' segments' := by
  induction providers generalizing n lastErr with
  | nil => simp [tryProviders]
  | cons pid pids ih =>
    unfold tryProviders
    cases hconnected : ensureConnected net n pid with
    | some e =>
      rw [first_serving_cons net cid n pid pids vc (fun m' segments' h => ?_)]
      · exact ih _ _
      · rw [h.connected] at hconnected
        cases hconnected
    | none =>
      dsimp only
      cases hcontent : fetchAndVerifyContent net n pid cid with
      | error e =>
        rw [first_serving_cons net cid n pid pids vc (fun m' segments' h => ?_)]
        · exact ih _ _
        · rw [(fetchAndVerifyContent_ok net n pid cid ⟨m', segments'⟩ hconnected).mpr h] at hcontent
          cases hcontent
      | ok found =>
        have hfound := (fetchAndVerifyContent_ok net n pid cid found hconnected).mp hcontent
        dsimp only
        rw [Except.ok.injEq]
        constructor
        · rintro rfl
          exact ⟨0,pid,rfl,hfound,by simp⟩
        · rintro ⟨k, p, hp, hserves, hbefore⟩
          cases k with
          | zero =>
            cases hp
            have h := (fetchAndVerifyContent_ok net n pid cid vc hconnected).mpr hserves
            rw [hcontent] at h
            exact Except.ok.inj h
          | succ k => exact (hbefore 0 (by omega) pid rfl _ _ hfound).elim

theorem fetchAndVerifyByCID_ok (cid : Bytes) (vc : VerifiedContent) :
    fetchAndVerifyByCID net cid = .ok vc ↔
      ∃ providers, resolveProviders net cid defaultResolveLimit = .ok providers ∧
        FirstToServe net cid providers vc.manifest vc.segments := by
  unfold fetchAndVerifyByCID
  rw [bind_ok]
  refine exists_congr (fun providers => and_congr_right (fun _ => ?_))
  have h := tryProviders_ok net cid 0 providers none vc
  simp only [Nat.zero_add] at h
  rw [FirstToServe, ← h]
  cases htry : tryProviders net cid 0 providers none with
  | ok found => simp only [Except.ok.injEq]
  | error e => cases e <;> simp

end Served

section Binding
variable {Peer : Type} (net : Network Peer)

/-- Content that belongs to a CID: the manifest names it, and the segments hash
to the leaves of a tree whose root is the digest in it. -/
structure Bound (cid : Bytes) (vc : VerifiedContent) : Prop where
  cid_eq : vc.manifest.cid = cid
  root : ∃ t : Tree, t.leaves = vc.segments.map hashLeaf ∧ cidv1Raw t.root = .ok cid

theorem serves_root (n : ℕ) (pid : Peer) (cid : Bytes) (m : Manifest) (segments : List Bytes)
    (h : Serves net n pid cid m segments) :
    ∃ t : Tree, t.leaves = segments.map hashLeaf ∧ cidv1Raw t.root = .ok m.cid := by
  obtain ⟨-, hcount, -, t, hleaves, -, hcid⟩ := (verify_ok m).mp h.manifest.verified
  have htexts : m.leafList = (segments.map hashLeaf).map hexEncode := by
    refine List.ext_getElem? (fun i => ?_)
    have hlen := h.count
    rw [List.getElem?_map, List.getElem?_map]
    cases hi : segments[i]? with
    | none =>
      rw [List.getElem?_eq_none_iff] at hi
      exact List.getElem?_eq_none_iff.mpr (by omega)
    | some seg =>
      obtain ⟨hlt, -⟩ := List.getElem?_eq_some_iff.mp hi
      have hleaf := (h.segments i seg hi).2
      have hget := List.getElem?_eq_getElem (show i < m.leafList.length by omega)
      rw [List.getD_eq_getElem?_getD, hget, Option.getD_some] at hleaf
      rw [hget, hleaf]
      rfl
  have hsized : ∀ b ∈ segments.map hashLeaf, b.length = hashSize := by
    intro b hb
    obtain ⟨seg, -, rfl⟩ := List.mem_map.mp hb
    exact sha256_length seg
  rw [htexts, decodeLeaves_hexEncode 0 _ hsized] at hleaves
  exact ⟨t,(Except.ok.inj hleaves).symm,hcid⟩

/-- Every manifest that a provider can be asked for names the CID: one of another
content stands behind a provider that serves the content of the CID whole. -/
def Anchored (cid : Bytes) (providers : List Peer) : Prop :=
  ∀ n pid m, providers[n]? = some pid → ensureConnected net n pid = none →
    ServesManifest net n pid cid m → m.cid = cid ∨
      ∃ k < n, ∃ other m' segments, providers[k]? = some other ∧
        Serves net k other cid m' segments ∧ m'.cid = cid

theorem anchored_first (cid : Bytes) (providers : List Peer) (m : Manifest) (segments : List Bytes)
    (hanchored : Anchored net cid providers) (hfirst : FirstToServe net cid providers m segments) :
    m.cid = cid := by
  obtain ⟨n, pid, hpid, hserves, hbefore⟩ := hfirst
  rcases hanchored n pid m hpid hserves.connected hserves.manifest with hcid | hearlier
  · exact hcid
  · obtain ⟨k, hk, other, m', segments', hother, hother', -⟩ := hearlier
    exact (hbefore k hk other hother m' segments' hother').elim

/-- What is returned is bound to the CID asked for if the providers are anchored in it. -/
theorem fetchAndVerifyByCID_bound (cid : Bytes)
    (hanchored : ∀ providers, resolveProviders net cid defaultResolveLimit = .ok providers →
      Anchored net cid providers)
    (vc : VerifiedContent) (hvc : fetchAndVerifyByCID net cid = .ok vc) : Bound cid vc := by
  obtain ⟨providers, hproviders, hfirst⟩ := (fetchAndVerifyByCID_ok net cid vc).mp hvc
  have hcid := anchored_first net cid providers _ _ (hanchored providers hproviders) hfirst
  obtain ⟨n, pid, -, hserves, -⟩ := hfirst
  obtain ⟨t, ht, hroot⟩ := serves_root net n pid cid _ _ hserves
  exact ⟨hcid,t,ht,hcid ▸ hroot⟩

section Samples

def requestedTree : Tree where
  leaves := [hashLeaf [1]]
  nonempty := by simp
  sized := by simp [hashLeaf, hashSize]

def otherTree : Tree where
  leaves := [hashLeaf [2]]
  nonempty := by simp
  sized := by simp [hashLeaf, hashSize]

def honestSecond : Network ℕ where
  text := fun p => ascii "12D3KooW"++decimal p
  findProviders := some (fun _ _ => .ok [0, 1, 2])
  connectedness := fun _ p => if p = 0 then ascii "NotConnected" else ascii "Connected"
  addresses := fun _ _ => []
  connect := fun _ _ => none
  newRequest := fun _ => none
  send := fun n url =>
    let byte : UInt8 := if n = 2 then 2 else 1
    let m := manifestOf (if n = 2 then otherTree else requestedTree) 6
    .ok ⟨statusOK, fun _ => hexEncode (hashLeaf [byte]),
      if (ascii "json").isSuffixOf url then .ok (manifestJson m).print else .ok [byte]⟩

theorem honestSecond_anchored : Anchored honestSecond (cidText (hashLeaf [1])) [0, 1, 2] := by
  have hserves : Serves honestSecond 1 1 (cidText (hashLeaf [1])) (manifestOf requestedTree 6) [[1]] :=
    (fetchAndVerifyContent_ok honestSecond 1 1 _ ⟨manifestOf requestedTree 6, [[1]]⟩
      (by decide +kernel)).mp (by decide +kernel)
  have hcid : (manifestOf requestedTree 6).cid = cidText (hashLeaf [1]) := by decide +kernel
  intro n pid m hpid hconnected hm
  match n with
  | 0 =>
    cases hpid
    exact absurd hconnected (by decide +kernel)
  | 1 =>
    cases hpid
    have hread := (fetchManifest_ok honestSecond 1 1 _ _).mpr hserves.manifest
    have hsame := (fetchManifest_ok honestSecond 1 1 _ m).mpr hm
    rw [hread, Except.ok.injEq] at hsame
    exact Or.inl (hsame ▸ hcid)
  | 2 => exact Or.inr ⟨1,by decide,1,_,_,rfl,hserves,hcid⟩
  | n+3 => cases hpid

theorem fetchAndVerifyByCID_bound_second :
    fetchAndVerifyByCID honestSecond (cidText (hashLeaf [1])) =
      .ok ⟨manifestOf requestedTree 6, [[1]]⟩ ∧
    Bound (cidText (hashLeaf [1])) ⟨manifestOf requestedTree 6, [[1]]⟩ := by
  have hfetched : fetchAndVerifyByCID honestSecond (cidText (hashLeaf [1])) =
      .ok ⟨manifestOf requestedTree 6, [[1]]⟩ := by decide +kernel
  refine ⟨hfetched, fetchAndVerifyByCID_bound honestSecond _ (fun providers hproviders => ?_) _ hfetched⟩
  cases hproviders
  exact honestSecond_anchored

/-- One provider that answers every request with the same document, and
every segment with one byte. -/
def substituting : Network Unit where
  text := fun _ => ascii "12D3KooWexample"
  findProviders := some (fun _ _ => .ok [()])
  connectedness := fun _ _ => ascii "Connected"
  addresses := fun _ _ => []
  connect := fun _ _ => none
  newRequest := fun _ => none
  send := fun _ url => .ok ⟨statusOK, fun _ => hexEncode (hashLeaf [2]),
    if (ascii "json").isSuffixOf url then .ok (manifestJson (manifestOf otherTree 6)).print
    else .ok [2]⟩

/-- Asked for the CID of one segment, the provider serves another. -/
theorem substituted_content_returned :
    cidv1Raw (hashLeaf [1]) = .ok (cidText (hashLeaf [1])) ∧
    fetchAndVerifyByCID substituting (cidText (hashLeaf [1])) = .ok ⟨manifestOf otherTree 6, [[2]]⟩ ∧
    ¬ Bound (cidText (hashLeaf [1])) ⟨manifestOf otherTree 6, [[2]]⟩ := by
  refine ⟨by decide +kernel, by decide +kernel, fun h => ?_⟩
  have hne : (manifestOf otherTree 6).cid ≠ cidText (hashLeaf [1]) := by decide +kernel
  exact hne h.cid_eq

end Samples

end Binding

end Aevia.ContentClient
