import Aevia.Provider.ContentClient

/-!
# Honest providers

A provider is honest about a CID when it returns a manifest that passes its check and,
for every segment, bytes with the digest at that leaf under a header that reads as their
hash. The check of the manifest reads digits in both cases, while the client compares
the header and the leaf as texts with the lower-case form, so honest content is accepted
exactly when no capital digit is in them.
-/

set_option autoImplicit false

namespace Aevia.ContentClient
open Aevia.Bytes Aevia.Fallible Aevia.Manifests Aevia.Sha256

variable {Peer : Type} (net : Network Peer)

structure Honest (n : ℕ) (pid : Peer) (cid : Bytes) (m : Manifest)
    (answers : List (Bytes × Response)) : Prop where
  manifest : ServesManifest net n pid cid m
  count : answers.length = m.segmentCount.toInt.toNat
  delivers : ∀ (i : ℕ) seg (resp : Response), answers[i]? = some (seg, resp) →
    Delivers net n pid (segmentPath cid i) seg resp
  truthful : ∀ (i : ℕ) seg (resp : Response), answers[i]? = some (seg, resp) →
    hexDecode (resp.header segmentHashHeader) = some (sha256 seg)
  digests : ∀ (i : ℕ) seg (resp : Response), answers[i]? = some (seg, resp) →
    m.leafAt (Int64.ofNat i) = .ok (sha256 seg)

def NoCapitals (text : Bytes) : Prop := ∀ c ∈ text, isCapitalDigit c = false

section Accepted
variable {net} {n : ℕ} {pid : Peer} {cid : Bytes} {m : Manifest} {answers : List (Bytes × Response)}

theorem leafAt_ok (m : Manifest) (i : ℕ) (hi : i < 2^63) (b : Bytes)
    (h : m.leafAt (Int64.ofNat i) = .ok b) :
    i < m.leafList.length ∧ hexDecode (m.leafList.getD i []) = some b := by
  have hindex : (Int64.ofNat i).toInt = i := Int64.toInt_ofNat_of_lt hi
  unfold Manifest.leafAt at h
  rw [hindex] at h
  simp only [guard_ok, Int.toNat_natCast] at h
  obtain ⟨hrange, h⟩ := h
  split at h
  · cases h
  · rename_i bytes hbytes
    simp only [guard_ok, Except.ok.injEq] at h
    obtain ⟨-, rfl⟩ := h
    refine ⟨?_, (hexDecodeString_ok _ _).mp hbytes⟩
    by_contra hlarge
    exact hrange (.inr (by omega))

theorem Honest.length (h : Honest net n pid cid m answers) :
    answers.length = m.leafList.length ∧ answers.length < 2^63 := by
  obtain ⟨-, hcount, -⟩ := (verify_ok m).mp h.manifest.verified
  have hlength := h.count
  have hlt := m.segmentCount.toInt_lt
  omega

theorem Honest.texts (h : Honest net n pid cid m answers) (i : ℕ) (seg : Bytes) (resp : Response)
    (hi : answers[i]? = some (seg, resp)) :
    (resp.header segmentHashHeader = hexEncode (sha256 seg) ↔
        NoCapitals (resp.header segmentHashHeader)) ∧
      (m.leafList.getD i [] = hexEncode (sha256 seg) ↔ NoCapitals (m.leafList.getD i [])) := by
  obtain ⟨hlt, -⟩ := List.getElem?_eq_some_iff.mp hi
  have hbound := h.length
  obtain ⟨-, hleaf⟩ := leafAt_ok m i (by omega) _ (h.digests i seg resp hi)
  rw [eq_comm, hexEncode_hexDecode _ _ (h.truthful i seg resp hi), eq_comm,
    hexEncode_hexDecode _ _ hleaf]
  exact ⟨Iff.rfl,Iff.rfl⟩

theorem Honest.served (h : Honest net n pid cid m answers) (i : ℕ) (seg : Bytes) (resp : Response)
    (hi : answers[i]? = some (seg, resp)) : ServesSegment net n pid cid i seg ↔
      resp.header segmentHashHeader = hexEncode (sha256 seg) := by
  have hdelivers := h.delivers i seg resp hi
  constructor
  · rintro ⟨other, hother, hhash⟩
    have hsame := hother.sent.symm.trans hdelivers.sent
    cases hsame
    exact hhash
  · exact fun hhash => ⟨resp, hdelivers, hhash⟩

theorem Honest.returned (h : Honest net n pid cid m answers) :
    fetchAndVerifyContent net n pid cid = .ok ⟨m, answers.map Prod.fst⟩ ↔
      ∀ (i : ℕ) seg (resp : Response), answers[i]? = some (seg, resp) →
        NoCapitals (resp.header segmentHashHeader) ∧ NoCapitals (m.leafList.getD i []) := by
  unfold fetchAndVerifyContent
  simp only [bind_ok, fetchManifest_ok, fetchSegments_ok, Nat.zero_add, Except.ok.injEq,
    VerifiedContent.mk.injEq]
  constructor
  · rintro ⟨m', -, segments, ⟨-, hsegments⟩, rfl, rfl⟩ i seg resp hi
    have hget : (answers.map Prod.fst)[i]? = some seg := by
      rw [List.getElem?_map, hi]
      rfl
    obtain ⟨hserved, hleaf⟩ := hsegments i seg hget
    obtain ⟨hheader, htext⟩ := h.texts i seg resp hi
    exact ⟨hheader.mp ((h.served i seg resp hi).mp hserved), htext.mp hleaf⟩
  · intro hall
    refine ⟨m, h.manifest, _, ⟨by rw [List.length_map, h.count], fun i seg hi => ?_⟩, rfl, rfl⟩
    rw [List.getElem?_map] at hi
    obtain ⟨⟨seg, resp⟩, hanswer, rfl⟩ := Option.map_eq_some_iff.mp hi
    obtain ⟨hheader, htext⟩ := h.texts i seg resp hanswer
    obtain ⟨hlower, hleaf⟩ := hall i seg resp hanswer
    exact ⟨(h.served i seg resp hanswer).mpr (hheader.mpr hlower), htext.mpr hleaf⟩

/-- An honest provider's content is returned as it is exactly when neither a leaf nor a
header is written with a capital digit. -/
theorem fetchAndVerifyContent_honest (h : Honest net n pid cid m answers) :
    fetchAndVerifyContent net n pid cid = .ok ⟨m, answers.map Prod.fst⟩ ↔
      (∀ leaf ∈ m.leafList, NoCapitals leaf) ∧
        ∀ answer ∈ answers, NoCapitals (answer.2.header segmentHashHeader) := by
  rw [h.returned]
  constructor
  · intro hall
    refine ⟨fun leaf hleaf => ?_, fun answer hanswer => ?_⟩
    · obtain ⟨i, hi⟩ := List.mem_iff_getElem?.mp hleaf
      obtain ⟨hlt, -⟩ := List.getElem?_eq_some_iff.mp hi
      have hanswer := List.getElem?_eq_getElem (show i < answers.length by rw [h.length.1]; exact hlt)
      have htext := (hall i _ _ hanswer).2
      rwa [List.getD_eq_getElem?_getD, hi] at htext
    · obtain ⟨i, hi⟩ := List.mem_iff_getElem?.mp hanswer
      exact (hall i _ _ hi).1
  · rintro ⟨hleaves, hheaders⟩ i seg resp hi
    refine ⟨hheaders _ (List.mem_of_getElem? hi), ?_⟩
    obtain ⟨hlt, -⟩ := List.getElem?_eq_some_iff.mp hi
    rw [List.getD_eq_getElem?_getD, List.getElem?_eq_getElem (by rw [← h.length.1]; exact hlt)]
    exact hleaves _ (List.getElem_mem _)

end Accepted

section Samples

def oneSegment (m : Manifest) (header : Bytes) : Network Unit where
  text := fun _ => ascii "12D3KooWexample"
  findProviders := some (fun _ _ => .ok [()])
  connectedness := fun _ _ => ascii "Connected"
  addresses := fun _ _ => []
  connect := fun _ _ => none
  newRequest := fun _ => none
  send := fun _ url => .ok ⟨statusOK, fun _ => header,
    if (ascii "json").isSuffixOf url then .ok (manifestJson m).print else .ok [2]⟩

theorem singleton_getElem? {α : Type} (a b : α) (i : ℕ) (h : [a][i]? = some b) : i = 0 ∧ b = a := by
  obtain ⟨hlt, rfl⟩ := List.getElem?_eq_some_iff.mp h
  obtain rfl : i = 0 := Nat.lt_one_iff.mp hlt
  exact ⟨rfl,rfl⟩

theorem oneSegment_honest (m : Manifest) (header : Bytes) (hsanitized : m.sanitized = m)
    (hverified : m.verify = .ok ()) (hcount : m.segmentCount = 1)
    (hleaf : m.leafAt 0 = .ok (sha256 [2])) (hheader : hexDecode header = some (sha256 [2])) :
    Honest (oneSegment m header) 0 () (ascii "bafkrei") m
      [([2], ⟨statusOK, fun _ => header, .ok [2]⟩)] where
  manifest := ⟨⟨(manifestJson m).print, _, ⟨rfl, rfl, rfl, rfl⟩, by
    rw [parseManifest_print, hsanitized]⟩, hverified⟩
  count := by
    rw [hcount]
    rfl
  delivers := by
    intro i seg resp hi
    obtain ⟨rfl, hanswer⟩ := singleton_getElem? _ _ i hi
    cases hanswer
    exact ⟨rfl, rfl, rfl, rfl⟩
  truthful := by
    intro i seg resp hi
    obtain ⟨-, hanswer⟩ := singleton_getElem? _ _ i hi
    cases hanswer
    exact hheader
  digests := by
    intro i seg resp hi
    obtain ⟨rfl, hanswer⟩ := singleton_getElem? _ _ i hi
    cases hanswer
    exact hleaf

theorem fetchAndVerifyContent_honest_lower :
    fetchAndVerifyContent (oneSegment (manifestOf otherTree 6) (hexEncode (hashLeaf [2]))) 0 ()
      (ascii "bafkrei") = .ok ⟨manifestOf otherTree 6, [[2]]⟩ := by
  have hhonest := oneSegment_honest (manifestOf otherTree 6) (hexEncode (hashLeaf [2]))
    (manifestOf_sanitized _ _) (manifestOf_verify _ _ (by decide) (by decide)) (by decide)
    (by decide +kernel) (hexDecode_hexEncode _)
  have hlower : NoCapitals (hexEncode (hashLeaf [2])) :=
    (hexEncode_hexDecode _ _ (hexDecode_hexEncode _)).mp rfl
  refine (fetchAndVerifyContent_honest hhonest).mpr ⟨fun leaf hleaf => ?_, fun answer ha => ?_⟩
  · obtain rfl : leaf = hexEncode (hashLeaf [2]) := List.mem_singleton.mp hleaf
    exact hlower
  · obtain rfl := List.mem_singleton.mp ha
    exact hlower

def toCapitals (text : Bytes) : Bytes := text.map (fun c => if 97 ≤ c then c-32 else c)

def capitalManifest : Manifest :=
  { manifestOf otherTree 6 with leaves := some [toCapitals (hexEncode (hashLeaf [2]))] }

/-- Honest content under a manifest with capital digits is refused. -/
theorem capital_leaf_refused :
    Honest (oneSegment capitalManifest (hexEncode (hashLeaf [2]))) 0 () (ascii "bafkrei")
      capitalManifest [([2], ⟨statusOK, fun _ => hexEncode (hashLeaf [2]), .ok [2]⟩)] ∧
    fetchAndVerifyContent (oneSegment capitalManifest (hexEncode (hashLeaf [2]))) 0 ()
        (ascii "bafkrei") =
      .error (errLeafMismatch (ascii "bafkrei") 0 (toCapitals (hexEncode (hashLeaf [2])))
        (hexEncode (hashLeaf [2]))) :=
  ⟨oneSegment_honest capitalManifest _ (by decide +kernel) (by decide +kernel) rfl
    (by decide +kernel) (hexDecode_hexEncode _), by decide +kernel⟩

end Samples

end Aevia.ContentClient
