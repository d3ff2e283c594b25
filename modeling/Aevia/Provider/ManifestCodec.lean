import Aevia.Foundation.StructCodec
import Aevia.Provider.Manifest

/-!
# Manifest documents

The JSON form of a manifest, with the fields in the order of their tags, and
the parser for documents that come from the wire. A manifest is read back with
ill-formed text replaced, and a built one is read back unchanged.
-/

set_option autoImplicit false

namespace Aevia.Manifests
open Aevia.Bytes Aevia.StructCodec Aevia.Utf8 Aevia.Fallible

def manifestJson (m : Manifest) : Json := .obj [
  (ascii "version", int64Json m.version),
  (ascii "cid", .str m.cid),
  (ascii "root", .str m.root),
  (ascii "segment_count", int64Json m.segmentCount),
  (ascii "segment_duration", int64Json m.segmentDuration),
  (ascii "leaves", stringsJson m.leaves)]

/-- Marshalling a manifest cannot fail. -/
def Manifest.canonicalJSON (m : Manifest) : Except GoError Bytes := .ok (manifestJson m).print

/-- A manifest while it is read, with the backing array of its leaves. -/
structure ManifestTarget where
  manifest : Manifest
  backing : List Bytes

def ManifestTarget.zero : ManifestTarget := ⟨⟨0, [], [], 0, 0, none⟩, []⟩

def manifestFields : List (RecordField ManifestTarget) := [
  ⟨ascii "version", fun j t => (setInt64 j t.manifest.version).map
    (fun n => { t with manifest := { t.manifest with version := n } })⟩,
  ⟨ascii "cid", fun j t => (setString j t.manifest.cid).map
    (fun s => { t with manifest := { t.manifest with cid := s } })⟩,
  ⟨ascii "root", fun j t => (setString j t.manifest.root).map
    (fun s => { t with manifest := { t.manifest with root := s } })⟩,
  ⟨ascii "segment_count", fun j t => (setInt64 j t.manifest.segmentCount).map
    (fun n => { t with manifest := { t.manifest with segmentCount := n } })⟩,
  ⟨ascii "segment_duration", fun j t => (setInt64 j t.manifest.segmentDuration).map
    (fun n => { t with manifest := { t.manifest with segmentDuration := n } })⟩,
  ⟨ascii "leaves", fun j t => (setSlice setString [] j (t.manifest.leaves, t.backing)).map
    (fun p => ⟨{ t.manifest with leaves := p.1 }, p.2⟩)⟩]

def parseManifest (raw : Bytes) : Except GoError Manifest :=
  match unmarshal manifestFields ManifestTarget.zero raw with
  | .error e => .error (.wrap "manifest: decode json: %w" [] e)
  | .ok t => .ok t.manifest

def Manifest.sanitized (m : Manifest) : Manifest :=
  { m with
    cid := Json.sanitize m.cid
    root := Json.sanitize m.root
    leaves := m.leaves.map (List.map Json.sanitize) }

theorem manifestJson_printable (m : Manifest) : (manifestJson m).Printable := by
  simp only [manifestJson, Json.Printable, Json.PrintableFields, int64Json_printable,
    stringsJson_printable, and_true]

theorem manifestJson_height (m : Manifest) :
    (manifestJson m).height ≤ Json.maxNestingDepth := by
  have hleaves := stringsJson_height m.leaves
  simp only [manifestJson, Json.height, Json.heightFields, int64Json, Json.maxNestingDepth]
  omega

theorem manifestJson_sanitized (m : Manifest) :
    (manifestJson m).sanitized = manifestJson m.sanitized := by
  have hnumber : ∀ n : Int64, (int64Json n).sanitized = int64Json n := by
    intro n
    rw [int64Json, Json.sanitized]
  simp only [manifestJson, Manifest.sanitized, Json.sanitized, Json.sanitizedFields, hnumber,
    stringsJson_sanitized]
  rfl

theorem manifestJson_decode (m : Manifest) :
    decodeRecord manifestFields ManifestTarget.zero (manifestJson m) =
      some ⟨m, m.leaves.getD []⟩ := by
  have heach := setFields_each manifestFields (by decide) (manifestFields.zip
    [int64Json m.version, .str m.cid, .str m.root, int64Json m.segmentCount,
      int64Json m.segmentDuration, stringsJson m.leaves])
    (fun v hv => (List.of_mem_zip hv).1) ManifestTarget.zero
  refine heach.trans ?_
  simp [manifestFields, setEach, ManifestTarget.zero, setSlice_stringsJson]

theorem parseManifest_print (m : Manifest) :
    parseManifest (manifestJson m).print = .ok m.sanitized := by
  have hread := unmarshal_print manifestFields ManifestTarget.zero _ (manifestJson m)
    (manifestJson_printable m) (manifestJson_height m)
    (by rw [manifestJson_sanitized, manifestJson_decode])
  rw [parseManifest, hread]

theorem parseManifest_error (raw : Bytes) (e : GoError) (h : parseManifest raw = .error e) :
    e = .wrap "manifest: decode json: %w" [] syntaxError ∨
      e = .wrap "manifest: decode json: %w" [] typeError := by
  unfold parseManifest at h
  split at h
  · rename_i cause hcause
    cases h
    unfold unmarshal readDocument at hcause
    split at hcause
    · cases hcause
      exact Or.inl rfl
    · split at hcause
      · cases hcause
        exact Or.inr rfl
      · cases hcause
  · cases h

theorem hexEncode_ascii (bs : Bytes) : ∀ c ∈ hexEncode bs, c.toNat < 0x80 := by
  have hdigit : ∀ d < 16, (hexDigit d).toNat < 0x80 := by decide
  induction bs with
  | nil => simp [hexEncode]
  | cons b bs ih =>
    have hb := b.toNat_lt
    intro c hc
    simp only [hexEncode, List.mem_cons] at hc
    rcases hc with rfl | rfl | hc
    · exact hdigit _ (by omega)
    · exact hdigit _ (by omega)
    · exact ih c hc

theorem cidText_ascii (digest : Bytes) : ∀ c ∈ cidText digest, c.toNat < 0x80 := by
  have hsymbol : ∀ d < 2^5, (BaseEncoding.base32Lower.symbol d).toNat < 0x80 := by decide
  intro c hc
  rcases List.mem_cons.mp hc with rfl | hc
  · decide
  · obtain ⟨d, hd, rfl⟩ := BaseEncoding.encode_symbol _ _ c hc
    exact hsymbol d hd

theorem manifestOf_sanitized (t : Tree) (d : Int64) :
    (manifestOf t d).sanitized = manifestOf t d := by
  have hleaves : (t.leaves.map hexEncode).map Json.sanitize = t.leaves.map hexEncode := by
    rw [List.map_map]
    exact List.map_congr_left
      (fun b _ => Json.sanitize_valid _ (valid_ascii _ (hexEncode_ascii b)))
  simp only [Manifest.sanitized, manifestOf, Option.map_some, hleaves,
    Json.sanitize_valid _ (valid_ascii _ (cidText_ascii _)),
    Json.sanitize_valid _ (valid_ascii _ (hexEncode_ascii _))]

end Aevia.Manifests
