import Aevia.Provider.MirrorStream

/-!
# Mirror streams that are cut short

A frame is read in up to three full reads. A stream that is cut inside one of
them is short; a stream that is cut where the second or the third begins looks
to that read like the end of the stream, and its error is passed on wrapped.
-/

set_option autoImplicit false

namespace Aevia.Mirror
open Aevia.Bytes Aevia.ByteReader

/-- A full read begins that many bytes into the frame, and is not its first. -/
def Sent.StartsRead (f : Sent) (k : ℕ) : Prop := k = 5 ∨ k = 5+f.framePrefix.length

instance (f : Sent) (k : ℕ) : Decidable (f.StartsRead k) :=
  inferInstanceAs (Decidable (k = 5 ∨ k = 5+f.framePrefix.length))

def shortRead (format : String) (found : ℕ) : GoError :=
  .wrap format [] (if found = 0 then eof else unexpectedEOF)

theorem shortRead_is (format : String) (found : ℕ) :
    (shortRead format found).is eof = false ↔ found ≠ 0 := by
  by_cases h : found = 0
  · simp [shortRead, h, GoError.is, eof]
  · simp [shortRead, h, GoError.is, eof, unexpectedEOF]

theorem readFull_cut (format : String) (n : ℕ) (r : Bytes) (h : r.length < n) :
    Reader.context format (readFull n) r = (.error (shortRead format r.length), []) := by
  rw [Reader.context_error _ _ _ _ _ (readFull_short n r h), shortRead]
  simp only [List.length_eq_zero_iff]

section Cuts
variable (f : Sent) (k : ℕ)

theorem Sent.encode_length : f.encode.length = 5+f.framePrefix.length+f.body.length := by
  rw [Sent.encode, frameBytes, List.length_cons, List.length_append, List.length_append,
    bigEndian_length]
  omega

theorem readAnyFrame_error (r : Bytes) (e : GoError) (h : readFrame r = (.error e, [])) :
    readAnyFrame r = (.error e, []) :=
  Reader.bind_error _ _ _ _ _ h

theorem cut_in_header (hpos : 0 < k) (hk : k < 5) :
    readAnyFrame (f.encode.take k) = (.error unexpectedEOF, []) := by
  have hlength : (f.encode.take k).length = k := by
    rw [List.length_take, f.encode_length]
    omega
  have hne : f.encode.take k ≠ [] := by
    intro h
    rw [h, List.length_nil] at hlength
    omega
  have hread := readFull_short 5 (f.encode.take k) (by omega)
  rw [if_neg hne] at hread
  exact readAnyFrame_error _ _ (Reader.bind_error _ _ _ _ _ hread)

theorem readFrame_cut (hk : 5 ≤ k) :
    readFrame (f.encode.take k) =
      (do
        let framePrefix ← readPrefix f.type
        let body ← readBody f.body.length
        pure ⟨f.type, framePrefix, body⟩ : Reader RawFrame) ((f.framePrefix++f.body).take (k-5)) := by
  obtain ⟨j, rfl⟩ := Nat.exists_eq_add_of_le hk
  have hshape : f.encode.take (5+j) =
      f.type::(bigEndian 4 f.body.length++(f.framePrefix++f.body).take j) := by
    rw [Sent.encode, frameBytes, Nat.add_comm 5 j, List.take_succ_cons, List.take_append,
      bigEndian_length, List.take_of_length_le (by rw [bigEndian_length]; omega)]
    congr 3
  rw [hshape, readFrame_header _ _ f.body_length, Nat.add_sub_cancel_left]

theorem cut_in_origin (hlo : 5 ≤ k) (hk : k < 5+f.framePrefix.length) :
    readAnyFrame (f.encode.take k) = (.error (shortRead "mirror: read origin_ns: %w" (k-5)), []) := by
  have hlength : ((f.framePrefix++f.body).take (k-5)).length = k-5 := by
    rw [List.length_take, List.length_append]
    omega
  have hread : readPrefix f.type ((f.framePrefix++f.body).take (k-5)) =
      (.error (shortRead "mirror: read origin_ns: %w" (k-5)), []) := by
    cases f with
    | video originNS packet | audio originNS packet =>
      have hshort := readFull_cut "mirror: read origin_ns: %w" 8 _ (by
        rw [hlength]
        simp only [Sent.framePrefix, originBytes, bigEndian_length] at hk
        omega)
      rwa [hlength] at hshort
    | probe p | probeEcho p =>
      simp only [Sent.framePrefix, List.length_nil] at hk
      omega
  apply readAnyFrame_error
  rw [readFrame_cut f k hlo]
  exact Reader.bind_error _ _ _ _ _ hread

theorem cut_in_body (hlo : 5+f.framePrefix.length ≤ k) (hk : k < f.encode.length) :
    readAnyFrame (f.encode.take k) =
      (.error (shortRead "mirror: read body: %w" (k-(5+f.framePrefix.length))), []) := by
  have hlen := f.encode_length
  obtain ⟨j, rfl⟩ := Nat.exists_eq_add_of_le hlo
  have hleft : (f.framePrefix++f.body).take (5+f.framePrefix.length+j-5) =
      f.framePrefix++f.body.take j := by
    rw [List.take_append, List.take_of_length_le (by omega)]
    congr 2
    omega
  have hbody : readBody f.body.length (f.body.take j) =
      (.error (shortRead "mirror: read body: %w" j), []) := by
    have hlength : (f.body.take j).length = j := by
      rw [List.length_take]
      omega
    have hshort := readFull_cut "mirror: read body: %w" f.body.length (f.body.take j) (by omega)
    rw [hlength] at hshort
    rw [readBody, if_pos (by omega)]
    exact hshort
  apply readAnyFrame_error
  rw [readFrame_cut f _ (by omega), hleft, Reader.bind_ok _ _ _ _ _ (f.readPrefix_append _),
    Nat.add_sub_cancel_left]
  exact Reader.bind_error _ _ _ _ _ hbody

end Cuts

/-- A frame that is cut ends in an error, which is the end of the stream only
where a read begins. -/
theorem cut_error (f : Sent) (k : ℕ) (hpos : 0 < k) (hk : k < f.encode.length) :
    ∃ e, readAnyFrame (f.encode.take k) = (.error e, []) ∧ (e.is eof = false ↔ ¬f.StartsRead k) := by
  by_cases hheader : k < 5
  · refine ⟨_, cut_in_header f k hpos hheader, iff_of_true rfl ?_⟩
    unfold Sent.StartsRead
    omega
  · by_cases hfront : k < 5+f.framePrefix.length
    · refine ⟨_, cut_in_origin f k (by omega) hfront, (shortRead_is _ _).trans ?_⟩
      unfold Sent.StartsRead
      omega
    · refine ⟨_, cut_in_body f k (by omega) hk, (shortRead_is _ _).trans ?_⟩
      unfold Sent.StartsRead
      omega

theorem boundary_eof (sent : List Sent) :
    Drains readAnyFrame (sent.flatMap Sent.encode) (sent.map Sent.frame) eof [] := by
  have h := drains_append readAnyFrame Sent.encode Sent.frame sent
    (fun f _ rest => f.readAnyFrame_append rest) [] [] eof [] (Drains.stop rfl)
  rwa [List.append_nil, List.append_nil] at h

/-- A stream that ends inside a frame is read up to that frame, and then told
from a stream that ends there exactly if the cut is not where a read begins. -/
theorem truncation_told_iff (before after : List Sent) (f : Sent) (wire : Bytes)
    (hwire : writeAll buffer [] (before++f::after) = .ok wire) (k : ℕ) (hpos : 0 < k)
    (hk : k < f.encode.length) :
    (∃ e rest, Drains readAnyFrame (wire.take ((before.flatMap Sent.encode).length+k))
      (before.map Sent.frame) e rest ∧ e.is eof = false) ↔ ¬f.StartsRead k := by
  have hcut : wire.take ((before.flatMap Sent.encode).length+k) =
      before.flatMap Sent.encode++f.encode.take k := by
    rw [writeAll_buffer, List.nil_append] at hwire
    rw [← Except.ok.inj hwire, List.flatMap_append, List.flatMap_cons, List.take_length_add_append,
      List.take_append_of_le_length (by omega)]
  obtain ⟨e, hread, he⟩ := cut_error f k hpos hk
  have hdrains : Drains readAnyFrame (before.flatMap Sent.encode++f.encode.take k)
      (before.map Sent.frame) e [] := by
    have h := drains_append readAnyFrame Sent.encode Sent.frame before
      (fun g _ rest => g.readAnyFrame_append rest) _ [] e [] (Drains.stop hread)
    rwa [List.append_nil] at h
  rw [hcut, ← he]
  constructor
  · rintro ⟨e', rest, hdrains', he'⟩
    obtain ⟨-, rfl, -⟩ := hdrains.unique hdrains'
    exact he'
  · exact fun h => ⟨e,[],hdrains,h⟩

section Samples

def cutVideo : Sent := .video 7 samplePacket

theorem cutVideo_written : writeAll buffer [] [cutVideo] = .ok cutVideo.encode := by
  rw [writeAll_buffer, List.nil_append, List.flatMap_cons, List.flatMap_nil, List.append_nil]

theorem cut_in_origin_told :
    ∃ e rest, Drains readAnyFrame (cutVideo.encode.take 9) [] e rest ∧ e.is eof = false :=
  (truncation_told_iff [] [] cutVideo _ cutVideo_written 9 (by decide) (by decide)).mpr (by decide)

/-- Only the five bytes before the origin time have come. -/
theorem cut_before_origin_untold :
    writeAll buffer [] [cutVideo] = .ok cutVideo.encode ∧ 5 < cutVideo.encode.length ∧
    Drains readAnyFrame (cutVideo.encode.take 5) [] (.wrap "mirror: read origin_ns: %w" [] eof) [] ∧
    ¬∃ e rest, Drains readAnyFrame (cutVideo.encode.take 5) [] e rest ∧ e.is eof = false := by
  have hdrains := Drains.stop (cut_in_origin cutVideo 5 (Nat.le_refl 5) (by decide))
  refine ⟨cutVideo_written, by decide, hdrains, ?_⟩
  rintro ⟨e, rest, hdrains', he⟩
  obtain ⟨-, rfl, -⟩ := hdrains.unique hdrains'
  revert he
  decide

end Samples

end Aevia.Mirror
