import Aevia.Video.LiveInputs

/-!
# Updates of one live input at a time

What the routes write into the record of a live input, and what is left of it
when their updates overlap: an update puts back every entry as it has read it.
-/

set_option autoImplicit false

namespace Aevia.Lives
open Aevia.Bytes Aevia.MergeWrite Aevia.Run

/-- `registerBlock` is the number as it is printed. -/
structure RegistrationMeta where
  manifestCid : Bytes
  registerTxHash : Bytes
  registerBlock : Bytes
  sponsored : Bool
  deriving DecidableEq

def keyManifestCid : Bytes := ascii "manifestCid"
def keyRegisterTxHash : Bytes := ascii "registerTxHash"
def keyRegisterBlock : Bytes := ascii "registerBlock"
def keySponsored : Bytes := ascii "sponsored"
def keyRecordingVideoUid : Bytes := ascii "recordingVideoUid"

/-- The patch of `persistRegistrationMeta`. -/
def registrationPatch (registration : RegistrationMeta) : LivePatch where
  metaRecord := some (object ([(keyManifestCid, registration.manifestCid),
    (keyRegisterTxHash, registration.registerTxHash),
    (keyRegisterBlock, registration.registerBlock)]++
    if registration.sponsored then [(keySponsored, ascii "1")] else []))
  defaultCreator := none

/-- The patch of `link-recording`. -/
def recordingPatch (videoUid : Bytes) : LivePatch where
  metaRecord := some (object [(keyRecordingVideoUid, videoUid)])
  defaultCreator := none

variable (calls : List LivePatch)

/-- Keys written by calls that have returned hold a value one of them has
written, the others hold what they held. -/
def Survives (live : LiveInput) (s : Updates calls) : Prop :=
  Kept (patchOf calls) live.metaOf s.view

/-- A PUT sends of the keys its call does not patch no value from before they
were first written. -/
def Unspoiled (s : Updates calls) (e : Event (Fin calls.length)) : Prop :=
  Current (patchOf calls) s.view e

theorem survives_iff (live : LiveInput) (events : List (Event (Fin calls.length))) :
    (∀ before, before <+: events →
      Survives calls live (run (update calls) (untouched calls live) before)) ↔
    Along (update calls) (Unspoiled calls) (untouched calls live) events := by
  have hview := view_update calls
  rw [show Unspoiled calls = fun s e => Current (patchOf calls) s.view e from rfl,
    along_view (update calls) _ Updates.view hview, view_untouched,
    ← run_kept (patchOf calls) live.metaOf _ events (start_kept _ _) (start_faithful _ _)]
  simp only [Survives, run_view (update calls) _ Updates.view hview, view_untouched]

theorem written_get (live : LiveInput) (s : Updates calls) (hs : Survives calls live s)
    (hreturned : ∀ i, s.returned i = true) (k : Bytes) (c : LivePatch) (hc : c ∈ calls)
    (hk : c.metaOf k ≠ none) :
    ∃ c' ∈ calls, c'.metaOf k ≠ none ∧ s.live.metaOf k = c'.metaOf k := by
  obtain ⟨i, rfl⟩ := List.get_of_mem hc
  obtain ⟨v, hv⟩ := Option.ne_none_iff_exists'.mp hk
  obtain ⟨v', ⟨j, -, hj⟩, hstored⟩ := hs.written k v ⟨i,hreturned i,hv⟩
  have hj : (calls.get j).metaOf k = some v' := hj
  refine ⟨calls.get j, List.get_mem calls j, ?_, ?_⟩
  · rw [hj]
    exact Option.some_ne_none v'
  · rw [hj]
    exact hstored

/-- No update is ever lost in a run exactly if no PUT sends a stale value of a
key it does not patch; and then, once all calls have returned, every key that
was written holds a value that was written, and the others what they held. -/
theorem updates_survive (live : LiveInput) (events : List (Event (Fin calls.length))) :
    let s := run (update calls) (untouched calls live) events
    ((∀ before, before <+: events →
        Survives calls live (run (update calls) (untouched calls live) before)) ↔
      Along (update calls) (Unspoiled calls) (untouched calls live) events) ∧
    (Along (update calls) (Unspoiled calls) (untouched calls live) events →
      (∀ i, s.returned i = true) → ∀ k,
      ((∃ c ∈ calls, c.metaOf k ≠ none) →
        ∃ c ∈ calls, c.metaOf k ≠ none ∧ s.live.metaOf k = c.metaOf k) ∧
      ((∀ c ∈ calls, c.metaOf k = none) → s.live.metaOf k = live.metaOf k)) := by
  intro s
  have hiff := survives_iff calls live events
  refine ⟨hiff, fun halong hreturned k => ?_⟩
  have hs : Survives calls live s := hiff.mpr halong events (List.prefix_refl events)
  constructor
  · rintro ⟨c, hc, hk⟩
    exact written_get calls live s hs hreturned k c hc hk
  · intro hnone
    apply hs.untouched k
    rintro v ⟨i, -, hv⟩
    have hi : (calls.get i).metaOf k = none := hnone _ (List.get_mem calls i)
    rw [patchOf, hi] at hv
    cases hv

section Samples

def sampleLive : LiveInput := ⟨some (object [(ascii "name", ascii "aevia-1")]), none, ascii "{}"⟩

def sampleRegistration : RegistrationMeta := ⟨ascii "0xab", ascii "0xcd", ascii "7", false⟩

def sampleCalls : List LivePatch := [registrationPatch sampleRegistration, recordingPatch (ascii "v1")]

def registering : Fin sampleCalls.length := ⟨0, by decide⟩
def linking : Fin sampleCalls.length := ⟨1, by decide⟩

def overlapped : List (Event (Fin sampleCalls.length)) :=
  [.read registering, .read linking, .write registering, .write linking]

/-- The registration has returned successfully and is gone. -/
theorem overlapped_registration_lost :
    let s := run (update sampleCalls) (untouched sampleCalls sampleLive) overlapped
    (∀ i, s.returned i = true) ∧ s.live.metaOf keyManifestCid = none ∧
    (∃ c ∈ sampleCalls, c.metaOf keyManifestCid ≠ none) ∧
    ¬ ∃ c ∈ sampleCalls, c.metaOf keyManifestCid ≠ none ∧
      s.live.metaOf keyManifestCid = c.metaOf keyManifestCid := by
  decide +kernel

end Samples

end Aevia.Lives
