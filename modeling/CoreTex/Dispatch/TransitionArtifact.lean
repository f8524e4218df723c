import CoreTex.Dispatch.Descriptor
import CoreTex.Frontier.ManifestRoot

/-!
# CoreTex.Dispatch.TransitionArtifact

Transition artifacts (`dispatch.py`): the closed schema of the document a descriptor
addresses, the checks it can pass on its own, and the rule for served bytes.

Validation returns the record it has read, so a `TransitionArtifact` has well-formed roots,
ascending declaration lists, a positive length and a score delta within its bounds.
-/

namespace CoreTex

open CoreTex.Lib

/-! ### Vocabulary -/

/-- `TRANSITION_ARTIFACT_FORMAT`. -/
def transitionArtifactFormat : String := "coretex.transition-artifact/v3"

/-- `TRANSITION_ARTIFACT_FIELDS`. -/
def transitionArtifactFields : List String :=
  ["affected_profiles", "availability", "byte_length", "derived_state", "epoch",
    "epoch_context_root", "format", "new_state_root", "parent_state_root", "profile_releases",
    "resulting_composition_root", "resulting_frontier_manifest", "score_delta_ppm",
    "shared_components"]

/-- `TRANSITION_ARTIFACT_RELEASE_FIELDS`. -/
def transitionArtifactReleaseFields : List String :=
  ["expected_prior_release_root", "hooks", "new_release_root"]

/-- The slots a release may name, `TRANSITION_ARTIFACT_HOOKS`. -/
inductive HookSlot
  | ingestTransform
  | organize
  | consolidate
  | candidates
  | rank
  | pack
  deriving DecidableEq

def HookSlot.id : HookSlot → String
  | .ingestTransform => "m1_ingest_transform"
  | .organize => "m2_organize"
  | .consolidate => "m3_consolidate"
  | .candidates => "m4_candidates"
  | .rank => "m5_rank"
  | .pack => "m6_pack"

def transitionArtifactHooks : List HookSlot :=
  [.ingestTransform, .organize, .consolidate, .candidates, .rank, .pack]

/-- The refusal codes for artifacts. -/
inductive TransitionArtifactCode
  | unavailable
  | addressMismatch
  | notCanonical
  | parentMismatch
  | replayRootMismatch
  | scoreDeltaMismatch
  | descriptorVersionUnsupported
  | malformed
  | releasePriorMismatch
  | lawPinChange
  | noOp
  | epochContextMismatch
  | closureMalformed
  | closureUnderdeclared
  | closureMismatch
  | closureUnknownId
  deriving DecidableEq

/-- A refusal, with the path of what it is about. -/
structure TransitionArtifactError where
  code : TransitionArtifactCode
  path : String
  deriving DecidableEq

/-- `except FrontierError`: a refusal of the frontier law, under another code. -/
def recode {α : Type} (error : TransitionArtifactError) :
    Except FrontierError α → Except TransitionArtifactError α
  | .ok a => .ok a
  | .error _ => .error error

@[simp] theorem recode_eq_ok {α : Type} {error : TransitionArtifactError}
    {x : Except FrontierError α} {a : α} : recode error x = .ok a ↔ x = .ok a := by
  cases x <;> simp [recode]

/-! ### Records -/

/-- Do the ids strictly increase? -/
def strictlyIncreasing : List PyStr → Bool
  | a :: b :: rest => decide (a < b) && strictlyIncreasing (b :: rest)
  | _ => true

/-- A declaration list: strictly increasing ids. -/
abbrev SortedIds := { ids : List PyStr // strictlyIncreasing ids = true }

/-- `TRANSITION_DESCRIPTOR_MIN_SCORE_DELTA_PPM` to `TRANSITION_DESCRIPTOR_MAX_SCORE_DELTA_PPM`. -/
abbrev ScoreDelta := { delta : Int // 1 ≤ delta ∧ delta ≤ 1000000 }

/-- One entry of `profile_releases`. -/
structure ReleaseMove where
  expectedPriorReleaseRoot : Root
  hooks : List HookSlot
  newReleaseRoot : Root
  deriving DecidableEq

/-- A valid transition artifact. -/
structure TransitionArtifact where
  affectedProfiles : SortedIds
  availability : List (PyStr × Json)
  byteLength : { n : Int // 0 < n }
  derivedState : List (PyStr × Json)
  epoch : UInt64
  epochContextRoot : Root
  newStateRoot : Root
  parentStateRoot : Root
  profileReleases : List (ProfileId × ReleaseMove)
  resultingCompositionRoot : Root
  resultingFrontierManifest : Manifest
  scoreDeltaPpm : ScoreDelta
  sharedComponents : SortedIds

/-! ### Validation -/

/-- `transition_artifact_bytes`. -/
def transitionArtifactBytes (artifact : Json) : Except TransitionArtifactError Bytes :=
  recode ⟨.notCanonical, "artifact"⟩ (canonicalBytes artifact)

/-- `isinstance(value, Mapping)`. -/
def artifactObject (value : Json) (path : String) :
    Except TransitionArtifactError (List (PyStr × Json)) :=
  match value with
  | .obj pairs => .ok pairs
  | _ => .error ⟨.malformed, path⟩

/-- `_artifact_root`. -/
def artifactRoot (document : List (PyStr × Json)) (name path : String) :
    Except TransitionArtifactError Root :=
  match lookup document (py name) with
  | none => .error ⟨.malformed, path ++ "." ++ name⟩
  | some value =>
      recode ⟨.malformed, path ++ "." ++ name⟩ (checkRoot value (path ++ "." ++ name))

/-- A non-empty string id. -/
def readId : Json → Option PyStr
  | .str s => if s = [] then none else some s
  | _ => none

/-- `_check_sorted_id_list`. -/
def checkSortedIdList (artifact : List (PyStr × Json)) (name : String) :
    Except TransitionArtifactError SortedIds :=
  match lookup artifact (py name) with
  | some (.arr items) =>
      match items.mapM readId with
      | some ids =>
          if h : strictlyIncreasing ids = true then .ok ⟨ids, h⟩
          else .error ⟨.closureMalformed, "artifact." ++ name⟩
      | none => .error ⟨.closureMalformed, "artifact." ++ name⟩
  | _ => .error ⟨.closureMalformed, "artifact." ++ name⟩

/-- The `byte_length` block. -/
def checkByteLength (value : Json) : Except TransitionArtifactError { n : Int // 0 < n } :=
  match value with
  | .int n => if h : 0 < n then .ok ⟨n, h⟩ else .error ⟨.malformed, "byte_length"⟩
  | _ => .error ⟨.malformed, "byte_length"⟩

/-- The `score_delta_ppm` block. -/
def checkScoreDelta (value : Json) : Except TransitionArtifactError ScoreDelta :=
  match value with
  | .int n =>
      if h : 1 ≤ n ∧ n ≤ 1000000 then .ok ⟨n, h⟩ else .error ⟨.malformed, "score_delta_ppm"⟩
  | _ => .error ⟨.malformed, "score_delta_ppm"⟩

/-- The slot a value names. -/
def readHook : Json → Option HookSlot
  | .str s => transitionArtifactHooks.find? fun h => py h.id = s
  | _ => none

/-- The `hooks` block: a non-empty array of distinct slots. -/
def checkHooks (value : Json) (path : String) : Except TransitionArtifactError (List HookSlot) :=
  match value with
  | .arr items =>
      match items.mapM readHook with
      | some hooks =>
          if hooks ≠ [] ∧ hooks.Nodup then .ok hooks else .error ⟨.malformed, path⟩
      | none => .error ⟨.malformed, path⟩
  | _ => .error ⟨.malformed, path⟩

/-- One turn of the loop over `profile_releases`. -/
def checkRelease (entry : PyStr × Json) :
    Except TransitionArtifactError (ProfileId × ReleaseMove) :=
  match profileOf entry.1 with
  | none => .error ⟨.malformed, "profile_releases"⟩
  | some p => do
      let path := "profile_releases['" ++ p.id ++ "']"
      let move ← artifactObject entry.2 path
      refuseIf (∃ e ∈ move, e.1 ∉ transitionArtifactReleaseFields.map py) ⟨.malformed, path⟩
      refuseIf (∃ f ∈ transitionArtifactReleaseFields, (lookup move (py f)).isNone)
        ⟨.malformed, path⟩
      let prior ← artifactRoot move "expected_prior_release_root" path
      let new ← artifactRoot move "new_release_root" path
      let hooks ← checkHooks (field move "hooks") (path ++ ".hooks")
      .ok (p, { expectedPriorReleaseRoot := prior, hooks := hooks, newReleaseRoot := new })

/-- `validate_transition_artifact`, with the record it has read. -/
def validateTransitionArtifact (artifact : Json) :
    Except TransitionArtifactError TransitionArtifact := do
  let doc ← artifactObject artifact "artifact"
  refuseIf ((field doc "format").isStr transitionArtifactFormat = false) ⟨.malformed, "format"⟩
  refuseIf (∃ e ∈ doc, e.1 ∉ transitionArtifactFields.map py) ⟨.malformed, "artifact"⟩
  -- the declaration lists come before the missing fields: they have a code of their own
  let affectedProfiles ← checkSortedIdList doc "affected_profiles"
  let sharedComponents ← checkSortedIdList doc "shared_components"
  refuseIf (∃ f ∈ transitionArtifactFields, (lookup doc (py f)).isNone) ⟨.malformed, "artifact"⟩
  let parentStateRoot ← artifactRoot doc "parent_state_root" "artifact"
  let newStateRoot ← artifactRoot doc "new_state_root" "artifact"
  let resultingCompositionRoot ← artifactRoot doc "resulting_composition_root" "artifact"
  let epochContextRoot ← artifactRoot doc "epoch_context_root" "artifact"
  let byteLength ← checkByteLength (field doc "byte_length")
  let scoreDeltaPpm ← checkScoreDelta (field doc "score_delta_ppm")
  let epoch ← recode ⟨.malformed, "artifact.epoch"⟩ (checkEpoch (field doc "epoch") "artifact.epoch")
  let releases ← artifactObject (field doc "profile_releases") "profile_releases"
  let profileReleases ← releases.mapM checkRelease
  let resultingFrontierManifest ← recode ⟨.malformed, "resulting_frontier_manifest"⟩
    (validateManifest (field doc "resulting_frontier_manifest"))
  let derivedState ← artifactObject (field doc "derived_state") "derived_state"
  let availability ← artifactObject (field doc "availability") "availability"
  let _ ← transitionArtifactBytes artifact
  .ok {
    affectedProfiles := affectedProfiles
    availability := availability
    byteLength := byteLength
    derivedState := derivedState
    epoch := epoch
    epochContextRoot := epochContextRoot
    newStateRoot := newStateRoot
    parentStateRoot := parentStateRoot
    profileReleases := profileReleases
    resultingCompositionRoot := resultingCompositionRoot
    resultingFrontierManifest := resultingFrontierManifest
    scoreDeltaPpm := scoreDeltaPpm
    sharedComponents := sharedComponents }

/-! ### Checks without the parent -/

/-- `check_transition_artifact_self_consistency`. The root is that of the manifest record's
document. -/
def checkTransitionArtifactSelfConsistency (artifact : Json) :
    Except TransitionArtifactError TransitionArtifact := do
  let document ← validateTransitionArtifact artifact
  let manifest := document.resultingFrontierManifest
  refuseIf (manifest.parentFrontierRoot ≠ document.parentStateRoot)
    ⟨.parentMismatch, "resulting_frontier_manifest.parent_frontier_root"⟩
  refuseIf (manifest.epoch ≠ document.epoch) ⟨.malformed, "resulting_frontier_manifest.epoch"⟩
  refuseIf (manifest.defaultCompositionRoot ≠ document.resultingCompositionRoot)
    ⟨.malformed, "resulting_frontier_manifest.default_composition_root"⟩
  refuseIf (document.newStateRoot = document.parentStateRoot) ⟨.noOp, "new_state_root"⟩
  let derived ← recode ⟨.malformed, "resulting_frontier_manifest"⟩ (frontierRoot manifest.json)
  refuseIf (derived ≠ document.newStateRoot) ⟨.replayRootMismatch, "new_state_root"⟩
  .ok document

/-- `check_transition_epoch_context`. -/
def checkTransitionEpochContext (artifact : TransitionArtifact) (epochContextRoot : Json) :
    Except TransitionArtifactError Root := do
  let pin ← recode ⟨.malformed, "epoch_context_root"⟩ (checkRoot epochContextRoot "epoch_context_root")
  refuseIf (artifact.epochContextRoot ≠ pin) ⟨.epochContextMismatch, "epoch_context_root"⟩
  .ok pin

/-- The text of served bytes, parsed. -/
def parseServed (served : Bytes) : Except FrontierError Json :=
  match decodeUtf8 served with
  | some text => parseJson text
  | none => .error (.schema "utf-8")

/-- `verify_transition_artifact_bytes`. An argument that is `none` is not checked. -/
def verifyTransitionArtifactBytes (served : Bytes) (descriptor : TransitionDescriptor)
    (scoreDeltaPpm : Option Int) (epochContextRoot : Option Json) :
    Except TransitionArtifactError Json := do
  refuseIf (descriptor.version ≠ transitionDescriptorVersion)
    ⟨.descriptorVersionUnsupported, "version"⟩
  refuseIf (served = []) ⟨.unavailable, "served"⟩
  refuseIf ((sha256Hex served).hex ≠ descriptor.patchArtifactHash) ⟨.addressMismatch, "served"⟩
  let document ← recode ⟨.notCanonical, "served"⟩ (parseServed served)
  let artifact ← validateTransitionArtifact document
  let bytes ← transitionArtifactBytes document
  refuseIf (bytes ≠ served) ⟨.notCanonical, "served"⟩
  refuseIf (artifact.byteLength.val ≠ served.length) ⟨.malformed, "artifact.byte_length"⟩
  refuseIf (artifact.parentStateRoot.hex ≠ descriptor.parentStateRoot)
    ⟨.parentMismatch, "artifact.parent_state_root"⟩
  refuseIf (artifact.newStateRoot.hex ≠ descriptor.newStateRoot)
    ⟨.replayRootMismatch, "artifact.new_state_root"⟩
  refuseIf (∃ delta ∈ scoreDeltaPpm, artifact.scoreDeltaPpm.val ≠ delta)
    ⟨.scoreDeltaMismatch, "artifact.score_delta_ppm"⟩
  let _ ← epochContextRoot.mapM (checkTransitionEpochContext artifact)
  let _ ← checkTransitionArtifactSelfConsistency document
  .ok document

end CoreTex
