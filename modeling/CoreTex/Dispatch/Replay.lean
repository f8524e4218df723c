import CoreTex.Dispatch.TransitionArtifact
import CoreTex.Frontier.Transition

/-!
# CoreTex.Dispatch.Replay

Replay of a transition artifact on its parent manifest (`dispatch.py`): the dependency
closure, the release moves, the law pins, and the root of the manifest they make.

`replayTransitionArtifact_eq_ok` says when a replay returns a child, as the `Replays` of
the parent, the artifact and the child. Every fact about accepted replays is read off it.
-/

namespace CoreTex

open CoreTex.Lib

/-! ### The dependency closure -/

/-- The profiles that reference each shared component, when the caller knows them. -/
abbrev ComponentReferences := Option (List (PyStr × Option (List PyStr)))

/-- The profiles that an artifact's own moves touch, and those with the profiles that
reference a shared component it declares. -/
structure TransitionClosure where
  direct : List PyStr
  closure : List PyStr
  components : List PyStr

/-- `derive_transition_closure`. The profile map of the parent is not read. -/
def deriveTransitionClosure (artifact : TransitionArtifact)
    (componentReferences : ComponentReferences) : TransitionClosure :=
  let direct := artifact.profileReleases.map fun e => py e.1.id
  let components := artifact.sharedComponents.val
  let table := componentReferences.getD []
  let fanout := components.flatMap fun component => ((lookup table component).join).getD []
  { direct := direct, closure := direct ++ fanout, components := components }

/-- What `check_transition_closure` returns. -/
structure ClosureReport where
  declared : List PyStr
  sharedComponents : List PyStr
  derivedClosure : List PyStr
  overDeclared : List PyStr

/-- `tuple(sorted(set))`. -/
def sortedSet (ids : List PyStr) : List PyStr :=
  (sortPairs (ids.dedup.map fun id => (id, ()))).map Prod.fst

/-- `check_transition_closure`, on a parent whose profiles are the closed set. -/
def checkTransitionClosure (artifact : TransitionArtifact)
    (componentReferences : ComponentReferences) : Except TransitionArtifactError ClosureReport := do
  let declared := artifact.affectedProfiles.val
  let components := artifact.sharedComponents.val
  let knownProfiles := profileIds.map fun p => py p.id
  let knownComponents := (componentReferences.getD []).map Prod.fst
  refuseIf (∃ pid ∈ declared, pid ∉ knownProfiles) ⟨.closureUnknownId, "affected_profiles"⟩
  refuseIf (∃ cid ∈ components, cid ∉ knownComponents) ⟨.closureUnknownId, "shared_components"⟩
  let derived := deriveTransitionClosure artifact componentReferences
  refuseIf (∃ pid ∈ derived.direct, pid ∉ declared) ⟨.closureUnderdeclared, "affected_profiles"⟩
  refuseIf (∃ pid ∈ derived.closure, pid ∉ declared) ⟨.closureMismatch, "affected_profiles"⟩
  .ok {
    declared := declared
    sharedComponents := components
    derivedClosure := sortedSet derived.closure
    overDeclared := sortedSet (declared.filter fun pid => pid ∉ derived.closure) }

/-! ### The replay -/

/-- The epoch context a replay is pinned to. -/
structure EpochPins where
  epoch : UInt64
  epochContextRoot : Root
  benchmarkLawRoot : Root
  runtimeAbiRoot : Root
  deriving DecidableEq

/-- The reading of `epoch_pins`: `null` pins nothing, an object pins all four values. -/
def readEpochPins (epochPins : Json) : Except TransitionArtifactError (Option EpochPins) :=
  match epochPins with
  | .null => .ok none
  | .obj pairs => recode ⟨.malformed, "epoch_pins"⟩ do
      let epoch ← checkEpoch (field pairs "epoch") "epoch_pins.epoch"
      let epochContextRoot ←
        checkRoot (field pairs "epoch_context_root") "epoch_pins.epoch_context_root"
      let benchmarkLawRoot ←
        checkRoot (field pairs "benchmark_law_root") "epoch_pins.benchmark_law_root"
      let runtimeAbiRoot ← checkRoot (field pairs "runtime_abi_root") "epoch_pins.runtime_abi_root"
      .ok (some {
        epoch := epoch
        epochContextRoot := epochContextRoot
        benchmarkLawRoot := benchmarkLawRoot
        runtimeAbiRoot := runtimeAbiRoot })
  | _ => .error ⟨.malformed, "epoch_pins"⟩

/-- The loop over `profile_releases`: each move names the current root and replaces it. -/
def applyReleases (profiles : ProfileId → Root) :
    List (ProfileId × ReleaseMove) → Except TransitionArtifactError (ProfileId → Root)
  | [] => .ok profiles
  | (pid, move) :: rest => do
      refuseIf (profiles pid ≠ move.expectedPriorReleaseRoot)
        ⟨.releasePriorMismatch, "profile_releases"⟩
      applyReleases (Function.update profiles pid move.newReleaseRoot) rest

/-- One law pin of the child. A resolved context's pin is adopted, and only a head
inherited from an earlier epoch may differ from it. Without one the parent's is kept. -/
def replayLawPin (pinned : Option Root) (stated carried : Root) (inherited : Bool) (pin : String) :
    Except TransitionArtifactError Root :=
  match pinned with
  | some expected => do
      refuseIf (stated ≠ expected) ⟨.lawPinChange, pin⟩
      refuseIf (¬ (carried = expected ∨ inherited = true)) ⟨.lawPinChange, pin⟩
      .ok expected
  | none => do
      refuseIf (stated ≠ carried) ⟨.lawPinChange, pin⟩
      .ok carried

/-- `replay_transition_artifact`. An omitted `epoch_pins` is `null`. -/
def replayTransitionArtifact (parentManifest artifact : Json)
    (componentReferences : ComponentReferences) (epochPins : Json) :
    Except TransitionArtifactError Manifest := do
  let document ← checkTransitionArtifactSelfConsistency artifact
  let parent ← recode ⟨.malformed, "parent manifest"⟩ (validateManifest parentManifest)
  let parentRoot ← recode ⟨.malformed, "parent manifest"⟩ (frontierRoot parentManifest)
  refuseIf (parentRoot ≠ document.parentStateRoot) ⟨.parentMismatch, "parent_state_root"⟩
  let pinned ← readEpochPins epochPins
  refuseIf (∃ pins ∈ pinned, pins.epoch ≠ document.epoch) ⟨.epochContextMismatch, "epoch"⟩
  refuseIf (∃ pins ∈ pinned, pins.epochContextRoot ≠ document.epochContextRoot)
    ⟨.epochContextMismatch, "epoch_context_root"⟩
  let _ ← checkTransitionClosure document componentReferences
  let profiles ← applyReleases parent.profiles document.profileReleases
  let stated := document.resultingFrontierManifest
  let inherited := decide (parent.epoch < document.epoch)
  refuseIf (document.epoch < parent.epoch) ⟨.malformed, "epoch"⟩
  let benchmarkLawRoot ← replayLawPin (pinned.map EpochPins.benchmarkLawRoot)
    stated.benchmarkLawRoot parent.benchmarkLawRoot inherited "benchmark_law_root"
  let runtimeAbiRoot ← replayLawPin (pinned.map EpochPins.runtimeAbiRoot)
    stated.runtimeAbiRoot parent.runtimeAbiRoot inherited "runtime_abi_root"
  let replayed : Manifest := { parent with
    epoch := document.epoch
    parentFrontierRoot := parentRoot
    profiles := profiles
    defaultCompositionRoot := document.resultingCompositionRoot
    benchmarkLawRoot := benchmarkLawRoot
    runtimeAbiRoot := runtimeAbiRoot }
  let replayedRoot ← recode ⟨.malformed, "replayed manifest"⟩ (frontierRoot replayed.json)
  refuseIf (replayedRoot ≠ document.newStateRoot) ⟨.replayRootMismatch, "new_state_root"⟩
  refuseIf (replayedRoot = parentRoot) ⟨.noOp, "new_state_root"⟩
  .ok replayed

/-! ### What a replay checks -/

/-- An artifact that is consistent on its own. -/
structure SelfConsistent (document : TransitionArtifact) : Prop where
  parentRoot : document.resultingFrontierManifest.parentFrontierRoot = document.parentStateRoot
  epoch : document.resultingFrontierManifest.epoch = document.epoch
  composition : document.resultingFrontierManifest.defaultCompositionRoot =
    document.resultingCompositionRoot
  moves : document.newStateRoot ≠ document.parentStateRoot
  newRoot : sha256Hex document.resultingFrontierManifest.bytes = document.newStateRoot

theorem checkTransitionArtifactSelfConsistency_eq_ok {artifact : Json}
    {document : TransitionArtifact} :
    checkTransitionArtifactSelfConsistency artifact = .ok document ↔
      validateTransitionArtifact artifact = .ok document ∧ SelfConsistent document := by
  rw [checkTransitionArtifactSelfConsistency]
  constructor
  · intro h
    rw [bind_eq_ok] at h
    obtain ⟨doc, hdoc, h⟩ := h
    obtain ⟨hparent, h⟩ := refuseIf_bind_eq_ok.mp h
    obtain ⟨hepoch, h⟩ := refuseIf_bind_eq_ok.mp h
    obtain ⟨hcomposition, h⟩ := refuseIf_bind_eq_ok.mp h
    obtain ⟨hmoves, h⟩ := refuseIf_bind_eq_ok.mp h
    obtain ⟨derived, hderived, h⟩ := bind_eq_ok.mp h
    obtain ⟨hroot, h⟩ := refuseIf_bind_eq_ok.mp h
    cases h
    rw [recode_eq_ok, frontierRoot_json] at hderived
    cases hderived
    exact ⟨hdoc, Decidable.not_not.mp hparent, Decidable.not_not.mp hepoch,
      Decidable.not_not.mp hcomposition, hmoves, Decidable.not_not.mp hroot⟩
  · intro ⟨hdoc, h⟩
    refine bind_eq_ok.mpr ⟨document, hdoc, ?_⟩
    refine refuseIf_bind_eq_ok.mpr ⟨not_not_intro h.parentRoot, ?_⟩
    refine refuseIf_bind_eq_ok.mpr ⟨not_not_intro h.epoch, ?_⟩
    refine refuseIf_bind_eq_ok.mpr ⟨not_not_intro h.composition, ?_⟩
    refine refuseIf_bind_eq_ok.mpr ⟨h.moves, ?_⟩
    refine bind_eq_ok.mpr ⟨_, recode_eq_ok.mpr (frontierRoot_json _), ?_⟩
    exact refuseIf_bind_eq_ok.mpr ⟨not_not_intro h.newRoot, rfl⟩

/-- What the closure check establishes. -/
structure ClosureDeclared (document : TransitionArtifact)
    (componentReferences : ComponentReferences) : Prop where
  known : ∀ pid ∈ document.affectedProfiles.val, ∃ p : ProfileId, py p.id = pid
  components : ∀ cid ∈ document.sharedComponents.val,
    cid ∈ (componentReferences.getD []).map Prod.fst
  direct : ∀ e ∈ document.profileReleases, py e.1.id ∈ document.affectedProfiles.val
  fanout : ∀ cid ∈ document.sharedComponents.val, ∀ refs,
    lookup (componentReferences.getD []) cid = some (some refs) →
      ∀ pid ∈ refs, pid ∈ document.affectedProfiles.val

theorem checkTransitionClosure_eq_ok {document : TransitionArtifact}
    {componentReferences : ComponentReferences} :
    (∃ report, checkTransitionClosure document componentReferences = .ok report) ↔
      ClosureDeclared document componentReferences := by
  have hknown : ∀ pid, pid ∈ profileIds.map (fun p => py p.id) ↔ ∃ p : ProfileId, py p.id = pid := by
    intro pid
    simp
  constructor
  · intro ⟨report, h⟩
    rw [checkTransitionClosure] at h
    obtain ⟨hprofiles, h⟩ := refuseIf_bind_eq_ok.mp h
    obtain ⟨hcomponents, h⟩ := refuseIf_bind_eq_ok.mp h
    obtain ⟨hdirect, h⟩ := refuseIf_bind_eq_ok.mp h
    obtain ⟨hclosure, h⟩ := refuseIf_bind_eq_ok.mp h
    simp only [not_exists, not_and, Decidable.not_not] at hprofiles hcomponents hdirect hclosure
    refine ⟨fun pid hpid => (hknown pid).mp (hprofiles pid hpid), hcomponents, ?_, ?_⟩
    · intro e he
      exact hdirect _ (List.mem_map_of_mem (f := fun e => py e.1.id) he)
    · intro cid hcid refs hrefs pid hpid
      refine hclosure pid (List.mem_append_right _ (List.mem_flatMap.mpr ⟨cid, hcid, ?_⟩))
      rw [hrefs]
      exact hpid
  · intro h
    refine ⟨_, refuseIf_bind_eq_ok.mpr ⟨?_, refuseIf_bind_eq_ok.mpr ⟨?_,
      refuseIf_bind_eq_ok.mpr ⟨?_, refuseIf_bind_eq_ok.mpr ⟨?_, rfl⟩⟩⟩⟩⟩
    · intro ⟨pid, hpid, hnot⟩
      exact hnot ((hknown pid).mpr (h.known pid hpid))
    · intro ⟨cid, hcid, hnot⟩
      exact hnot (h.components cid hcid)
    · intro ⟨pid, hpid, hnot⟩
      obtain ⟨e, he, rfl⟩ := List.mem_map.mp hpid
      exact hnot (h.direct e he)
    · intro ⟨pid, hpid, hnot⟩
      rcases List.mem_append.mp hpid with hpid | hpid
      · obtain ⟨e, he, rfl⟩ := List.mem_map.mp hpid
        exact hnot (h.direct e he)
      · obtain ⟨cid, hcid, hpid⟩ := List.mem_flatMap.mp hpid
        cases hrefs : lookup (componentReferences.getD []) cid with
        | none =>
            rw [hrefs] at hpid
            exact absurd hpid List.not_mem_nil
        | some found =>
            cases found with
            | none =>
                rw [hrefs] at hpid
                exact absurd hpid List.not_mem_nil
            | some refs =>
                rw [hrefs] at hpid
                exact hnot (h.fanout cid hcid refs hrefs pid hpid)

/-- Profiles that no move names keep their release. -/
theorem applyReleases_frame {profiles profiles' : ProfileId → Root}
    {releases : List (ProfileId × ReleaseMove)} (h : applyReleases profiles releases = .ok profiles')
    {p : ProfileId} (hp : p ∉ releases.map Prod.fst) : profiles' p = profiles p := by
  induction releases generalizing profiles with
  | nil =>
      cases h
      rfl
  | cons e releases ih =>
      obtain ⟨pid, move⟩ := e
      rw [List.map_cons, List.mem_cons, not_or] at hp
      obtain ⟨-, hrest⟩ := refuseIf_bind_eq_ok.mp h
      rw [ih hrest hp.2, Function.update_of_ne hp.1]

theorem applyReleases_singleton {profiles profiles' : ProfileId → Root} {p : ProfileId}
    {move : ReleaseMove} :
    applyReleases profiles [(p, move)] = .ok profiles' ↔
      profiles p = move.expectedPriorReleaseRoot ∧
        profiles' = Function.update profiles p move.newReleaseRoot := by
  rw [applyReleases, refuseIf_bind_eq_ok, applyReleases, Except.ok.injEq, Decidable.not_not]
  exact and_congr_right fun _ => eq_comm

theorem replayLawPin_none {stated carried root : Root} {inherited : Bool} {pin : String} :
    replayLawPin none stated carried inherited pin = .ok root ↔ stated = carried ∧ root = carried := by
  rw [replayLawPin, refuseIf_bind_eq_ok, Decidable.not_not, Except.ok.injEq]
  exact and_congr_right fun _ => eq_comm

theorem replayLawPin_some {expected stated carried root : Root} {inherited : Bool} {pin : String} :
    replayLawPin (some expected) stated carried inherited pin = .ok root ↔
      stated = expected ∧ (carried = expected ∨ inherited = true) ∧ root = expected := by
  rw [replayLawPin, refuseIf_bind_eq_ok, refuseIf_bind_eq_ok, Decidable.not_not, Decidable.not_not,
    Except.ok.injEq]
  exact and_congr_right fun _ => and_congr_right fun _ => eq_comm

/-- The child `child` is the replay of `document` on `parent`, under the epoch context
`pinned`. -/
structure Replays (parent : Manifest) (parentRoot : Root) (document : TransitionArtifact)
    (componentReferences : ComponentReferences) (pinned : Option EpochPins) (child : Manifest) :
    Prop where
  selfConsistent : SelfConsistent document
  parentState : parentRoot = document.parentStateRoot
  pinnedEpoch : ∀ pins ∈ pinned, pins.epoch = document.epoch
  pinnedContext : ∀ pins ∈ pinned, pins.epochContextRoot = document.epochContextRoot
  closure : ClosureDeclared document componentReferences
  releases : applyReleases parent.profiles document.profileReleases = .ok child.profiles
  epoch : parent.epoch ≤ document.epoch
  benchmarkLawRoot : replayLawPin (pinned.map EpochPins.benchmarkLawRoot)
    document.resultingFrontierManifest.benchmarkLawRoot parent.benchmarkLawRoot
    (decide (parent.epoch < document.epoch)) "benchmark_law_root" = .ok child.benchmarkLawRoot
  runtimeAbiRoot : replayLawPin (pinned.map EpochPins.runtimeAbiRoot)
    document.resultingFrontierManifest.runtimeAbiRoot parent.runtimeAbiRoot
    (decide (parent.epoch < document.epoch)) "runtime_abi_root" = .ok child.runtimeAbiRoot
  childEpoch : child.epoch = document.epoch
  childParent : child.parentFrontierRoot = parentRoot
  childComposition : child.defaultCompositionRoot = document.resultingCompositionRoot
  newRoot : sha256Hex child.bytes = document.newStateRoot
  moves : sha256Hex child.bytes ≠ parentRoot

/-- When a replay returns a child. -/
theorem replayTransitionArtifact_eq_ok {parentManifest artifact epochPins : Json}
    {componentReferences : ComponentReferences} {child : Manifest} :
    replayTransitionArtifact parentManifest artifact componentReferences epochPins = .ok child ↔
      ∃ document parent parentRoot pinned, validateTransitionArtifact artifact = .ok document ∧
        validateManifest parentManifest = .ok parent ∧
        frontierRoot parentManifest = .ok parentRoot ∧ readEpochPins epochPins = .ok pinned ∧
        Replays parent parentRoot document componentReferences pinned child := by
  rw [replayTransitionArtifact]
  constructor
  · intro h
    rw [bind_eq_ok] at h
    obtain ⟨document, hdocument, h⟩ := h
    obtain ⟨hvalid, hconsistent⟩ := checkTransitionArtifactSelfConsistency_eq_ok.mp hdocument
    obtain ⟨parent, hparent, h⟩ := bind_eq_ok.mp h
    obtain ⟨parentRoot, hroot, h⟩ := bind_eq_ok.mp h
    obtain ⟨hparentRoot, h⟩ := refuseIf_bind_eq_ok.mp h
    obtain ⟨pinned, hpinned, h⟩ := bind_eq_ok.mp h
    obtain ⟨hpinnedEpoch, h⟩ := refuseIf_bind_eq_ok.mp h
    obtain ⟨hpinnedContext, h⟩ := refuseIf_bind_eq_ok.mp h
    obtain ⟨report, hreport, h⟩ := bind_eq_ok.mp h
    obtain ⟨profiles, hprofiles, h⟩ := bind_eq_ok.mp h
    obtain ⟨hepoch, h⟩ := refuseIf_bind_eq_ok.mp h
    obtain ⟨benchmarkLawRoot, hlaw, h⟩ := bind_eq_ok.mp h
    obtain ⟨runtimeAbiRoot, habi, h⟩ := bind_eq_ok.mp h
    obtain ⟨replayedRoot, hreplayed, h⟩ := bind_eq_ok.mp h
    obtain ⟨hnewRoot, h⟩ := refuseIf_bind_eq_ok.mp h
    obtain ⟨hmoves, h⟩ := refuseIf_bind_eq_ok.mp h
    cases h
    rw [recode_eq_ok, frontierRoot_json] at hreplayed
    cases hreplayed
    simp only [not_exists, not_and, Decidable.not_not] at hpinnedEpoch hpinnedContext
    exact ⟨document, parent, parentRoot, pinned, hvalid, recode_eq_ok.mp hparent,
      recode_eq_ok.mp hroot, hpinned, hconsistent, Decidable.not_not.mp hparentRoot, hpinnedEpoch,
      hpinnedContext, checkTransitionClosure_eq_ok.mp ⟨report, hreport⟩, hprofiles,
      UInt64.not_lt.mp hepoch, hlaw, habi, rfl, rfl, rfl, Decidable.not_not.mp hnewRoot, hmoves⟩
  · intro ⟨document, parent, parentRoot, pinned, hvalid, hparent, hroot, hpinned, h⟩
    obtain ⟨report, hreport⟩ := checkTransitionClosure_eq_ok.mpr h.closure
    have hchild : child = { parent with
        epoch := document.epoch
        parentFrontierRoot := parentRoot
        profiles := child.profiles
        defaultCompositionRoot := document.resultingCompositionRoot
        benchmarkLawRoot := child.benchmarkLawRoot
        runtimeAbiRoot := child.runtimeAbiRoot } := by
      rw [← h.childEpoch, ← h.childParent, ← h.childComposition]
    refine bind_eq_ok.mpr ⟨document,
      checkTransitionArtifactSelfConsistency_eq_ok.mpr ⟨hvalid, h.selfConsistent⟩, ?_⟩
    refine bind_eq_ok.mpr ⟨parent, recode_eq_ok.mpr hparent, ?_⟩
    refine bind_eq_ok.mpr ⟨parentRoot, recode_eq_ok.mpr hroot, ?_⟩
    refine refuseIf_bind_eq_ok.mpr ⟨not_not_intro h.parentState, ?_⟩
    refine bind_eq_ok.mpr ⟨pinned, hpinned, ?_⟩
    refine refuseIf_bind_eq_ok.mpr ⟨fun ⟨pins, hpins, hne⟩ => hne (h.pinnedEpoch pins hpins), ?_⟩
    refine refuseIf_bind_eq_ok.mpr ⟨fun ⟨pins, hpins, hne⟩ => hne (h.pinnedContext pins hpins), ?_⟩
    refine bind_eq_ok.mpr ⟨report, hreport, ?_⟩
    refine bind_eq_ok.mpr ⟨child.profiles, h.releases, ?_⟩
    refine refuseIf_bind_eq_ok.mpr ⟨UInt64.not_lt.mpr h.epoch, ?_⟩
    refine bind_eq_ok.mpr ⟨child.benchmarkLawRoot, h.benchmarkLawRoot, ?_⟩
    refine bind_eq_ok.mpr ⟨child.runtimeAbiRoot, h.runtimeAbiRoot, ?_⟩
    rw [← hchild]
    refine bind_eq_ok.mpr ⟨_, recode_eq_ok.mpr (frontierRoot_json child), ?_⟩
    refine refuseIf_bind_eq_ok.mpr ⟨not_not_intro h.newRoot, ?_⟩
    exact refuseIf_bind_eq_ok.mpr ⟨h.moves, rfl⟩

end CoreTex
