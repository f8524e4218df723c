import CoreTex.Eval.SeedDerivation
import CoreTex.Lib.Sort
import CoreTex.Replay.RpcLog
import CoreTex.State.WireForm

/-!
# CoreTex.Replay.CoretexRegistry

The registry replay (`replay/coretex-registry.ts`): decode the logs, sort the advances,
apply them one by one from a parent state, and compare one finalization log at the end.

`replayAdvance_eq_ok` says once what an accepted advance is; the rest of the loop is read off
it.
-/

namespace CoreTex

open CoreTex.Lib

/-! ### Results -/

inductive ReplayCode
  | STATE_PARENT_MISMATCH | PATCH_HASH_MISMATCH | APPLY_FAILED | NEW_ROOT_MISMATCH
  | CORE_VERSION_MISMATCH | OUT_OF_ORDER | CORPUS_ROOT_MISMATCH | ACTIVE_FRONTIER_ROOT_MISMATCH
  | BASELINE_MANIFEST_HASH_MISMATCH | FINAL_ROOT_MISMATCH | NO_PATCH_BYTES
  | CROSS_LANE_RIG_ADVANCE
  deriving DecidableEq, Repr

structure CoreTexReplayResult where
  ok : Bool
  code : Option ReplayCode
  message : Option String
  transitions : Int
  reproducedFinalRoot : Option String
  onChainFinalRoot : Option String
  deriving DecidableEq, Repr

/-- `{ ok: false, code, message, transitions }`. -/
def replayFailure (code : ReplayCode) (message : String) (transitions : Int) :
    CoreTexReplayResult :=
  ⟨false, some code, some message, transitions, none, none⟩

/-- How the replay loop stops early: a failure it returns, or an error thrown through it. -/
inductive ReplayStop
  | failed (result : CoreTexReplayResult)
  | thrown (error : Thrown)
  deriving DecidableEq, Repr

/-! ### Pins -/

structure ResolvedEpochPins where
  coreVersionHash : Option String
  corpusRoot : Option String
  activeFrontierRoot : Option String
  baselineManifestHash : Option String

structure ReplayOpts where
  expectedBundleHash : Option String
  expectedCorpusRoot : Option String
  expectedActiveFrontierRoot : Option String
  expectedBaselineManifestHash : Option String
  expectedPinsForEpoch : Option (Int → Option ResolvedEpochPins)
  policyAtomsMode : Bool

/-- The pins of one epoch: the resolver's where it has some, else the flat ones. -/
def resolveEpochPins (opts : ReplayOpts) (epoch : Int) : ResolvedEpochPins :=
  match opts.expectedPinsForEpoch.bind fun resolve => resolve epoch with
  | some perEpoch => perEpoch
  | none =>
    { coreVersionHash := opts.expectedBundleHash
      corpusRoot := opts.expectedCorpusRoot
      activeFrontierRoot := opts.expectedActiveFrontierRoot
      baselineManifestHash := opts.expectedBaselineManifestHash }

/-- `pin && !eqHex(actual, pin)`; an empty pin is no pin. -/
def pinDiffers (pin : Option String) (actual : String) : Bool :=
  match pin with
  | some expected => expected ≠ "" && !eqHex (some actual) expected
  | none => false

/-- `checkFinalizedPins`, where it returns a mismatch. -/
def checkFinalizedPins (finalized : CoreTexEpochFinalizedEvent) (pins : ResolvedEpochPins)
    (transitions : Int) : Except ReplayStop Unit := do
  let coreVersionHash := finalized.coreVersionHash
  let corpusRoot := finalized.corpusRoot
  let activeFrontierRoot := finalized.activeFrontierRoot
  let baselineManifestHash := finalized.baselineManifestHash
  let expectedCore := pins.coreVersionHash.getD ""
  let expectedCorpus := pins.corpusRoot.getD ""
  let expectedFrontier := pins.activeFrontierRoot.getD ""
  let expectedBaseline := pins.baselineManifestHash.getD ""
  refuseIf (pinDiffers pins.coreVersionHash coreVersionHash) (.failed (replayFailure
    .CORE_VERSION_MISMATCH
    s!"epochFinalized.coreVersionHash {coreVersionHash} != expected {expectedCore}" transitions))
  refuseIf (pinDiffers pins.corpusRoot corpusRoot) (.failed (replayFailure
    .CORPUS_ROOT_MISMATCH
    s!"epochFinalized.corpusRoot {corpusRoot} != expected {expectedCorpus}" transitions))
  refuseIf (pinDiffers pins.activeFrontierRoot activeFrontierRoot) (.failed (replayFailure
    .ACTIVE_FRONTIER_ROOT_MISMATCH
    s!"epochFinalized.activeFrontierRoot {activeFrontierRoot} != expected {expectedFrontier}"
    transitions))
  refuseIf (pinDiffers pins.baselineManifestHash baselineManifestHash) (.failed (replayFailure
    .BASELINE_MANIFEST_HASH_MISMATCH
    s!"epochFinalized.baselineManifestHash {baselineManifestHash} != expected {expectedBaseline}"
    transitions))

/-! ### The two lanes -/

def legacyV2RigTransitionDescriptorBytes : Nat := 105

def legacyV2RigTransitionDescriptorVersion : UInt8 := 0x20

/-- Is this payload a rig-lane transition descriptor? -/
def isLegacyV2RigLaneTransitionDescriptor (compactPatchBytes : Bytes) : Bool :=
  compactPatchBytes.length = legacyV2RigTransitionDescriptorBytes &&
    compactPatchBytes[0]? = some legacyV2RigTransitionDescriptorVersion

def crossLaneMessage (transitionIndex : Int) : String :=
  s!"advance {transitionIndex} carries a 105-byte " ++
    "coretex.transition-descriptor/v2 payload (version byte 0x20), " ++
    "so it is a legacy RIG-LANE advance that " ++
    "reached this V4 replay through the shared CoreTexStateAdvanced topic0. This is NOT an " ++
    "invalid patch and MUST NOT be reported as one: the rig lane derives patchHash under a " ++
    "different domain label over different bytes. Scope the log query to the V4 registry " ++
    "address, or replay it with the rig-lane validator"

/-! ### The loop -/

/-- The loop's variables: the running state and root, the count, and the index each epoch is
to go on with. -/
structure RegistryLoop where
  state : CortexState
  root : String
  transitions : Int
  expectedIdxByEpoch : Int → Int

def cmpBig (a b : Int) : Int :=
  if a < b then -1 else if a > b then 1 else 0

/-- By epoch, then by index. -/
def cmpAdvances (a b : CoreTexStateAdvancedEvent) : Int :=
  if cmpBig a.epoch b.epoch ≠ 0 then cmpBig a.epoch b.epoch
  else cmpBig a.transitionIndex b.transitionIndex

def cmpFinalized (a b : CoreTexEpochFinalizedEvent) : Int :=
  cmpBig a.epoch b.epoch

section Replay

variable (keccak256 : Bytes → Digest) (S : CompareSort) (opts : ReplayOpts)

/-- The root of a state as hex. -/
def rootHex (state : CortexState) : String :=
  bytesToHex (merkleizeState keccak256 state).bytes

/-- One turn of the loop. -/
def replayAdvance (loop : RegistryLoop) (adv : CoreTexStateAdvancedEvent) :
    Except ReplayStop RegistryLoop := do
  let epoch := adv.epoch
  let idx := adv.transitionIndex
  let expectedIdx := loop.expectedIdxByEpoch adv.epoch
  refuseIf (adv.transitionIndex ≠ expectedIdx) (.failed (replayFailure .OUT_OF_ORDER
    s!"epoch {epoch} transitionIndex {idx} != expected {expectedIdx}" loop.transitions))
  let advPins := resolveEpochPins opts adv.epoch
  let coreVersionHash := adv.coreVersionHash
  let corpusRoot := adv.corpusRoot
  let activeFrontierRoot := adv.activeFrontierRoot
  let expectedCore := advPins.coreVersionHash.getD ""
  let expectedCorpus := advPins.corpusRoot.getD ""
  let expectedFrontier := advPins.activeFrontierRoot.getD ""
  refuseIf (pinDiffers advPins.coreVersionHash adv.coreVersionHash) (.failed (replayFailure
    .CORE_VERSION_MISMATCH
    s!"advance {idx} coreVersionHash {coreVersionHash} != expected {expectedCore}" idx))
  refuseIf (pinDiffers advPins.corpusRoot adv.corpusRoot) (.failed (replayFailure
    .CORPUS_ROOT_MISMATCH s!"advance {idx} corpusRoot {corpusRoot} != expected {expectedCorpus}"
    idx))
  refuseIf (pinDiffers advPins.activeFrontierRoot adv.activeFrontierRoot) (.failed (replayFailure
    .ACTIVE_FRONTIER_ROOT_MISMATCH
    s!"advance {idx} activeFrontierRoot {activeFrontierRoot} != expected {expectedFrontier}" idx))
  let parent := adv.parentStateRoot
  let root := loop.root
  refuseIf (!eqHex (some adv.parentStateRoot) loop.root) (.failed (replayFailure
    .STATE_PARENT_MISMATCH s!"advance {idx} parent {parent} != live {root}" idx))
  refuseIf (adv.compactPatchBytes.length = 0) (.failed (replayFailure .NO_PATCH_BYTES
    s!"advance {idx} has empty compactPatchBytes" idx))
  -- classify before judging: the other lane hashes its payload by another rule
  refuseIf (isLegacyV2RigLaneTransitionDescriptor adv.compactPatchBytes) (.failed (replayFailure
    .CROSS_LANE_RIG_ADVANCE (crossLaneMessage idx) idx))
  refuseIf (!eqHex (some (computePatchHash keccak256 adv.compactPatchBytes)) adv.patchHash)
    (.failed (replayFailure .PATCH_HASH_MISMATCH s!"advance {idx} patchHash mismatch" idx))
  -- no `try` stands around the decoder
  let patch ←
    match decodePatch adv.compactPatchBytes with
    | .ok patch => pure patch
    | .error e => throw (.thrown (.error e))
  match applyPatch keccak256 loop.state patch opts.policyAtomsMode with
  | .error err =>
    let code := err.code.text
    throw (.failed (replayFailure .APPLY_FAILED s!"advance {idx} applyPatch {code}" idx))
  | .ok state =>
    let newRoot := rootHex keccak256 state
    let onChain := adv.newStateRoot
    refuseIf (!eqHex (some newRoot) adv.newStateRoot) (.failed (replayFailure .NEW_ROOT_MISMATCH
      s!"advance {idx} reproduced {newRoot} != on-chain {onChain}" idx))
    return {
      state, root := newRoot, transitions := loop.transitions + 1
      expectedIdxByEpoch := fun e =>
        if e = adv.epoch then expectedIdx + 1 else loop.expectedIdxByEpoch e }

/-- The loop's variables before the first advance. -/
def replayStart (parentState : CortexState) : RegistryLoop :=
  ⟨parentState, rootHex keccak256 parentState, 0, fun _ => 0⟩

/-- The comparison after the loop. -/
def replayFinish (loop : RegistryLoop) (advances : List CoreTexStateAdvancedEvent)
    (finalized : Option CoreTexEpochFinalizedEvent) : Except ReplayStop CoreTexReplayResult := do
  match finalized with
  | none => return ⟨true, none, none, advances.length, some loop.root, none⟩
  | some finalized =>
    checkFinalizedPins finalized (resolveEpochPins opts finalized.epoch) advances.length
    let final := finalized.finalStateRoot
    let root := loop.root
    refuseIf (!eqHex (some finalized.finalStateRoot) loop.root) (.failed
      { replayFailure .FINAL_ROOT_MISMATCH
          s!"epochFinalized.finalStateRoot {final} != reproduced {root}" advances.length with
        reproducedFinalRoot := some loop.root, onChainFinalRoot := some finalized.finalStateRoot })
    return ⟨true, none, none, advances.length, some loop.root, some finalized.finalStateRoot⟩

/-- The replay over decoded events. -/
def replayEvents (parentState : CortexState) (advances : List CoreTexStateAdvancedEvent)
    (finalized : List CoreTexEpochFinalizedEvent) : Except ReplayStop CoreTexReplayResult := do
  let advances := S.sort cmpAdvances advances
  let finalized := (S.sort cmpFinalized finalized).getLast?
  let loop ← advances.foldlM (replayAdvance keccak256 opts) (replayStart keccak256 parentState)
  replayFinish opts loop advances finalized

/-- A failure inside the loop is a result; a thrown error goes out. -/
def stopToResult : Except ReplayStop CoreTexReplayResult → Except Thrown CoreTexReplayResult
  | .ok result => .ok result
  | .error (.failed result) => .ok result
  | .error (.thrown error) => .error error

def replayCoreTexFromLogs (parentState : CortexState) (logs : List RpcLog) :
    Except Thrown CoreTexReplayResult := do
  let advances := (← logs.mapM (decodeCoreTexStateAdvanced keccak256)).filterMap id
  let finalized := (← logs.mapM (decodeCoreTexEpochFinalized keccak256)).filterMap id
  stopToResult (replayEvents keccak256 S opts parentState advances finalized)

end Replay

end CoreTex
