import CoreTex.Reducer.Reducer
import CoreTex.Rewards.WorkUnits

/-!
# CoreTex.Reducer.LiveEpoch

The live lane (`reducer/live-epoch.ts`): verified improvements advance the state in
arrival order, each on the root of the state before it. The root is kept by a Merkle
cache beside the words.

An advance asks the work policy for its units, so a negative counter or an invalid policy
makes the whole call throw at the first accepted patch.
-/

namespace CoreTex

open CoreTex.Lib

/-! ### Types -/

/-- A reducer code, or a patch that does not improve the live state. -/
inductive LiveRejectionCode
  | shared (code : RejectionCode)
  | L01_NOT_IMPROVEMENT
  deriving DecidableEq, Repr

structure LiveEpochInputPatch where
  miner : String
  patch : Patch
  patchBytes : Bytes
  scoreDelta : Int
  marginalEvaluator : MarginalEvaluator

structure StateAdvance where
  miner : String
  patch : Patch
  patchBytes : Bytes
  patchHash : String
  parentStateRoot : String
  newStateRoot : String
  marginalGain : Int
  workUnitsBps : Int
  creditUnits : Int
  advanceIndex : Nat
  deriving DecidableEq

structure LiveRejectedPatch where
  miner : String
  patch : Patch
  patchBytes : Bytes
  reason : LiveRejectionCode
  deriving DecidableEq

structure LiveEpochOutput where
  newState : CortexState
  patchSetRoot : Digest
  patchSetRootHex : String
  newStateRoot : Digest
  newStateRootHex : String
  advances : List StateAdvance
  rejected : List LiveRejectedPatch

structure LiveEpochRewardOptions where
  qualifiedScreenerPassesSinceLastStateAdvance : Option Numeric
  workPolicy : Option CoreTexWorkPolicy
  policyAtomsMode : Option Bool

/-- `rewardOptions = {}`, the default argument. -/
def defaultRewardOptions : LiveEpochRewardOptions := ⟨none, none, none⟩

/-- The live lane's own `toBigInt`: a `bigint` passes whatever its sign. -/
def liveToBigInt (value : Numeric) : Except JsError Int :=
  match value with
  | .bigint n => .ok n
  | .number n =>
      if !isSafeInteger n || n < 0 then
        .error (rangeError "reward counter must be a non-negative safe integer")
      else .ok n
  | .nonInteger => .error (rangeError "reward counter must be a non-negative safe integer")
  | .string s =>
      if !isDecimalString s then
        .error (rangeError "reward counter must be a non-negative decimal string")
      else .ok (decimalValue s)

variable (keccak256 : Bytes → Digest) (toLowerCase : String → String)

/-! ### The loop -/

/-- What the arrival-order loop carries. -/
structure LiveLoop where
  current : CortexState
  currentMerkle : MerkleTreeCache
  advances : List StateAdvance
  rejected : List LiveRejectedPatch

def liveCodes : AcceptStepCodes LiveRejectionCode where
  notImprovement := .L01_NOT_IMPROVEMENT
  wrongParent := .shared .R03_WRONG_PARENT_ROOT
  reservedBit := .shared .R05_RESERVED_BIT_SET
  invalidTarget := .shared .R04_INVALID_TARGET

def LiveLoop.reject (loop : LiveLoop) (item : LiveEpochInputPatch) (reason : LiveRejectionCode) :
    LiveLoop :=
  { loop with rejected := loop.rejected ++ [⟨item.miner, item.patch, item.patchBytes, reason⟩] }

/-- `patch.indices.map((index, i) => ({ index, word: patch.newWords[i] ?? 0n }))`. -/
def merkleUpdates (patch : Patch) : List MerkleWordUpdate :=
  patch.indices.zipIdx.map fun e => ⟨e.1, patch.newWords[e.2]?.getD 0⟩

def policyAtomsModeOf (rewardOptions : LiveEpochRewardOptions) : Bool :=
  rewardOptions.policyAtomsMode == some true

/-- One turn of the loop. -/
def liveStep (threshold : Int) (rewardOptions : LiveEpochRewardOptions) (loop : LiveLoop)
    (item : LiveEpochInputPatch) : Except JsError LiveLoop :=
  let parentRootHex := bytesToHex loop.currentMerkle.root.bytes
  if item.patch.parentStateRoot ≠ loop.currentMerkle.root.bytes then
    .ok (loop.reject item (.shared .R03_WRONG_PARENT_ROOT))
  else
    match evaluateAndApplyOntoCurrent loop.current item.patch item.marginalEvaluator threshold
        true (policyAtomsModeOf rewardOptions) liveCodes with
    | .error reason => .ok (loop.reject item reason)
    | .ok step => do
      let currentMerkle ← updateMerkleCache keccak256 loop.currentMerkle (merkleUpdates item.patch)
      let counter ←
        liveToBigInt (rewardOptions.qualifiedScreenerPassesSinceLastStateAdvance.getD (.bigint 0))
      let workUnitsBps ← computeCoreTexWorkUnitsBps outcomeCoretexStateAdvance
        (some (.bigint (counter + loop.advances.length))) rewardOptions.workPolicy
      return {
        current := step.state
        currentMerkle
        advances := loop.advances ++
          [{ miner := toLowerCase item.miner
             patch := item.patch
             patchBytes := item.patchBytes
             patchHash := computePatchHash keccak256 item.patchBytes
             parentStateRoot := parentRootHex
             newStateRoot := bytesToHex currentMerkle.root.bytes
             marginalGain := step.marginalGain
             workUnitsBps
             creditUnits := workUnitsBps
             advanceIndex := loop.advances.length }]
        rejected := loop.rejected }

/-- The loop's state before the first patch. -/
def liveStart (parentState : CortexState) : LiveLoop :=
  ⟨parentState, buildMerkleCache keccak256 parentState, [], []⟩

/-- The loop over the patches in arrival order. -/
def liveRun (parentState : CortexState) (threshold : Int) (rewardOptions : LiveEpochRewardOptions)
    (patches : List LiveEpochInputPatch) : Except JsError LiveLoop :=
  patches.foldlM (liveStep keccak256 toLowerCase threshold rewardOptions)
    (liveStart keccak256 parentState)

/-- What the call returns of a finished loop. -/
def LiveLoop.output (loop : LiveLoop) : LiveEpochOutput :=
  let acceptedForRoot := loop.advances.map fun advance : StateAdvance =>
    ({ patch := advance.patch, patchBytes := advance.patchBytes,
       marginalGain := advance.marginalGain,
       acceptanceIndex := advance.advanceIndex } : AcceptedPatch)
  let patchSetRoot := computePatchSetRoot keccak256 acceptedForRoot
  { newState := loop.current
    patchSetRoot
    patchSetRootHex := bytesToHex patchSetRoot.bytes
    newStateRoot := loop.currentMerkle.root
    newStateRootHex := bytesToHex loop.currentMerkle.root.bytes
    advances := loop.advances
    rejected := loop.rejected }

/-- Advance the epoch state as verified improvements arrive. -/
def advanceEpochState (parentState : CortexState) (patches : List LiveEpochInputPatch)
    (threshold : Int) (rewardOptions : LiveEpochRewardOptions) : Except JsError LiveEpochOutput := do
  let loop ← liveRun keccak256 toLowerCase parentState threshold rewardOptions patches
  return loop.output keccak256

end CoreTex
