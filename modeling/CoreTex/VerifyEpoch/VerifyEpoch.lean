import CoreTex.Eval.SeedDerivation
import CoreTex.Lib.Sort
import CoreTex.State.Codec
import CoreTex.State.PatchApply

/-!
# CoreTex.VerifyEpoch.VerifyEpoch

Reproducing an epoch's state root from chain events alone (`verify-epoch/index.ts`): a
start state, the accepted-patch events and the finalized event.

The sort comparator answers `1` on equal hashes, so it is not a consistent comparator and
nothing but a rearrangement may be assumed of the sorted events.
-/

namespace CoreTex

open CoreTex.Lib

/-! ### Events -/

structure PatchAcceptedEvent where
  epoch : Int
  miner : String
  parentStateRoot : String
  patchHash : String
  evalReportHash : String
  compactPatchBytes : Bytes

structure EpochFinalizedEvent where
  epoch : Int
  parentStateRoot : String
  patchSetRoot : String
  newStateRoot : String
  coreVersionHash : String
  experienceCorpusRoot : String

structure StateSnapshotEvent where
  epoch : Int
  stateRoot : String
  fullStateBytes : Bytes

/-! ### Results -/

structure VerifyEpochSuccess where
  epoch : Int
  reproducedStateRoot : String
  expectedStateRoot : String
  match_ : Bool
  patchesProcessed : Nat
  acceptedPatchHashes : List String
  source : String

inductive VerifyEpochErrorCode
  | NO_FINALIZED_EVENT
  | NO_SNAPSHOT_OR_GENESIS
  | SNAPSHOT_DECODE_ERROR
  deriving DecidableEq, Repr

structure VerifyEpochError where
  code : VerifyEpochErrorCode
  message : String

structure VerifyEpochInput where
  epoch : Int
  finalizedEvent : Option EpochFinalizedEvent
  patchEvents : List PatchAcceptedEvent
  snapshotEvent : Option StateSnapshotEvent
  genesisState : Option CortexState
  policyAtomsMode : Option Bool

/-! ### The replay reducer -/

section

variable (keccak256 : Bytes → Digest) (toLowerCase : String → String)

def hexEq (a b : String) : Bool :=
  toLowerCase a = toLowerCase b

/-- An eligible event with its decoded patch and its recomputed hash. -/
structure DecodedEvent where
  ev : PatchAcceptedEvent
  patch : Patch
  computedPatchHash : String

/-- The pre-pass filter: event parent, wire parent and patch hash all match. -/
def eligibleEvent (parentRoot : String) (p : PatchAcceptedEvent) : Bool :=
  hexEq toLowerCase p.parentStateRoot parentRoot &&
    match decodePatch p.compactPatchBytes with
    | .error _ => false
    | .ok patch =>
      hexEq toLowerCase (bytesToHex patch.parentStateRoot) parentRoot &&
        hexEq toLowerCase p.patchHash (computePatchHash keccak256 p.compactPatchBytes)

/-- Decode again; an eligible event always decodes. -/
def decodeEvent (ev : PatchAcceptedEvent) : Option DecodedEvent :=
  match decodePatch ev.compactPatchBytes with
  | .error _ => none
  | .ok patch => some ⟨ev, patch, computePatchHash keccak256 ev.compactPatchBytes⟩

/-- Score descending, word count ascending, hash ascending; `1` on equal hashes. -/
def compareDecodedEvents (a b : DecodedEvent) : Int :=
  if a.patch.scoreDelta > b.patch.scoreDelta then -1
  else if a.patch.scoreDelta < b.patch.scoreDelta then 1
  else if a.patch.wordCount ≠ b.patch.wordCount then a.patch.wordCount - b.patch.wordCount
  else if a.computedPatchHash < b.computedPatchHash then -1 else 1

/-- What the replay loop carries. -/
structure ReplayLoop where
  usedIndices : List Int
  currentState : CortexState
  acceptedHashes : List String

/-- One turn of the replay loop. -/
def replayStep (policyAtomsMode : Bool) (loop : ReplayLoop) (d : DecodedEvent) : ReplayLoop :=
  if d.patch.indices.any (· ∈ loop.usedIndices) then loop
  else
    match applyPatchOntoCurrent loop.currentState d.patch policyAtomsMode with
    | .error _ => loop
    | .ok state =>
      { usedIndices := loop.usedIndices ++ d.patch.indices
        currentState := state
        acceptedHashes := loop.acceptedHashes ++ [d.computedPatchHash] }

def runReducer (S : CompareSort) (parentState : CortexState) (patches : List PatchAcceptedEvent)
    (policyAtomsMode : Bool) : ReplayLoop :=
  let parentRoot := bytesToHex (merkleizeState keccak256 parentState).bytes
  let eligible := patches.filter (eligibleEvent keccak256 toLowerCase parentRoot)
  let decoded := S.sort compareDecodedEvents (eligible.filterMap (decodeEvent keccak256))
  decoded.foldl (replayStep policyAtomsMode) ⟨[], parentState, []⟩

/-- The state an epoch starts from, and where it was found. -/
def startState (input : VerifyEpochInput) : Except VerifyEpochError (CortexState × String) :=
  match input.snapshotEvent with
  | some snapshot =>
    match unpack snapshot.fullStateBytes with
    | .ok state => .ok (state, "snapshot")
    | .error err =>
      let message := err.message
      .error ⟨.SNAPSHOT_DECODE_ERROR, s!"Snapshot decode error: {message}"⟩
  | none =>
    match input.genesisState with
    | some state => .ok (state, "genesis")
    | none =>
      let epoch := input.epoch
      .error ⟨.NO_SNAPSHOT_OR_GENESIS, s!"No snapshot and no genesis state for epoch {epoch}"⟩

/-- Reproduce the new state root of a finalized epoch. -/
def verifyEpoch (S : CompareSort) (input : VerifyEpochInput) :
    Except VerifyEpochError VerifyEpochSuccess := do
  match input.finalizedEvent with
  | none =>
    let epoch := input.epoch
    throw ⟨.NO_FINALIZED_EVENT, s!"No CortexEpochFinalized event for epoch {epoch}"⟩
  | some finalized =>
    let (start, source) ← startState input
    let loop := runReducer keccak256 toLowerCase S start input.patchEvents
      (input.policyAtomsMode == some true)
    let reproducedStateRoot :=
      toLowerCase (bytesToHex (merkleizeState keccak256 loop.currentState).bytes)
    let expectedStateRoot := toLowerCase finalized.newStateRoot
    return { epoch := input.epoch
             reproducedStateRoot
             expectedStateRoot
             match_ := reproducedStateRoot = expectedStateRoot
             patchesProcessed := input.patchEvents.length
             acceptedPatchHashes := loop.acceptedHashes
             source }

end

end CoreTex
