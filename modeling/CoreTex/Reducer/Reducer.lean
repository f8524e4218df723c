import CoreTex.Eval.SeedDerivation
import CoreTex.Lib.Sort
import CoreTex.Reducer.AcceptCore

/-!
# CoreTex.Reducer.Reducer

The batch reducer (`reducer/reducer.ts`): drop the patches of another parent, sort by
(score descending, size ascending, hash ascending), then accept greedily, skipping a
patch that touches a target already taken.

`Selection` is the invariant of the greedy loop: the accepted patches touch disjoint
targets, and each of them is admitted by the parent state itself and writes valid words.
So what was accepted can be applied to the parent in any order.
-/

namespace CoreTex

open CoreTex.Lib

/-! ### Types -/

/-- Stable rejection codes. -/
inductive RejectionCode
  | R01_TARGET_OVERLAP
  | R02_SEMANTIC_CONFLICT
  | R03_WRONG_PARENT_ROOT
  | R04_INVALID_TARGET
  | R05_RESERVED_BIT_SET
  deriving DecidableEq, Repr

/-- A screener-pass patch. -/
structure ReducerInputPatch where
  patch : Patch
  patchBytes : Bytes
  scoreDelta : Int
  marginalEvaluator : MarginalEvaluator

structure AcceptedPatch where
  patch : Patch
  patchBytes : Bytes
  marginalGain : Int
  acceptanceIndex : Nat
  deriving DecidableEq

structure RejectedPatch where
  patch : Patch
  patchBytes : Bytes
  reason : RejectionCode
  deriving DecidableEq

structure ReducerOutput where
  newState : CortexState
  patchSetRoot : Digest
  patchSetRootHex : String
  newStateRoot : Digest
  newStateRootHex : String
  accepted : List AcceptedPatch
  rejected : List RejectedPatch

variable (keccak256 : Bytes → Digest)

/-! ### Ordering -/

/-- Negative when `a` comes first: higher score, then fewer words, then lower hash. Hex
text is ASCII, so comparing code points is comparing code units. -/
def comparePatchPriority (a b : ReducerInputPatch) : Int :=
  if b.scoreDelta ≠ a.scoreDelta then
    if b.scoreDelta > a.scoreDelta then 1 else -1
  else if a.patch.wordCount ≠ b.patch.wordCount then a.patch.wordCount - b.patch.wordCount
  else
    let aHash := computePatchHash keccak256 a.patchBytes
    let bHash := computePatchHash keccak256 b.patchBytes
    if aHash < bHash then -1 else if aHash > bHash then 1 else 0

/-! ### The patch set root -/

/-- `keccak256` of the accepted patches' hashes in order; of nothing when there are none. -/
def computePatchSetRoot (accepted : List AcceptedPatch) : Digest :=
  if accepted.isEmpty then keccak256 []
  else keccak256 (accepted.flatMap fun a => (keccak256 a.patchBytes).bytes)

/-! ### The reducer -/

/-- What the greedy loop carries. -/
structure ReduceLoop where
  current : CortexState
  accepted : List AcceptedPatch
  acceptedTargets : List Int
  rejected : List RejectedPatch

def reduceCodes : AcceptStepCodes RejectionCode where
  notImprovement := .R02_SEMANTIC_CONFLICT
  wrongParent := .R03_WRONG_PARENT_ROOT
  reservedBit := .R05_RESERVED_BIT_SET
  invalidTarget := .R04_INVALID_TARGET

def ReduceLoop.reject (loop : ReduceLoop) (item : ReducerInputPatch) (reason : RejectionCode) :
    ReduceLoop :=
  { loop with rejected := loop.rejected ++ [⟨item.patch, item.patchBytes, reason⟩] }

/-- One turn of the greedy loop. -/
def reduceStep (threshold : Int) (policyAtomsMode : Bool) (loop : ReduceLoop)
    (item : ReducerInputPatch) : ReduceLoop :=
  if item.patch.indices.any (· ∈ loop.acceptedTargets) then
    loop.reject item .R01_TARGET_OVERLAP
  else
    match evaluateAndApplyOntoCurrent loop.current item.patch item.marginalEvaluator threshold
        false policyAtomsMode reduceCodes with
    | .error reason => loop.reject item reason
    | .ok step =>
      { current := step.state
        accepted := loop.accepted ++
          [⟨item.patch, item.patchBytes, step.marginalGain, loop.accepted.length⟩]
        acceptedTargets := loop.acceptedTargets ++ item.patch.indices
        rejected := loop.rejected }

/-- The greedy loop over the ordered items, from the parent state. -/
def reduceLoop (parentState : CortexState) (threshold : Int) (policyAtomsMode : Bool)
    (rejected : List RejectedPatch) (ordered : List ReducerInputPatch) : ReduceLoop :=
  ordered.foldl (reduceStep threshold policyAtomsMode) ⟨parentState, [], [], rejected⟩

/-- The items of another parent, rejected before the ordering. -/
def wrongParentRejects (epochParentRoot : Digest) (patches : List ReducerInputPatch) :
    List RejectedPatch :=
  (patches.filter fun item => !patchMatchesEpochParent item.patch epochParentRoot).map fun item =>
    ⟨item.patch, item.patchBytes, .R03_WRONG_PARENT_ROOT⟩

/-- Run the epoch reducer. -/
def reduce (S : CompareSort) (parentState : CortexState) (patches : List ReducerInputPatch)
    (threshold : Int) (policyAtomsMode : Bool) : ReducerOutput :=
  let epochParentRoot := merkleizeState keccak256 parentState
  let eligible := patches.filter fun item => patchMatchesEpochParent item.patch epochParentRoot
  let rejectedSet := wrongParentRejects epochParentRoot patches
  let ordered := S.sort (comparePatchPriority keccak256) eligible
  let loop := reduceLoop parentState threshold policyAtomsMode rejectedSet ordered
  let patchSetRoot := computePatchSetRoot keccak256 loop.accepted
  let newStateRoot := merkleizeState keccak256 loop.current
  { newState := loop.current
    patchSetRoot
    patchSetRootHex := bytesToHex patchSetRoot.bytes
    newStateRoot
    newStateRootHex := bytesToHex newStateRoot.bytes
    accepted := loop.accepted
    rejected := loop.rejected }

end CoreTex
