import CoreTex.Lib.JsMap
import CoreTex.Replay.RegistryHistory
import CoreTex.Rewards.WorkUnits

/-!
# CoreTex.Coordinator.Core

The data of the coordinator core (`coordinator/coretex-coordinator-core.ts`): configuration,
events, pending receipts, and the state in two parts. The watcher holds what chain events and
rollbacks change, the book what signing and expiry change.

Metrics, and the fields that only the status and health surfaces read, are left out. A text
compared after `toLowerCase` is compared after `String.toLower`: what it is compared with is
hex text, and no other character lower-cases to a hex digit.
-/

namespace CoreTex.Coordinator

open CoreTex.Lib

/-! ### Chain data -/

/-- What the core reads of an event. -/
structure CoreTexStateAdvancedEvent where
  blockNumber : Int
  blockHash : String
  logIndex : Int
  epoch : Int
  transitionIndex : Int
  parent : String
  newRoot : String
  patchHash : String
  coreV : String
  corpus : String
  frontier : String
  wordCount : Int
  compactPatchBytes : String
  deriving DecidableEq, Repr

structure CoreTexMinerCounters where
  screenersThisEpoch : Int
  nextIndex : Int
  lastReceiptHash : String

structure RegistryEpochPins where
  parentStateRoot : String
  coreVersionHash : String
  corpusRoot : String
  activeFrontierRoot : String
  baselineManifestHash : String
  hiddenSeedCommit : String

structure RegistryEpoch where
  liveStateRoot : String
  transitionCount : Int

/-! ### Configuration -/

inductive BaselineVarianceSource
  | rotatingPack | broadSampling | unavailable
  deriving DecidableEq, Repr

/-- The fields of the configuration that boot, tick and submit read. -/
structure CoreTexCoordinatorConfig where
  epoch : Int
  expectedChainId : Int
  miningContractAddress : Option String
  v4Address : Option String
  registryAddress : String
  expectedCoordinatorSigner : String
  expectedEpochPins : RegistryEpochPins
  confirmationDepth : Int
  replayFromBlock : Option Int
  receiptTtlSec : Int
  perMinerScreenerCap : Option Int
  screenerThresholdPpm : Option Int
  minImprovementPpm : Option Int
  replayTolerancePpm : Option Int
  maxPatchBytes : Option Int
  baselineScorePpm : Option Int
  baselineParentScorePpm : Option Int
  baselineVariancePpm : Option Int
  baselineVarianceSource : Option BaselineVarianceSource
  fixedPackRepeatabilityPpm : Option Int
  recentNoiseFloorPpm : Option Int
  targetBlockOffset : Option Int
  rulesVersion : Option Int
  workPolicyHash : Option String
  workPolicy : Option CoreTexWorkPolicy

/-! ### Receipts -/

inductive PendingState
  | pending | confirmed | stale | expired
  deriving DecidableEq, Repr

structure PendingReceipt where
  originalPatchHash : String
  signedPatchHash : String
  parentRoot : String
  expectedNewRoot : String
  compactPatchBytes : String
  miner : String
  issuedAt : Int
  expiresAt : Int
  scoreAfterPpm : Option Int
  state : PendingState
  deriving DecidableEq, Repr

structure CoreTexReceiptPayload where
  epochId : Int
  solveIndex : Int
  prevReceiptHash : String
  outcome : Int
  challengeId : String
  parentStateRoot : String
  newStateRoot : String
  corpusRoot : String
  activeFrontierRoot : String
  coreVersionHash : String
  evalReportHash : String
  patchHash : String
  artifactHash : String
  worldSeed : Nat
  rulesVersion : Int
  workPolicyHash : String
  workUnitsBps : Int
  difficultyCountSnapshot : Int
  stateWordCount : Int
  scoreBeforePpm : Int
  scoreAfterPpm : Int
  issuedAt : Int
  expiresAt : Int
  compactPatchBytes : String
  deriving DecidableEq, Repr

structure CoreTexSignedReceipt where
  signature : String
  transactionData : String
  receiptHash : Option String
  deriving DecidableEq, Repr

/-- The envelope: the signed receipt and what the miner is told beside it. -/
structure ReceiptEnvelope where
  outcome : String
  patchHash : String
  evalReportHash : String
  workUnitsBps : Int
  newStateRoot : String
  perMinerScreenerCount : Int
  perMinerScreenerRemaining : Int
  receipt : CoreTexReceiptPayload
  signed : CoreTexSignedReceipt
  issuedAt : Int
  expiresAt : Int
  deriving DecidableEq, Repr

structure MinerChainReservation where
  nextIndex : Int
  lastReceiptHash : Option String
  expiresAt : Int
  deriving DecidableEq, Repr

/-! ### State -/

structure Snapshot where
  transitionIndex : Int
  blockNumber : Int
  blockHash : String
  parent : String
  root : String
  patchHash : String
  state : CortexState
  deriving DecidableEq

def maxSnapshots : Nat := 64

/-- What events and rollbacks change. -/
structure Watcher where
  liveState : CortexState
  liveRoot : String
  parentState : CortexState
  parentRoot : String
  lastTransitionIndex : Int
  stateByRoot : JsMap String CortexState
  snapshots : List Snapshot
  lastScannedBlock : Int
  replayFromBlock : Int

/-- What signing and expiry change. -/
structure Book where
  pendingByPatchHash : JsMap String PendingReceipt
  receiptCache : JsMap String ReceiptEnvelope
  expiredReceiptTombstones : JsMap String Int
  submitDedup : JsMap String Int
  minerChainReservations : JsMap String MinerChainReservation
  baselineByRoot : JsMap String Int

structure Core where
  watcher : Watcher
  book : Book
  signingEnabled : Bool
  unhealthyReason : Option String
  frozen : Bool
  freezeGeneration : Nat
  currentBaselineVariancePpm : Option Int

/-- `unhealthyReason?.startsWith('CoordAwaitingFinality')`. -/
def Core.isAwaitingFinality (c : Core) : Bool :=
  match c.unhealthyReason with
  | some reason => ("CoordAwaitingFinality".toList).isPrefixOf reason.toList
  | none => false

/-! ### Hex text -/

/-- The coordinator's own `hexToBytes`: an odd text is padded, not refused. -/
def hexToBytes (h : String) : Bytes :=
  let s :=
    match h.toList with
    | '0' :: 'x' :: rest => rest
    | cs => cs
  hexPairs (if s.length % 2 ≠ 0 then '0' :: s else s)

theorem hexToBytes_bytesToHex (bytes : Bytes) : hexToBytes (bytesToHex bytes) = bytes := by
  have heven : ¬ (hexChars bytes).length % 2 ≠ 0 := by
    rw [length_hexChars]
    omega
  unfold hexToBytes
  rw [toList_bytesToHex]
  show hexPairs (if (hexChars bytes).length % 2 ≠ 0 then _ else hexChars bytes) = bytes
  rw [if_neg heven, hexPairs_hexChars]

/-! ### The book -/

namespace PendingReceipt

/-- The key under which a submission is deduplicated. -/
def dedupKey (p : PendingReceipt) : String :=
  p.parentRoot.toLower ++ "|" ++ p.originalPatchHash.toLower

/-- `markPendingStale`. -/
def markStale (p : PendingReceipt) : PendingReceipt :=
  { p with state := .stale }

end PendingReceipt

namespace Book

/-- Update every pending record in place. -/
def mapPending (b : Book) (f : PendingReceipt → PendingReceipt) : Book :=
  { b with pendingByPatchHash := b.pendingByPatchHash.map fun e => (e.1, f e.2) }

/-- `markExpiredReceiptHash`. -/
def markExpiredReceiptHash (b : Book) (receiptTtlSec : Int) (hash : String) (nowSec : Int) : Book :=
  { b with expiredReceiptTombstones :=
      b.expiredReceiptTombstones.set hash.toLower (nowSec + receiptTtlSec) }

def uncacheReceipt (b : Book) (hash : String) : Book :=
  { b with receiptCache := b.receiptCache.delete hash.toLower }

/-- What `gcPending` does to one pending record whose window has elapsed. -/
def expirePending (b : Book) (receiptTtlSec nowSec : Int) (p : PendingReceipt) : Book :=
  let b := { b with submitDedup := b.submitDedup.delete p.dedupKey }
  let b := b.markExpiredReceiptHash receiptTtlSec p.signedPatchHash nowSec
  let b := b.markExpiredReceiptHash receiptTtlSec p.originalPatchHash nowSec
  let b := (b.uncacheReceipt p.signedPatchHash).uncacheReceipt p.originalPatchHash
  { b with pendingByPatchHash := b.pendingByPatchHash.delete p.signedPatchHash.toLower }

/-- What `gcPending` does to one cached receipt. -/
def sweepReceipt (receiptTtlSec nowSec : Int) (b : Book) (e : String × ReceiptEnvelope) : Book :=
  match b.pendingByPatchHash.get e.2.patchHash.toLower with
  | some p =>
    if p.state = .expired then
      let b := b.markExpiredReceiptHash receiptTtlSec p.signedPatchHash nowSec
      let b := b.markExpiredReceiptHash receiptTtlSec p.originalPatchHash nowSec
      (b.uncacheReceipt p.signedPatchHash).uncacheReceipt p.originalPatchHash
    else b
  | none =>
    if e.2.expiresAt ≤ nowSec then
      ({ b with receiptCache := b.receiptCache.delete e.1 }).markExpiredReceiptHash
        receiptTtlSec e.1 nowSec
    else b

/-- `gcPending`. -/
def gcPending (b : Book) (receiptTtlSec nowSec : Int) : Book :=
  let b := b.pendingByPatchHash.values.foldl (fun b p =>
    if p.state = .pending ∧ p.expiresAt ≤ nowSec then b.expirePending receiptTtlSec nowSec p
    else b) b
  let b := b.receiptCache.foldl (sweepReceipt receiptTtlSec nowSec) b
  { b with
    submitDedup := b.submitDedup.filter fun e => !(e.2 ≤ nowSec)
    expiredReceiptTombstones := b.expiredReceiptTombstones.filter fun e => !(e.2 ≤ nowSec)
    minerChainReservations := b.minerChainReservations.filter fun e => !(e.2.expiresAt ≤ nowSec) }

/-- `cacheReceipt`. -/
def cacheReceipt (b : Book) (envelope : ReceiptEnvelope) (originalPatchHash : String) : Book :=
  let signed := envelope.patchHash.toLower
  let b := { b with receiptCache := b.receiptCache.set signed envelope }
  if originalPatchHash.toLower ≠ signed then
    { b with receiptCache := b.receiptCache.set originalPatchHash.toLower envelope }
  else b

/-- The pending bookkeeping of one applied event: the record signed for it is confirmed and
moves the baseline, the others on its parent are stale. -/
def settleAdvance (b : Book) (ev : CoreTexStateAdvancedEvent) (newRoot : String) : Book :=
  b.pendingByPatchHash.values.foldl (fun b p =>
    if p.state = .pending ∧ p.parentRoot.toLower = ev.parent.toLower ∧
        p.signedPatchHash.toLower = ev.patchHash.toLower then
      match p.scoreAfterPpm with
      | some score => { b with baselineByRoot := b.baselineByRoot.set newRoot score }
      | none => b
    else b)
  (b.mapPending fun p =>
    if p.state ≠ .pending then p
    else if p.parentRoot.toLower = ev.parent.toLower ∧
        p.signedPatchHash.toLower = ev.patchHash.toLower then { p with state := .confirmed }
    else if p.parentRoot.toLower = ev.parent.toLower then p.markStale
    else p)

end Book

end CoreTex.Coordinator
