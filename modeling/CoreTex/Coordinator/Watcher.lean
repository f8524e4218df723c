import CoreTex.Coordinator.Core
import CoreTex.Lib.ReplayLog

/-!
# CoreTex.Coordinator.Watcher

The watcher: boot, tick, event verification, reorg rollback and the parity gate.

The answers of the chain client are data (`TickReads`, `BootReads`); `none` is a read that
failed. Events are applied one by one, so a tick that stops half-way keeps what it applied:
`applyChainEvents` returns the core it reached beside the fault.
-/

namespace CoreTex.Coordinator

open CoreTex.Lib

/-! ### Event verification -/

/-- What the verification of an event throws. -/
inductive WatcherFault
  | error (message : String)
  | thrown (e : JsError)
  deriving DecidableEq, Repr

section Events

variable (keccak256 : Bytes → Digest) (config : CoreTexCoordinatorConfig)

/-- The checks of `applyChainEvent`, up to the state after the event. -/
def verifyEvent (liveState : CortexState) (liveRoot : String) (lastTransitionIndex : Int)
    (ev : CoreTexStateAdvancedEvent) : Except WatcherFault CortexState := do
  let epoch := ev.epoch
  let configured := config.epoch
  refuseIf (epoch ≠ configured)
    (.error s!"watcher: event epoch {epoch} ≠ configured {configured}")
  let got := ev.transitionIndex
  let want := lastTransitionIndex + 1
  refuseIf (got ≠ want) (.error s!"watcher: non-contiguous transitionIndex got={got} want={want}")
  let parent := ev.parent
  refuseIf (parent.toLower ≠ liveRoot.toLower)
    (.error s!"watcher: event parent {parent} ≠ coord liveRoot {liveRoot}")
  let coreV := ev.coreV
  let coreVersionHash := config.expectedEpochPins.coreVersionHash
  refuseIf (coreV.toLower ≠ coreVersionHash.toLower)
    (.error s!"watcher: event coreVersionHash {coreV} ≠ configured {coreVersionHash}")
  let corpus := ev.corpus
  let corpusRoot := config.expectedEpochPins.corpusRoot
  refuseIf (corpus.toLower ≠ corpusRoot.toLower)
    (.error s!"watcher: event corpusRoot {corpus} ≠ configured {corpusRoot}")
  let frontier := ev.frontier
  let activeFrontierRoot := config.expectedEpochPins.activeFrontierRoot
  refuseIf (frontier.toLower ≠ activeFrontierRoot.toLower)
    (.error s!"watcher: event activeFrontierRoot {frontier} ≠ configured {activeFrontierRoot}")
  let recomputedPatchHash := computePatchHash keccak256 (hexToBytes ev.compactPatchBytes)
  let patchHash := ev.patchHash
  refuseIf (recomputedPatchHash.toLower ≠ patchHash.toLower)
    (.error s!"watcher: patchHash mismatch event={patchHash} computed={recomputedPatchHash}")
  let decoded ← (decodePatch (hexToBytes ev.compactPatchBytes)).mapError .thrown
  let next ← (applyPatch keccak256 liveState decoded true).mapError fun e =>
    let code := e.code.text
    .error s!"watcher: applyPatch failed {code}"
  let wordCount := ev.wordCount
  let decodedCount := decoded.wordCount
  refuseIf (wordCount ≠ decodedCount) (.error
    s!"watcher: event wordCount {wordCount} ≠ decoded patch wordCount {decodedCount}")
  let newRoot := (rootHex keccak256 next).toLower
  let named := ev.newRoot
  refuseIf (newRoot ≠ named.toLower)
    (.error s!"watcher: newStateRoot mismatch replay={newRoot} event={named}")
  return next

/-- The snapshot of an applied event. -/
def snapshotOf (ev : CoreTexStateAdvancedEvent) (next : CortexState) : Snapshot where
  transitionIndex := ev.transitionIndex
  blockNumber := ev.blockNumber
  blockHash := ev.blockHash
  parent := ev.parent.toLower
  root := (rootHex keccak256 next).toLower
  patchHash := ev.patchHash.toLower
  state := next

/-- Push a snapshot, and drop the oldest beyond the window. -/
def pushSnapshot (snapshots : List Snapshot) (snap : Snapshot) : List Snapshot :=
  let pushed := snapshots ++ [snap]
  if pushed.length > maxSnapshots then pushed.tail else pushed

/-- The commit of a verified event. -/
def Watcher.commit (w : Watcher) (ev : CoreTexStateAdvancedEvent) (next : CortexState) : Watcher :=
  let newRoot := (rootHex keccak256 next).toLower
  { w with
    liveState := next
    liveRoot := newRoot
    lastTransitionIndex := ev.transitionIndex
    stateByRoot := w.stateByRoot.set newRoot next
    snapshots := pushSnapshot w.snapshots (snapshotOf keccak256 ev next) }

/-- `applyChainEvent`. -/
def applyChainEvent (c : Core) (ev : CoreTexStateAdvancedEvent) : Except WatcherFault Core := do
  let next ← verifyEvent keccak256 config c.watcher.liveState c.watcher.liveRoot
    c.watcher.lastTransitionIndex ev
  return { c with
    watcher := c.watcher.commit keccak256 ev next
    book := c.book.settleAdvance ev (rootHex keccak256 next).toLower }

/-- The loop over a batch: the core it reaches, and the fault it stops at. -/
def applyChainEvents (c : Core) : List CoreTexStateAdvancedEvent → Core × Option WatcherFault
  | [] => (c, none)
  | ev :: events =>
    match applyChainEvent keccak256 config c ev with
    | .ok c => applyChainEvents c events
    | .error fault => (c, some fault)

end Events

/-- By block, then by log index. -/
def cmpEvents (a b : CoreTexStateAdvancedEvent) : Int :=
  if a.blockNumber - b.blockNumber ≠ 0 then a.blockNumber - b.blockNumber
  else a.logIndex - b.logIndex

/-! ### Reorg rollback -/

/-- `canonical && canonical.toLowerCase() === hash`; an empty answer is no answer. -/
def sameHash (canonical : Option String) (hash : String) : Bool :=
  match canonical with
  | some h => h ≠ "" && h.toLower = hash.toLower
  | none => false

/-- The deepest snapshot that is still canonical, from index `i - 1` down; `none` where a read
fails. -/
def findCanonical (hashAt : Nat → Option (Option String)) (snapshots : List Snapshot) :
    Nat → Option (Option Nat)
  | 0 => some none
  | i + 1 => do
    let canonical ← hashAt i
    if sameHash canonical ((snapshots[i]?.map (·.blockHash)).getD "") then some (some i)
    else findCanonical hashAt snapshots i

/-- Drop the cached states that are neither a snapshot's nor the parent's. -/
def Watcher.pruneStates (w : Watcher) : Watcher :=
  { w with stateByRoot := w.stateByRoot.filter fun e =>
      e.1 ∈ w.snapshots.map (fun s => s.root.toLower) ∨ e.1 = w.parentRoot.toLower }

/-- The core rolled back to a snapshot, or to the parent where none is canonical. -/
def Watcher.rollback (w : Watcher) (keepIndex : Option Nat) : Watcher :=
  match keepIndex.bind fun i => (w.snapshots[i]?).map fun snap => (i, snap) with
  | some (i, snap) =>
    { w with
      snapshots := w.snapshots.take (i + 1)
      liveState := snap.state
      liveRoot := snap.root.toLower
      lastTransitionIndex := snap.transitionIndex
      lastScannedBlock := snap.blockNumber }
  | none =>
    { w with
      snapshots := []
      liveState := w.parentState
      liveRoot := w.parentRoot.toLower
      lastTransitionIndex := -1
      lastScannedBlock := max 0 (w.replayFromBlock - 1) }

/-- What one snapshot says of a pending record. -/
def PendingReceipt.reconcile (p : PendingReceipt) (snap : Snapshot) : PendingReceipt :=
  if p.state ≠ .pending then p
  else if p.parentRoot.toLower ≠ snap.parent.toLower then p
  else if p.signedPatchHash.toLower = snap.patchHash.toLower then { p with state := .confirmed }
  else { p with state := .stale }

/-- `reconcilePendingFromCanonicalSnapshots`. -/
def Book.reconcilePendingFromCanonicalSnapshots (b : Book) (snapshots : List Snapshot) : Book :=
  b.mapPending fun p =>
    snapshots.foldl PendingReceipt.reconcile
      (if p.state ≠ .expired then { p with state := .pending } else p)

/-- `auditReceiptCacheAgainstCanonicalRoots`. -/
def Book.auditReceiptCache (b : Book) (stateByRoot : JsMap String CortexState) : Book :=
  b.mapPending fun p =>
    if p.state = .pending ∧ stateByRoot.has p.parentRoot.toLower = false then p.markStale else p

/-- `handleReorg`, once the snapshot to keep is known. -/
def Core.rollback (c : Core) (keepIndex : Option Nat) : Core :=
  let w := (c.watcher.rollback keepIndex).pruneStates
  { c with
    watcher := w
    book := (c.book.reconcilePendingFromCanonicalSnapshots w.snapshots).auditReceiptCache
      w.stateByRoot
    signingEnabled := false
    unhealthyReason := some "reorg-reconciling" }

/-- `handleReorg`. Nothing moves before the last of its reads has answered. -/
def handleReorg (c : Core) (hashAt : Nat → Option (Option String)) : Option Core := do
  let keepIndex ← findCanonical hashAt c.watcher.snapshots c.watcher.snapshots.length
  return c.rollback keepIndex

/-! ### Parity gate -/

/-- Why the gate stays closed on what the registry answers. -/
def parityFault (w : Watcher) (reg : RegistryEpoch) : Option String :=
  let coordCount := w.lastTransitionIndex + 1
  let chainCount := reg.transitionCount
  let chainRoot := reg.liveStateRoot
  let liveRoot := w.liveRoot
  if coordCount > chainCount then
    some s!"parity-mismatch: coord transitionCount={coordCount} > chain={chainCount}"
  else if coordCount < chainCount then
    some s!"CoordAwaitingFinality: coord transitionCount={coordCount} < chain={chainCount}"
  else if chainRoot.toLower ≠ liveRoot.toLower then
    some s!"parity-mismatch: chain={chainRoot} coord={liveRoot}"
  else none

/-- What a tick does behind the parity gate, or before it when it is closed. -/
def Core.parityGate (c : Core) (reg : RegistryEpoch) : Core :=
  match parityFault c.watcher reg with
  | some reason => { c with signingEnabled := false, unhealthyReason := some reason }
  | none =>
    { c with
      book := c.book.auditReceiptCache c.watcher.stateByRoot
      signingEnabled := true
      unhealthyReason := none }

/-! ### Tick -/

/-- The answers of the chain client to one tick. `snapshotHash` answers the reorg handler, by
snapshot. -/
structure TickReads where
  v4CurrentEpoch : Option Int
  blockNumber : Option Int
  deepestHash : Option (Option String)
  snapshotHash : Nat → Option (Option String)
  stateAdvancedEvents : Int → Int → Option (List CoreTexStateAdvancedEvent)
  registryEpoch : Option RegistryEpoch
  now : Int

/-- The catch of a tick. -/
def Core.watcherFault (c : Core) : Core :=
  { c with
    signingEnabled := false
    unhealthyReason := some "watcher-fault: chain read failed (see coordinator logs)" }

/-- `checkEpochStillCurrent`, where the epoch differs. -/
def Core.epochMismatch (c : Core) (configured v4Epoch : Int) : Core :=
  { c with
    signingEnabled := false
    unhealthyReason := some (s!"CoordEpochMismatch: V4.currentEpoch={v4Epoch} " ++
      s!"configured={configured}; restart with fresh epoch pins") }

def Core.gcPending (c : Core) (config : CoreTexCoordinatorConfig) (nowSec : Int) : Core :=
  { c with book := c.book.gcPending config.receiptTtlSec nowSec }

/-- Reorg detection; `none` where a read fails, and then nothing has moved. -/
def detectReorg (c : Core) (r : TickReads) : Option Core :=
  match c.watcher.snapshots.getLast? with
  | none => some c
  | some deepest =>
    match r.deepestHash with
    | none => none
    | some canonical =>
      if canonical.all (· = "") || sameHash canonical deepest.blockHash then some c
      else handleReorg c r.snapshotHash

section Tick

variable (keccak256 : Bytes → Digest) (S : CompareSort) (config : CoreTexCoordinatorConfig)

/-- The scan up to the safe head. The cursor moves behind the whole batch only. -/
def scan (c : Core) (r : TickReads) (safeHead : Int) : Except Core Core :=
  if safeHead > c.watcher.lastScannedBlock then
    match r.stateAdvancedEvents (c.watcher.lastScannedBlock + 1) safeHead with
    | none => .error c
    | some events =>
      match applyChainEvents keccak256 config c (S.sort cmpEvents events) with
      | (c, some _) => .error c
      | (c, none) => .ok { c with watcher := { c.watcher with lastScannedBlock := safeHead } }
  else .ok c

/-- The part of a tick behind the scan. -/
def finishTick (c : Core) (r : TickReads) : Core :=
  match r.registryEpoch with
  | none => c.watcherFault
  | some reg => (c.parityGate reg).gcPending config r.now

/-- `tickInner`. -/
def tickInner (c : Core) (r : TickReads) : Core :=
  if c.frozen then c
  else
    match r.v4CurrentEpoch with
    | none => c.watcherFault
    | some v4Epoch =>
      if v4Epoch ≠ config.epoch then
        (c.epochMismatch config.epoch v4Epoch).gcPending config r.now
      else
        match r.blockNumber with
        | none => c.watcherFault
        | some head =>
          match detectReorg c r with
          | none => c.watcherFault
          | some c =>
            match scan keccak256 S config c r (head - config.confirmationDepth) with
            | .error c => c.watcherFault
            | .ok c => finishTick config c r

end Tick

end CoreTex.Coordinator
