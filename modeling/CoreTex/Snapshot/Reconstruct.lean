import CoreTex.Scan.CoordinatorSigner
import CoreTex.Snapshot.Evidence

/-!
# CoreTex.Snapshot.Reconstruct

The reconstruction of the public frontier (`_reconstruct_frontier` in `snapshot.py`): the advances
of a scan are replayed in feed order on the manifest held so far, then every screener pass on the
manifest of its place.

`replay_descriptor_v3` and `replay_screener` are given predicates. The calls a run makes of them are
part of its result, so that what was replayed on what can be said of it. `FollowsChain` says it of
the advances: each one takes the manifest of the one before to its own.
-/

namespace CoreTex.Snapshot

open CoreTex.Lib CoreTex.Join CoreTex.Scan CoreTex.Publication

/-! ### Calls of the replays -/

/-- What `replay_descriptor_v3` is called with. -/
structure DescriptorCall where
  joined : JoinedTransition
  parentManifest : Json
  epochParentRoot : PyStr
  transitionArtifactBytes : Bytes
  evaluationArtifact : Json
  evaluationReport : Json
  epochContext : Json
  counterResourceLaw : Json
  store : InMemoryCAS

/-- What `replay_screener` is called with. -/
structure ScreenerCall where
  screener : ScreenerPass
  parentManifest : Json
  epochParentRoot : PyStr
  evaluationArtifact : Json
  evaluationReport : Json
  epochContext : Json
  counterResourceLaw : Json
  store : InMemoryCAS

/-- The object source and the two replays. -/
structure Host extends ObjectSource where
  replayDescriptorV3 : DescriptorCall → Bool
  replayScreener : ScreenerCall → Bool

/-! ### The scan -/

/-- `PublicScan`, as far as a reconstruction reads it. -/
structure PublicScan where
  decoded : Join.DecodedLogs
  contexts : List EpochContextSet
  signerUpdates : List CoordinatorSignerUpdated

/-- What a reconstruction asks of the node. -/
structure Views where
  calldataFor : PyStr → Join.Lookup
  domainSeparator : Digest
  initialCoordinatorSigner : PyStr

/-- `context_for`. -/
def PublicScan.contextFor (scan : PublicScan) (epoch : Nat) : Option EpochContextSet :=
  (scan.contexts.filter fun context => context.epoch = epoch).getLast?

/-- `_context_event_for_advance`, and the same check for a screener. -/
def PublicScan.contextEvent (scan : PublicScan) (epoch : Nat) (epochContextRoot : PyStr) :
    Except SnapshotBuildError EpochContextSet :=
  match scan.contextFor epoch with
  | none => .error .context
  | some event =>
    if event.epochContextRoot ≠ epochContextRoot then .error .context else .ok event

variable (keccak256 : Bytes → Digest)

/-- `_transition_rows`. -/
def transitionRows (scan : PublicScan) (views : Views) : Except SnapshotBuildError JoinResult := do
  let signer := signerAtCredit views.initialCoordinatorSigner scan.signerUpdates
  let result ← (joinAll keccak256 ⟨views.calldataFor, views.domainSeparator, signer, true⟩
    scan.decoded).mapError fun _ => .rows
  refuseIf (result.unresolved ≠ []) .rows
  refuseIf (¬ (result.transitions.map fun joined => joined.advance.joinKey).Nodup ∨
    result.transitions.length ≠ scan.decoded.advances.length) .rows
  return result

/-- `joined_by_key[...]`: every key has one joined transition. -/
def joinedByKey (rows : JoinResult) (key : Nat × PyStr × PyStr) : Option JoinedTransition :=
  rows.transitions.find? fun joined => joined.advance.joinKey = key

/-! ### The state of a run -/

/-- An entry of `epoch_contexts`. -/
structure CachedContext where
  context : Json
  pins : Json
  parentStateRoot : PyStr

/-- An entry of `frontier_timeline`, and the call that was made for it. -/
structure TimelineEntry where
  position : Nat × Nat
  manifest : Json
  replayed : DescriptorCall

/-- The variables of the loop over the advances. -/
structure FrontierRun where
  current : Json
  store : InMemoryCAS
  epochContexts : JsMap Nat CachedContext
  frontierTimeline : List TimelineEntry
  artifacts : JsMap (Nat × PyStr × PyStr) Json

/-- The variables of the loop over the screener passes, and the calls it made. -/
structure ScreenerRun where
  store : InMemoryCAS
  epochContexts : JsMap Nat CachedContext
  replayed : List ScreenerCall

variable (host : Host) (release : Release)

/-- The context of an epoch: the cached one, or the one at the root, verified. -/
def resolveContext (epoch : Nat) (epochContextRoot : PyStr) (event : EpochContextSet)
    (epochContexts : JsMap Nat CachedContext) :
    Except SnapshotBuildError (CachedContext × JsMap Nat CachedContext) :=
  match epochContexts.get epoch with
  | some cached =>
    -- A cached context is not verified again; only its parent root is compared.
    if cached.parentStateRoot ≠ event.parentStateRoot then .error .context
    else .ok (cached, epochContexts)
  | none => do
    let raw ← expect .context (host.fetch epochContextRoot .frontierJson)
    let context ← loadJsonBytes raw
    let pins ← verifyEpochContext release context epoch epochContextRoot event.parentStateRoot
    let cached : CachedContext := ⟨context, pins, event.parentStateRoot⟩
    return (cached, epochContexts.set epoch cached)

/-! ### The advances -/

/-- The transition artifact of an advance: its bytes and the document they are. -/
def transitionArtifact (joined : JoinedTransition) (advance : StateAdvanced) :
    Except SnapshotBuildError (PyStr × Bytes × Json) := do
  let descriptor ← (decodeTransitionDescriptor (fun b => (keccak256 b).bytes)
    advance.compactPatchBytes (some advance.parentStateRoot) (some advance.newStateRoot)
    (some advance.patchHash) (some advance.transitionFormatVersion)).mapError fun _ => .descriptor
  let raw ← expect .artifact (host.fetch descriptor.patchArtifactHash .frontierJson)
  let scoreAfter ← (intMember joined.receipt "scoreAfterPpm").mapError fun _ => .artifact
  let scoreBefore ← (intMember joined.receipt "scoreBeforePpm").mapError fun _ => .artifact
  let scoreDelta : Int := scoreAfter - scoreBefore
  let artifact ← (verifyTransitionArtifactBytes raw descriptor (some scoreDelta)
    (some (.str advance.epochContextRoot))).mapError fun _ => .artifact
  return (descriptor.patchArtifactHash, raw, artifact)

/-- The body of the loop over the advances. -/
def advanceStep (scan : PublicScan) (rows : JoinResult) (run : FrontierRun)
    (advance : StateAdvanced) : Except SnapshotBuildError FrontierRun := do
  let joined ← expect .rows (joinedByKey rows advance.joinKey)
  let (address, raw, artifact) ← transitionArtifact keccak256 host joined advance
  let store ← putObject run.store address raw
  let evidence ← collectEvidence host.toObjectSource advance.evalReportHash (fun _ => true) store
  let event ← scan.contextEvent advance.epoch advance.epochContextRoot
  let (context, epochContexts) ← resolveContext host release advance.epoch
    advance.epochContextRoot event run.epochContexts
  let root ← (frontierRoot run.current).mapError fun _ => .frontier
  -- The manifest held so far is what the advance must start at.
  refuseIf (root.hex ≠ advance.parentStateRoot) .frontier
  let evaluationReport ← fetchJson host.toObjectSource evidence "eval_report"
  let counterResourceLaw ← fetchJson host.toObjectSource evidence "counter_resource_law"
  let call : DescriptorCall := {
    joined := joined
    parentManifest := run.current
    epochParentRoot := event.parentStateRoot
    transitionArtifactBytes := raw
    evaluationArtifact := evidence.artifact
    evaluationReport := evaluationReport
    epochContext := context.context
    counterResourceLaw := counterResourceLaw
    store := evidence.store }
  refuseIf (host.replayDescriptorV3 call = false) .replay
  let child ← (replayTransitionArtifact run.current artifact none context.pins).mapError
    fun _ => .replay
  return {
    current := child.json
    store := evidence.store
    epochContexts := epochContexts
    frontierTimeline := run.frontierTimeline ++
      [⟨position joined.credit.provenance, child.json, call⟩]
    artifacts := run.artifacts.set advance.joinKey artifact }

/-! ### The screener passes -/

/-- The scan of the timeline for a screener's parent. -/
def parentAt (cut : Nat × Nat) : List TimelineEntry → Json → Json
  | [], parent => parent
  | entry :: timeline, parent =>
    -- The scan breaks at the first entry that is not before the cut.
    if ¬ Earlier entry.position cut then parent else parentAt cut timeline entry.manifest

/-- A screener's artifact is the release that was scored. -/
def scoresRelease (artifactHash : PyStr) (artifact : Json) : Bool :=
  equalsText ((artifact.get "candidate").get "release_root") (bareLower artifactHash)

/-- The body of the loop over the screener passes. -/
def screenerStep (scan : PublicScan) (genesis : Json) (timeline : List TimelineEntry)
    (run : ScreenerRun) (screener : ScreenerPass) : Except SnapshotBuildError ScreenerRun := do
  let parent := parentAt (position screener.credit.provenance) timeline genesis
  let evalReportHash ← (strMember screener.receipt "evalReportHash").mapError fun _ => .evaluation
  let artifactHash ← (strMember screener.receipt "artifactHash").mapError fun _ => .evaluation
  let evidence ← collectEvidence host.toObjectSource (bareLower evalReportHash)
    (scoresRelease artifactHash) run.store
  let evaluationReport ← fetchJson host.toObjectSource evidence "eval_report"
  let counterResourceLaw ← fetchJson host.toObjectSource evidence "counter_resource_law"
  let epochContextRoot ← (strMember screener.receipt "epochContextRoot").mapError fun _ => .context
  let event ← scan.contextEvent screener.credit.epoch epochContextRoot
  let (context, epochContexts) ← resolveContext host release screener.credit.epoch
    epochContextRoot event run.epochContexts
  let call : ScreenerCall := {
    screener := screener
    parentManifest := parent
    epochParentRoot := event.parentStateRoot
    evaluationArtifact := evidence.artifact
    evaluationReport := evaluationReport
    epochContext := context.context
    counterResourceLaw := counterResourceLaw
    store := evidence.store }
  refuseIf (host.replayScreener call = false) .replay
  return ⟨evidence.store, epochContexts, run.replayed ++ [call]⟩

/-- A screener's credit is at no later position than another's. -/
def ScreenerLe (a b : ScreenerPass) : Prop :=
  ¬ Earlier (position b.credit.provenance) (position a.credit.provenance)

instance : DecidableRel ScreenerLe := fun a b =>
  inferInstanceAs (Decidable (¬ Earlier (position b.credit.provenance)
    (position a.credit.provenance)))

/-! ### The whole reconstruction -/

/-- What a reconstruction returns, and what it held and called on the way. -/
structure Reconstruction where
  current : Json
  artifacts : JsMap (Nat × PyStr × PyStr) Json
  genesis : Json
  rows : JoinResult
  frontierTimeline : List TimelineEntry
  screenersReplayed : List ScreenerCall

/-- `_reconstruct_frontier`. -/
def reconstructFrontier (scan : PublicScan) (views : Views) (store : InMemoryCAS) :
    Except SnapshotBuildError Reconstruction := do
  let (genesis, store) ← seedGenesisObjects release store
  let rows ← transitionRows keccak256 scan views
  -- The advances come in feed order, the screener passes sorted by their credits.
  let run ← scan.decoded.advances.foldlM (advanceStep keccak256 host release scan rows)
    ⟨genesis, store, [], [], []⟩
  let screeners ← (rows.screenerPasses.insertionSort ScreenerLe).foldlM
    (screenerStep host release scan genesis run.frontierTimeline)
    ⟨run.store, run.epochContexts, []⟩
  return {
    current := run.current
    artifacts := run.artifacts
    genesis := genesis
    rows := rows
    frontierTimeline := run.frontierTimeline
    screenersReplayed := screeners.replayed }

end CoreTex.Snapshot
