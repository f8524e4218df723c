import CoreTex.Coordinator.Watcher

/-!
# CoreTex.Coordinator.Boot

The boot of the coordinator core: static checks, wiring gates against the chain, the parent
state, and the startup replay through the parity gate.
-/

namespace CoreTex.Coordinator

open CoreTex.Lib

/-! ### Static configuration -/

def isHexDigits (n : Nat) (cs : List Char) : Bool :=
  cs.length = n && cs.all fun c => c.isDigit || ('a' ≤ c && c ≤ 'f') || ('A' ≤ c && c ≤ 'F')

/-- `/^0x[0-9a-fA-F]{n}$/`. -/
def isHexOf (n : Nat) (value : String) : Bool :=
  match value.toList with
  | '0' :: 'x' :: rest => isHexDigits n rest
  | _ => false

def isAddress (value : String) : Bool :=
  isHexOf 40 value

def isBytes32 (value : String) : Bool :=
  isHexOf 64 value

def maxSafeInteger : Int := 2 ^ 53 - 1

def CoreTexCoordinatorConfig.miningContract (config : CoreTexCoordinatorConfig) : String :=
  (config.miningContractAddress.orElse fun _ => config.v4Address).getD ""

/-- `launchBaselinePpm`. -/
def launchBaselinePpm (config : CoreTexCoordinatorConfig) : Except String Int :=
  match config.baselineParentScorePpm.orElse fun _ => config.baselineScorePpm with
  | some baseline =>
    if 0 ≤ baseline ∧ baseline ≤ maxSafeInteger then .ok baseline
    else .error ("coord: launch baselineParentScorePpm (production-scorer baseline for the " ++
      "pinned epoch-start parent root) must be configured")
  | none => .error ("coord: launch baselineParentScorePpm (production-scorer baseline for the " ++
      "pinned epoch-start parent root) must be configured")

/-- `validateStaticConfig`. -/
def validateStaticConfig (config : CoreTexCoordinatorConfig) : Except String Unit := do
  refuseIf (isAddress config.miningContract = false)
    "coord: miningContractAddress must be a configured address"
  refuseIf (isAddress config.registryAddress = false)
    "coord: registryAddress must be a configured address"
  refuseIf (config.confirmationDepth < 0)
    "coord: confirmationDepth must be a non-negative integer"
  refuseIf (config.receiptTtlSec ≤ 0) "coord: receiptTtlSec must be a positive integer"
  refuseIf (config.rulesVersion.getD 0 ≤ 0) "coord: rulesVersion must be configured"
  refuseIf (isBytes32 (config.workPolicyHash.getD "") = false)
    "coord: workPolicyHash bytes32 must be configured"
  refuseIf (config.perMinerScreenerCap.any (· < 1))
    "coord: perMinerScreenerCap must be positive when configured"
  refuseIf (config.maxPatchBytes.any (· < 42))
    "coord: maxPatchBytes must be at least the minimum patch size"
  refuseIf (config.targetBlockOffset.any (· ≤ 0))
    "coord: targetBlockOffset must be a positive integer"
  let _ ← launchBaselinePpm config
  refuseIf (config.screenerThresholdPpm.any (· < 0))
    "coord: screenerThresholdPpm floor must be non-negative when configured"
  refuseIf (config.baselineVariancePpm.any (· < 0))
    "coord: baselineVariancePpm must be non-negative when configured"
  refuseIf (config.fixedPackRepeatabilityPpm.any (· < 0))
    "coord: fixedPackRepeatabilityPpm must be non-negative when configured"

/-! ### Boot -/

/-- How a boot fails: an error it throws, a failed read of the chain or of the parent loader,
or a fault of the startup replay. -/
inductive BootError
  | error (message : String)
  | readFailed
  | watcher (fault : WatcherFault)
  deriving DecidableEq, Repr

/-- The answers to one boot. -/
structure BootReads where
  chainId : Option Int
  v4CurrentEpoch : Option Int
  v4EpochCommit : Option String
  v4CoordinatorSigner : Option String
  v4CoreTexRegistry : Option String
  registryEpochPins : Option RegistryEpochPins
  parentLoader : String → Option CortexState
  blockNumber : Option Int
  stateAdvancedEvents : Int → Int → Option (List CoreTexStateAdvancedEvent)
  registryEpoch : Option RegistryEpoch

def readOr {α : Type} (answer : Option α) : Except BootError α :=
  match answer with
  | some a => .ok a
  | none => .error .readFailed

/-- The pins in the order boot compares them. -/
def RegistryEpochPins.fields (pins : RegistryEpochPins) : List (String × String) :=
  [("parentStateRoot", pins.parentStateRoot), ("coreVersionHash", pins.coreVersionHash),
    ("corpusRoot", pins.corpusRoot), ("activeFrontierRoot", pins.activeFrontierRoot),
    ("baselineManifestHash", pins.baselineManifestHash),
    ("hiddenSeedCommit", pins.hiddenSeedCommit)]

def checkPin (pin : (String × String) × (String × String)) : Except BootError Unit :=
  let name := pin.1.1
  let actual := pin.1.2
  let expected := pin.2.2
  refuseIf (actual.toLower ≠ expected.toLower)
    (.error s!"coord: registry.{name} {actual} ≠ configured {expected}")

/-- The wiring gates of boot: what the chain answers is what is configured. -/
def checkWiring (config : CoreTexCoordinatorConfig) (r : BootReads) : Except BootError Unit := do
  (validateStaticConfig config).mapError .error
  let onChainChain ← readOr r.chainId
  let expectedChainId := config.expectedChainId
  refuseIf (onChainChain ≠ expectedChainId)
    (.error s!"coord: chainId {onChainChain} ≠ expected {expectedChainId}")
  let v4Epoch ← readOr r.v4CurrentEpoch
  let epoch := config.epoch
  refuseIf (v4Epoch ≠ epoch) (.error s!"coord: V4.currentEpoch {v4Epoch} ≠ configured {epoch}")
  let epochCommit ← readOr r.v4EpochCommit
  refuseIf (epochCommit = "0x" ++ String.ofList (List.replicate 64 '0'))
    (.error s!"coord: V4.epochCommit({epoch}) is zero — set it before booting")
  let onChainSigner ← readOr r.v4CoordinatorSigner
  let expectedSigner := config.expectedCoordinatorSigner
  refuseIf (onChainSigner.toLower ≠ expectedSigner.toLower)
    (.error s!"coord: V4.coordinatorSigner {onChainSigner} ≠ configured {expectedSigner}")
  let onChainRegistry ← readOr r.v4CoreTexRegistry
  let registryAddress := config.registryAddress
  refuseIf (onChainRegistry.toLower ≠ registryAddress.toLower)
    (.error s!"coord: V4.coreTexRegistry {onChainRegistry} ≠ configured {registryAddress}")

/-- The registry's pins, once each is the configured one. -/
def checkPins (config : CoreTexCoordinatorConfig) (r : BootReads) :
    Except BootError RegistryEpochPins := do
  let onChainPins ← readOr r.registryEpochPins
  (onChainPins.fields.zip config.expectedEpochPins.fields).forM checkPin
  return onChainPins

section Boot

variable (keccak256 : Bytes → Digest) (S : CompareSort) (config : CoreTexCoordinatorConfig)

/-- The core at the parent state, before the startup replay. -/
def parentCore (parent : CortexState) (parentRoot : String) (baseline replayFromBlock : Int) :
    Core where
  watcher :=
    { liveState := parent
      liveRoot := parentRoot
      parentState := parent
      parentRoot := parentRoot
      lastTransitionIndex := -1
      stateByRoot := [(parentRoot, parent)]
      snapshots := []
      lastScannedBlock := 0
      replayFromBlock := replayFromBlock }
  book :=
    { pendingByPatchHash := []
      receiptCache := []
      expiredReceiptTombstones := []
      submitDedup := []
      minerChainReservations := []
      baselineByRoot := [(parentRoot, baseline)] }
  signingEnabled := false
  unhealthyReason := some "startup-replay-pending"
  frozen := false
  freezeGeneration := 0
  currentBaselineVariancePpm :=
    if config.baselineVarianceSource = some .rotatingPack ∨
        config.baselineVarianceSource = some .broadSampling then config.baselineVariancePpm
    else none

/-- The startup replay: through the safe head, and then the parity gate. -/
def startupReplay (c : Core) (r : BootReads) : Except BootError Core := do
  let replayHead ← readOr r.blockNumber
  let safeHead := max c.watcher.replayFromBlock (replayHead - config.confirmationDepth)
  let events ← readOr (r.stateAdvancedEvents c.watcher.replayFromBlock safeHead)
  match applyChainEvents keccak256 config c (S.sort cmpEvents events) with
  | (_, some fault) => .error (.watcher fault)
  | (c, none) =>
    let c := { c with watcher := { c.watcher with lastScannedBlock := safeHead } }
    let reg ← readOr r.registryEpoch
    match parityFault c.watcher reg with
    | none => return { c with signingEnabled := true, unhealthyReason := none }
    | some reason =>
      let c := { c with signingEnabled := false, unhealthyReason := some reason }
      refuseIf (c.isAwaitingFinality = false)
        (.error s!"coord: HARD-FAIL post-replay parity ({reason})")
      return c

/-- `boot`. -/
def boot (r : BootReads) : Except BootError Core := do
  checkWiring config r
  let pins ← checkPins config r
  let parent ← readOr (r.parentLoader pins.parentStateRoot)
  let recomputed := rootHex keccak256 parent
  let pinned := pins.parentStateRoot
  refuseIf (recomputed.toLower ≠ pinned.toLower)
    (.error s!"coord: parent substrate merkles to {recomputed} ≠ registry pin {pinned}")
  let baseline ← (launchBaselinePpm config).mapError .error
  startupReplay keccak256 S config (parentCore config parent pinned.toLower baseline
    (max 0 (config.replayFromBlock.getD 0))) r

end Boot

end CoreTex.Coordinator
