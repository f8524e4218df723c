import CoreTex.EvalReport.Seeds
import CoreTex.Lib.JsMap

/-!
# CoreTex.Evaluator.ScorePatch

`scorePatch` of the production evaluator (`coordinator/production-evaluator.ts`) over its durable
store, cut at every await.

A `Call` is a running `scorePatch`, and its `Phase` is what it awaits. `resume` runs a call from
one await to the next: a read of the store answers when the call goes on, a write takes effect in a
step of its own. The answers of the chain client and of the seed scorer are data (`Answers`).

The path is the local one, so no seed context comes with a call. The artifact, the proof and the
baseline score that go with an accepted result are left out: no store operation reads them.
-/

namespace CoreTex.Evaluator

open CoreTex.Lib CoreTex.EvalReport CoreTex.Coordinator

/-! ### The durable store -/

/-- The key of an evaluation, its texts in lower case. -/
structure CoreTexEvalDedupKey where
  epochId : Int
  parentStateRoot : String
  patchHash : String
  deriving DecidableEq, Repr

inductive EvalOutcome
  | reject | screenerPass | stateAdvance
  deriving DecidableEq, Repr

def EvalOutcome.text : EvalOutcome → String
  | .reject => "reject"
  | .screenerPass => "screener_pass"
  | .stateAdvance => "state_advance"

/-- What `put` stores under a key. -/
structure CoreTexEvalDedupRecord where
  outcome : EvalOutcome
  code : Option String
  deriving DecidableEq, Repr

structure CoreTexEvalSeedContext where
  receivedAtBlock : Int
  targetBlock : Int
  blockhash : String
  deriving DecidableEq, Repr

/-- The context as the store keeps it. -/
def CoreTexEvalSeedContext.normalized (ctx : CoreTexEvalSeedContext) : CoreTexEvalSeedContext :=
  { ctx with blockhash := ctx.blockhash.toLower }

inductive AttemptState
  | drawn | rejected | accepted
  deriving DecidableEq, Repr

structure CoreTexEvalAttemptRecord where
  state : AttemptState
  seedContext : CoreTexEvalSeedContext
  minerAddress : String
  admissionCharged : Bool
  outcome : Option EvalOutcome
  code : Option String
  deriving DecidableEq, Repr

/-- `createInMemoryDedupStore`: completed evaluations and attempts. -/
structure CoreTexEvalDedupStore where
  records : JsMap CoreTexEvalDedupKey CoreTexEvalDedupRecord
  attempts : JsMap CoreTexEvalDedupKey CoreTexEvalAttemptRecord

namespace CoreTexEvalDedupStore

def empty : CoreTexEvalDedupStore := ⟨[], []⟩

def get (store : CoreTexEvalDedupStore) (key : CoreTexEvalDedupKey) :
    Option CoreTexEvalDedupRecord :=
  store.records.get key

def put (store : CoreTexEvalDedupStore) (key : CoreTexEvalDedupKey)
    (record : CoreTexEvalDedupRecord) : CoreTexEvalDedupStore :=
  { store with records := store.records.set key record }

def getAttempt (store : CoreTexEvalDedupStore) (key : CoreTexEvalDedupKey) :
    Option CoreTexEvalAttemptRecord :=
  store.attempts.get key

/-- Is this attempt charged to a miner in an epoch? -/
def charges (epochId : Int) (miner : String)
    (entry : CoreTexEvalDedupKey × CoreTexEvalAttemptRecord) : Bool :=
  entry.1.epochId = epochId && entry.2.admissionCharged && entry.2.minerAddress = miner

/-- `minerAdmissions`, of an address in lower case. -/
def minerAdmissions (store : CoreTexEvalDedupStore) (epochId : Int) (miner : String) : Nat :=
  store.attempts.countP (charges epochId miner)

/-- Pin the seed and charge the admission, unless the key has an attempt. -/
def recordSeedDrawnAndAdmission (store : CoreTexEvalDedupStore) (key : CoreTexEvalDedupKey)
    (seedContext : CoreTexEvalSeedContext) (miner : String) : CoreTexEvalDedupStore :=
  if store.attempts.has key then store
  else
    let attempt : CoreTexEvalAttemptRecord :=
      { state := .drawn
        seedContext := seedContext.normalized
        minerAddress := miner
        admissionCharged := true
        outcome := none
        code := none }
    { store with attempts := store.attempts.set key attempt }

/-- The terminal state of an attempt; `none` where it throws. -/
def recordAttemptOutcome (store : CoreTexEvalDedupStore) (key : CoreTexEvalDedupKey)
    (state : AttemptState) (outcome : EvalOutcome) (code : Option String) :
    Option CoreTexEvalDedupStore :=
  match store.attempts.get key with
  | none => none
  | some prior =>
    let attempt : CoreTexEvalAttemptRecord :=
      { prior with
        state := state
        outcome := some outcome
        code := code.orElse fun _ => prior.code }
    some { store with attempts := store.attempts.set key attempt }

end CoreTexEvalDedupStore

/-! ### Admission -/

inductive LiveEvalAdmissionRejectReason
  | malformedInput | structurallyInvalid | duplicateKeyCollapsed | perMinerCapReached
  deriving DecidableEq, Repr

/-- `mapAdmissionReason`. -/
def LiveEvalAdmissionRejectReason.code : LiveEvalAdmissionRejectReason → String
  | .malformedInput => "admit-malformed-input"
  | .structurallyInvalid => "structurally-invalid"
  | .duplicateKeyCollapsed => "duplicate-key-collapsed"
  | .perMinerCapReached => "per-miner-cap-reached"

/-- `liveEvalAdmissionDecision`: why a patch is not admitted. -/
def liveEvalAdmissionDecision (minerAddress patchHash dedupKey : String)
    (dedupedKeysThisEpoch : List String) (minerAdmissionsThisEpoch : Nat) (perMinerCap : Int)
    (structurallyValid : Bool) : Option LiveEvalAdmissionRejectReason :=
  if isAddress minerAddress = false then some .malformedInput
  else if isBytes32 patchHash = false then some .malformedInput
  else if isBytes32 dedupKey = false then some .malformedInput
  else if perMinerCap < 1 then some .malformedInput
  else if structurallyValid = false then some .structurallyInvalid
  else if dedupKey.toLower ∈ dedupedKeysThisEpoch then some .duplicateKeyCollapsed
  else if (minerAdmissionsThisEpoch : Int) ≥ perMinerCap then some .perMinerCapReached
  else none

/-! ### The evaluator -/

structure ProductionCoreTexEvaluatorCoreDeps where
  epochId : Int
  epochSecret : Option String
  corpusRoot : String
  bundleHash : String
  targetBlockOffset : Int
  screenerThresholdPpm : Int
  stateThresholdPpm : Int
  perMinerCap : Int

/-- `validatePerMinerCap`; a core is only made with a cap that passes. -/
def validatePerMinerCap (perMinerCap : Int) : Except String Unit :=
  refuseIf (perMinerCap ≤ 0 ∨ perMinerCap ≥ maxSafeInteger)
    ("production CoreTex evaluator requires a finite perMinerCap from the profile/options (got " ++
      toString perMinerCap ++ ")")

structure EvalSeeds where
  gateSeed : String
  confirmSeed : String
  deriving DecidableEq, Repr

/-- What the seed scorer says of one pack. -/
structure PatchEvalResult where
  deltaPpm : Int
  accepted : Bool
  deriving DecidableEq, Repr

inductive EvalResult
  | reject (code reason : String)
  | screenerPass (deterministicDeltaPpm : Int)
  | stateAdvance (deterministicDeltaPpm : Int)
  deriving DecidableEq, Repr

namespace EvalResult

def accepted : EvalResult → Bool
  | .reject _ _ => false
  | _ => true

def outcome : EvalResult → EvalOutcome
  | .reject _ _ => .reject
  | .screenerPass _ => .screenerPass
  | .stateAdvance _ => .stateAdvance

def code : EvalResult → Option String
  | .reject code _ => some code
  | _ => none

end EvalResult

structure ScorePatchInput where
  patchBytes : Bytes
  parentStateRoot : String
  miner : String
  screenerThresholdPpm : Option Int
  injectedSeeds : Option EvalSeeds

/-- What a call awaits. A write that has taken effect and still has to return is a phase of its
own (`pinned`, `stored`). -/
inductive Phase
  | lookup
  | attempt
  | admissions
  | latestBlock
  | targetBlock (receivedAtBlock : Int)
  | pin (ctx : CoreTexEvalSeedContext)
  | pinned (ctx : CoreTexEvalSeedContext)
  | gate (ctx : CoreTexEvalSeedContext) (seeds : EvalSeeds)
  | confirm (ctx : CoreTexEvalSeedContext) (seeds : EvalSeeds) (gate : PatchEvalResult)
  | publish (result : EvalResult)
  | outcome (result : EvalResult)
  | put (result : EvalResult)
  | stored (result : EvalResult)
  deriving DecidableEq, Repr

/-- Has the call drawn its packs? -/
def Phase.drawn : Phase → Bool
  | .lookup | .attempt | .admissions | .latestBlock | .targetBlock _ | .pin _ => false
  | _ => true

structure Call where
  key : CoreTexEvalDedupKey
  miner : String
  patchBytes : Bytes
  thresholdPpm : Int
  injectedSeeds : Option EvalSeeds
  phase : Phase

/-- What the chain client and the seed scorer answer. -/
structure Answers where
  latestBlock : Int
  blockhash : String
  score : PatchEvalResult

inductive Outcome
  | wait (phase : Phase)
  | done (result : EvalResult)
  | thrown (message : String)

/-- What a call has done by its next await: the store, the seed it handed to the scorer, and
whether it asked for a block. -/
structure Resumed where
  store : CoreTexEvalDedupStore
  outcome : Outcome
  scored : Option String
  drew : Bool

section Evaluator

variable (keccak256 : Bytes → Digest) (deps : ProductionCoreTexEvaluatorCoreDeps)

/-- The seeds of a key under a seed context. -/
def deriveSeeds (key : CoreTexEvalDedupKey) (ctx : CoreTexEvalSeedContext) :
    Except String EvalSeeds :=
  -- an empty secret counts as none
  match deps.epochSecret.filter (· ≠ "") with
  | none => .error ("runPerPatchEvaluation: epochSecret is required when no injectedSeeds are " ++
      "supplied (the keyless scorer host must receive coordinator-derived seeds, never the secret)")
  | some epochSecret => do
    let input : EvalSeedInput :=
      { epochSecret := epochSecret
        blockhash := ctx.blockhash
        epochId := key.epochId
        patchHash := key.patchHash
        parentRoot := key.parentStateRoot
        corpusRoot := deps.corpusRoot
        bundleHash := deps.bundleHash }
    return ⟨← deriveGateEvalSeed keccak256 input, ← deriveConfirmEvalSeed keccak256 input⟩

/-- Seeds that come with a call: only beside a seed context, which here is a stored one. -/
def checkInjectedSeeds (seeds : EvalSeeds) (reused : Bool) : Except String EvalSeeds := do
  refuseIf (reused = false) ("runPerPatchEvaluation: injectedSeeds require a pinned seedContext " ++
    "(no scorer-side blockhash draw with injected seeds)")
  refuseIf (isBytes32 seeds.gateSeed = false)
    "runPerPatchEvaluation: injectedSeeds.gateSeed must be bytes32"
  refuseIf (isBytes32 seeds.confirmSeed = false)
    "runPerPatchEvaluation: injectedSeeds.confirmSeed must be bytes32"
  return ⟨seeds.gateSeed.toLower, seeds.confirmSeed.toLower⟩

def callSeeds (call : Call) (ctx : CoreTexEvalSeedContext) (reused : Bool) :
    Except String EvalSeeds :=
  match call.injectedSeeds with
  | some seeds => checkInjectedSeeds seeds reused
  | none => deriveSeeds keccak256 deps call.key ctx

/-- The first scorer run. -/
def scoreGate (store : CoreTexEvalDedupStore) (call : Call) (ctx : CoreTexEvalSeedContext)
    (reused : Bool) : Resumed :=
  match callSeeds keccak256 deps call ctx reused with
  | .error message => ⟨store, .thrown message, none, false⟩
  | .ok seeds => ⟨store, .wait (.gate ctx seeds), some seeds.gateSeed, false⟩

/-- The admission gate of `runPerPatchEvaluation`, on a count of admissions. -/
def admission (call : Call) (minerAdmissions : Nat) :
    Except String (Option LiveEvalAdmissionRejectReason) := do
  let dedupKey ← computeDedupKey keccak256 call.key.parentStateRoot call.patchBytes
  return liveEvalAdmissionDecision call.miner call.key.patchHash dedupKey [] minerAdmissions
    deps.perMinerCap true

def rejected (code : String) : EvalResult :=
  .reject code "dual-pack evaluator rejected patch"

/-- A result after a draw: recorded where the draw has a block number. -/
def settle (store : CoreTexEvalDedupStore) (ctx : CoreTexEvalSeedContext) (result : EvalResult) :
    Resumed :=
  if result.accepted then ⟨store, .wait (.publish result), none, false⟩
  else if ctx.receivedAtBlock > 0 then ⟨store, .wait (.outcome result), none, false⟩
  else ⟨store, .done result, none, false⟩

/-- `chooseStateAdvanceScore`. -/
def chooseStateAdvanceScore (seeds : EvalSeeds) (gate confirm : PatchEvalResult) :
    PatchEvalResult :=
  if seeds.gateSeed = seeds.confirmSeed then confirm
  else if gate.deltaPpm ≤ confirm.deltaPpm then gate
  else confirm

/-- The result of two packs that passed. -/
def acceptedResult (seeds : EvalSeeds) (gate confirm : PatchEvalResult) : EvalResult :=
  let minDualDelta := min gate.deltaPpm confirm.deltaPpm
  if minDualDelta ≥ deps.stateThresholdPpm ∧
      (chooseStateAdvanceScore seeds gate confirm).accepted = true then .stateAdvance minDualDelta
  else .screenerPass minDualDelta

def duplicateReason (call : Call) (prior : CoreTexEvalDedupRecord) : String :=
  let patchHash := call.key.patchHash
  let parentStateRoot := call.key.parentStateRoot
  let epochId := call.key.epochId
  let outcome := prior.outcome.text
  s!"patch {patchHash} already evaluated at parent {parentStateRoot} in epoch {epochId} " ++
    s!"(prior outcome: {outcome})"

def inFlightReason (call : Call) : String :=
  let patchHash := call.key.patchHash
  let parentStateRoot := call.key.parentStateRoot
  let epochId := call.key.epochId
  s!"patch {patchHash} at parent {parentStateRoot} in epoch {epochId} is already being " ++
    "evaluated by another miner"

/-- A call from one await to the next. -/
def resume (store : CoreTexEvalDedupStore) (call : Call) (answers : Answers) : Resumed :=
  match call.phase with
  | .lookup =>
    match store.get call.key with
    | some prior =>
      ⟨store, .done (.reject "duplicate_submission" (duplicateReason call prior)), none, false⟩
    | none => ⟨store, .wait .attempt, none, false⟩
  | .attempt =>
    match store.getAttempt call.key with
    | some prior =>
      if prior.minerAddress ≠ call.miner then
        ⟨store, .done (.reject "duplicate_in_flight" (inFlightReason call)), none, false⟩
      else
        -- the admission was charged at the first draw: the gate is fed zero
        match admission keccak256 deps call 0 with
        | .error message => ⟨store, .thrown message, none, false⟩
        | .ok (some reason) => ⟨store, .done (rejected reason.code), none, false⟩
        | .ok none => scoreGate keccak256 deps store call prior.seedContext true
    | none => ⟨store, .wait .admissions, none, false⟩
  | .admissions =>
    match admission keccak256 deps call (store.minerAdmissions deps.epochId call.miner) with
    | .error message => ⟨store, .thrown message, none, false⟩
    | .ok (some reason) => ⟨store, .done (rejected reason.code), none, false⟩
    | .ok none => ⟨store, .wait .latestBlock, none, true⟩
  | .latestBlock => ⟨store, .wait (.targetBlock answers.latestBlock), none, true⟩
  | .targetBlock receivedAtBlock =>
    ⟨store, .wait (.pin ⟨receivedAtBlock, receivedAtBlock + deps.targetBlockOffset,
      answers.blockhash⟩), none, false⟩
  | .pin ctx =>
    ⟨store.recordSeedDrawnAndAdmission call.key ctx call.miner, .wait (.pinned ctx), none, false⟩
  | .pinned ctx => scoreGate keccak256 deps store call ctx false
  | .gate ctx seeds =>
    let gate := answers.score
    if gate.deltaPpm ≥ call.thresholdPpm ∧ gate.accepted = true then
      ⟨store, .wait (.confirm ctx seeds gate), some seeds.confirmSeed, false⟩
    else
      settle store ctx (rejected
        (if gate.accepted = false then "gate-acceptance-floor" else "gate-below-threshold"))
  | .confirm ctx seeds gate =>
    let confirm := answers.score
    if confirm.deltaPpm ≥ call.thresholdPpm ∧ confirm.accepted = true then
      settle store ctx (acceptedResult deps seeds gate confirm)
    else
      settle store ctx (rejected
        (if confirm.accepted = false then "confirm-acceptance-floor"
        else "confirm-below-threshold"))
  | .publish result => ⟨store, .wait (.outcome result), none, false⟩
  | .outcome result =>
    let state := if result.accepted then AttemptState.accepted else .rejected
    match store.recordAttemptOutcome call.key state result.outcome result.code with
    | none => ⟨store, .thrown ("recordAttemptOutcome called before recordSeedDrawnAndAdmission " ++
        "(no pinned seed)"), none, false⟩
    | some store => ⟨store, .wait (.put result), none, false⟩
  | .put result =>
    ⟨store.put call.key ⟨result.outcome, result.code⟩, .wait (.stored result), none, false⟩
  | .stored result => ⟨store, .done result, none, false⟩

/-- The start of `scorePatch`, up to its first await. -/
def startCall (input : ScorePatchInput) : Except String Call := do
  let _ ← (decodePatch input.patchBytes).mapError fun e => e.message
  let effectiveThresholdPpm := input.screenerThresholdPpm.getD deps.screenerThresholdPpm
  refuseIf (¬ (0 ≤ effectiveThresholdPpm ∧ effectiveThresholdPpm ≤ maxSafeInteger))
    ("scorePatch: screenerThresholdPpm override must be a non-negative integer (got " ++
      (input.screenerThresholdPpm.map toString).getD "undefined" ++ ")")
  return {
    key := ⟨deps.epochId, input.parentStateRoot.toLower,
      (computePatchHash keccak256 input.patchBytes).toLower⟩
    miner := input.miner.toLower
    patchBytes := input.patchBytes
    thresholdPpm := effectiveThresholdPpm
    injectedSeeds := input.injectedSeeds
    phase := .lookup }

end Evaluator

end CoreTex.Evaluator
