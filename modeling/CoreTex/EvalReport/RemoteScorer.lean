import CoreTex.EvalReport.PostReveal

/-!
# CoreTex.EvalReport.RemoteScorer

Verify before sign for the keyless remote scorer (`coordinator/remote-scorer-verify.ts`).

The result arrives as a `JsValue`, whatever its fields. Every check is a definition of its own under
its number in the source, and `verifyScorerResult_eq_ok` takes an accepted run apart into them. What
is never compared is `CarriersAgree`; `verifyScorerResult_bound_iff` says that nothing else is
missing.
-/

namespace CoreTex.EvalReport

open CoreTex.Lib
open CoreTex.Coordinator (isBytes32)

/-! ### The coordinator's side -/

/-- `RemoteScorerActiveContext`. -/
structure RemoteScorerActiveContext where
  epochId : Int
  parentStateRoot : String
  corpusRoot : String
  bundleHash : String
  coreVersionHash : String
  workPolicyHash : String
  thresholdPpm : Int

/-- `RemoteScorerExpectedHealth`. -/
structure RemoteScorerExpectedHealth where
  modelId : String
  revision : String
  promptTemplateHash : String

/-- `RemoteScorerSeedContext`. -/
structure RemoteScorerSeedContext where
  receivedAtBlock : Int
  targetBlock : Int
  blockhash : String

/-- The seeds the coordinator derived. -/
structure ExpectedSeeds where
  gateSeed : String
  confirmSeed : String

/-- `ScorerPublicEvalContext`. -/
structure ScorerPublicEvalContext where
  receivedAtBlock : Option Int
  targetBlock : Option Int
  blockhash : Option String
  gateSeed : Option String
  confirmSeed : Option String

/-- `ScorerJobRequest`. -/
structure ScorerJobRequest where
  jobId : String
  epochId : Int
  parentStateRoot : String
  corpusRoot : String
  bundleHash : String
  coreVersionHash : String
  thresholdPpm : Int
  policyHash : String
  publicEvalContext : Option ScorerPublicEvalContext
  compactPatchBytesHex : String
  miner : String

/-- The job with the seed context and the seeds that were pinned for it. -/
def ScorerJobRequest.pin (job : ScorerJobRequest) (pinned : RemoteScorerSeedContext)
    (seeds : ExpectedSeeds) : ScorerJobRequest :=
  { job with
    publicEvalContext := some {
      receivedAtBlock := some pinned.receivedAtBlock
      targetBlock := some pinned.targetBlock
      blockhash := some pinned.blockhash
      gateSeed := some seeds.gateSeed
      confirmSeed := some seeds.confirmSeed } }

/-- `outcome`, with what only a state advance carries. -/
inductive ScorerOutcome
  | screenerPass
  | stateAdvance (scoreBeforePpm scoreAfterPpm : JsValue) (rewrittenPatchBytesHex : String)

/-- The outcome as an artifact names it. -/
def ScorerOutcome.name : ScorerOutcome → String
  | .screenerPass => "SCREENER_PASS"
  | .stateAdvance _ _ _ => "STATE_ADVANCE"

/-- The `EvalResult` for the core; the proof is `undefined` where the result has none. -/
structure ScorerEvalResult where
  outcome : ScorerOutcome
  deterministicDeltaPpm : JsValue
  evalReportHash : String
  artifactHash : String
  evaluationProof : JsValue

structure VerifiedResult where
  artifact : JsValue
  evalResult : ScorerEvalResult

/-- A refusal: its code and its reason. -/
structure ScorerRefusal where
  code : String
  reason : String
  deriving DecidableEq, Repr

/-! ### Values from the wire -/

variable (formatNumber : ℚ → String)

mutual

/-- `String(value)`, as a template prints it. -/
def display : JsValue → String
  | .undefined => "undefined"
  | .null => "null"
  | .bool b => if b then "true" else "false"
  | .num .nan => "NaN"
  | .num (.inf negative) => if negative then "-Infinity" else "Infinity"
  | .num (.fin q) => formatNumber q
  | .str s => s
  | .arr items => ",".intercalate (displayItems items)
  | .obj _ => "[object Object]"

def displayItems : List JsValue → List String
  | [] => []
  | .undefined :: rest => "" :: displayItems rest
  | .null :: rest => "" :: displayItems rest
  | v :: rest => display v :: displayItems rest

end

/-- `hexEq` of a value from the wire and text of the coordinator's. -/
def hexEqValue (v : JsValue) (s : String) : Bool :=
  v.isText && hexEq v.text s

/-- `value !== null`. -/
def notNull : JsValue → Bool
  | .null => false
  | _ => true

/-! ### The checks -/

variable (keccak256 : Bytes → Digest)

/-- `seedCommit`. -/
def seedCommit (seed : Option String) : Option String :=
  match seed with
  | some s =>
    if isBytes32 s then some (bytesToHex (keccak256 (hexPairs (clean s))).bytes).toLower else none
  | none => none

/-- (1) -/
def checkOutstanding (result : JsValue) (job : ScorerJobRequest)
    (outstandingJobIds : List String) : Except ScorerRefusal Unit := do
  refuseIf (result.isObject = false) ⟨"SCORER_RESULT_MALFORMED", "result is not an object"⟩
  refuseIf ((result.field "jobId").isStr job.jobId = false)
    ⟨"SCORER_JOB_ID_MISMATCH",
      "result.jobId " ++ display formatNumber (result.field "jobId") ++ " != job " ++ job.jobId⟩
  refuseIf (job.jobId ∉ outstandingJobIds)
    ⟨"SCORER_JOB_NOT_OUTSTANDING", "jobId " ++ job.jobId ++ " is not an outstanding queued job"⟩

/-- `validateResultSchema`. -/
def validateResultSchema (result : JsValue) : Except String Unit := do
  refuseIf ((result.field "accepted").isBool true = false ∧
    (result.field "accepted").isBool false = false) "accepted must be boolean"
  refuseIf ((result.field "deltaPpm").isFinite = false) "deltaPpm invalid"
  refuseIf ((result.field "gateScorePpm").isSafeInteger = false ∨
    (result.field "confirmScorePpm").isSafeInteger = false)
    "gate/confirm score invalid (must be finite safe integers)"
  refuseIf (countValue (result.field "thresholdPpmUsed") = false) "thresholdPpmUsed invalid"
  refuseIf (bytes32Value (result.field "policyHash") = false) "policyHash must be bytes32"
  refuseIf ((result.field "pairTraceHash").isText = false ∨
    (result.field "scoreArrayHash").isText = false) "trace hashes missing"
  refuseIf ((result.field "scorerHealth").isObject = false) "scorerHealth missing"
  if (result.field "accepted").truthy then
    refuseIf (bytes32Value (result.field "evalReportHash") = false)
      "accepted result missing evalReportHash"
    refuseIf (bytes32Value (result.field "artifactHash") = false)
      "accepted result missing artifactHash"
    refuseIf ((result.field "evaluationProof").truthy = true ∧
      ((result.field "evaluationProof").field "kind").isStr "coretex-dual-pack-v1" = false)
      "evaluationProof kind invalid"

/-- (2) -/
def checkContext (job : ScorerJobRequest) (active : RemoteScorerActiveContext) :
    Except ScorerRefusal Unit := do
  refuseIf (job.epochId ≠ active.epochId) ⟨"SCORER_STALE_CONTEXT",
    "job epoch " ++ toString job.epochId ++ " != active " ++ toString active.epochId⟩
  refuseIf (hexEq job.parentStateRoot active.parentStateRoot = false)
    ⟨"SCORER_STALE_CONTEXT", "job parentStateRoot != active " ++ active.parentStateRoot⟩
  refuseIf (hexEq job.corpusRoot active.corpusRoot = false)
    ⟨"SCORER_STALE_CONTEXT", "job corpusRoot != active " ++ active.corpusRoot⟩
  refuseIf (hexEq job.bundleHash active.bundleHash = false)
    ⟨"SCORER_STALE_CONTEXT", "job bundleHash != active " ++ active.bundleHash⟩
  refuseIf (hexEq job.coreVersionHash active.coreVersionHash = false)
    ⟨"SCORER_STALE_CONTEXT", "job coreVersionHash != active " ++ active.coreVersionHash⟩
  refuseIf (hexEq job.policyHash active.workPolicyHash = false)
    ⟨"SCORER_STALE_CONTEXT", "job policyHash != active " ++ active.workPolicyHash⟩

/-- (5) -/
def checkHealth (result : JsValue) (expectedHealth : RemoteScorerExpectedHealth) :
    Except ScorerRefusal Unit := do
  let h := result.field "scorerHealth"
  refuseIf ((h.field "modelId").isStr expectedHealth.modelId = false)
    ⟨"SCORER_HEALTH_MISMATCH", "modelId " ++ display formatNumber (h.field "modelId") ++
      " != expected " ++ expectedHealth.modelId⟩
  refuseIf ((h.field "revision").isStr expectedHealth.revision = false)
    ⟨"SCORER_HEALTH_MISMATCH", "revision " ++ display formatNumber (h.field "revision") ++
      " != expected " ++ expectedHealth.revision⟩
  refuseIf (hexEqValue (h.field "promptTemplateHash") expectedHealth.promptTemplateHash = false)
    ⟨"SCORER_HEALTH_MISMATCH",
      "promptTemplateHash != expected " ++ expectedHealth.promptTemplateHash⟩
  refuseIf ((h.field "dtype").isStr "fp32" = false)
    ⟨"SCORER_HEALTH_MISMATCH",
      "dtype " ++ display formatNumber (h.field "dtype") ++ " != fp32"⟩
  refuseIf ((h.field "tf32").isBool false = false)
    ⟨"SCORER_HEALTH_MISMATCH", "tf32 " ++ display formatNumber (h.field "tf32") ++ " != false"⟩
  refuseIf ((h.field "cuda").isBool true = false)
    ⟨"SCORER_HEALTH_MISMATCH", "cuda " ++ display formatNumber (h.field "cuda") ++ " != true"⟩

/-- (6), made of a proof that is there. -/
def checkProofPins (result : JsValue) (job : ScorerJobRequest)
    (active : RemoteScorerActiveContext) : Except ScorerRefusal Unit := do
  let p := result.field "evaluationProof"
  refuseIf (hexEqValue (p.field "corpusRoot") active.corpusRoot = false)
    ⟨"SCORER_PIN_MISMATCH", "proof corpusRoot != active " ++ active.corpusRoot⟩
  refuseIf (hexEqValue (p.field "coreVersionHash") active.coreVersionHash = false)
    ⟨"SCORER_PIN_MISMATCH", "proof coreVersionHash != active " ++ active.coreVersionHash⟩
  refuseIf (hexEqValue (p.field "parentStateRoot") active.parentStateRoot = false)
    ⟨"SCORER_PIN_MISMATCH", "proof parentStateRoot != active " ++ active.parentStateRoot⟩
  match seedCommit keccak256 (job.publicEvalContext.bind ScorerPublicEvalContext.gateSeed),
    seedCommit keccak256 (job.publicEvalContext.bind ScorerPublicEvalContext.confirmSeed) with
  | some expectedGateSeedCommit, some expectedConfirmSeedCommit =>
    refuseIf (hexEqValue ((p.field "gate").field "seedCommit") expectedGateSeedCommit = false)
      ⟨"SCORER_SEED_COMMIT_MISMATCH",
        "proof gate seedCommit != coordinator-derived gate seed commit"⟩
    refuseIf (hexEqValue ((p.field "confirm").field "seedCommit") expectedConfirmSeedCommit = false)
      ⟨"SCORER_SEED_COMMIT_MISMATCH",
        "proof confirm seedCommit != coordinator-derived confirm seed commit"⟩
    refuseIf (((p.field "gate").field "scorePpm").isInt (result.field "gateScorePpm").int = false ∨
      ((p.field "confirm").field "scorePpm").isInt (result.field "confirmScorePpm").int = false)
      ⟨"SCORER_SCORE_PROOF_MISMATCH", "result gate/confirm scores != dual-pack proof pack scores"⟩
  | _, _ => throw ⟨"SCORER_SEED_COMMIT_MISMATCH",
      "job publicEvalContext missing valid gateSeed/confirmSeed"⟩

def checkProof (result : JsValue) (job : ScorerJobRequest)
    (active : RemoteScorerActiveContext) : Except ScorerRefusal Unit :=
  if (result.field "evaluationProof").truthy then checkProofPins keccak256 result job active
  else pure ()

/-- (7) -/
def checkPolicyEcho (result : JsValue) (job : ScorerJobRequest) : Except ScorerRefusal Unit := do
  refuseIf ((result.field "thresholdPpmUsed").isInt job.thresholdPpm = false)
    ⟨"SCORER_THRESHOLD_ECHO_MISMATCH",
      "scorer used threshold " ++ display formatNumber (result.field "thresholdPpmUsed") ++
        " != job threshold " ++ toString job.thresholdPpm⟩
  refuseIf (hexEqValue (result.field "policyHash") job.policyHash = false)
    ⟨"SCORER_POLICY_ECHO_MISMATCH",
      "scorer echoed policyHash " ++ display formatNumber (result.field "policyHash") ++
        " != job policyHash " ++ job.policyHash⟩

/-- `result.rejectionReason ?? "scorer rejected patch"`. -/
def rejectionReason (result : JsValue) : String :=
  match result.field "rejectionReason" with
  | .undefined => "scorer rejected patch"
  | .null => "scorer rejected patch"
  | v => display formatNumber v

/-- (4) -/
def checkThreshold (result : JsValue) (active : RemoteScorerActiveContext) :
    Except ScorerRefusal Unit := do
  refuseIf ((result.field "accepted").truthy = false)
    ⟨"SCORER_REJECTED", rejectionReason formatNumber result⟩
  let gate := (result.field "gateScorePpm").int
  let confirm := (result.field "confirmScorePpm").int
  refuseIf (min gate confirm < active.thresholdPpm)
    ⟨"SCORER_BELOW_THRESHOLD", "min(gate=" ++ toString gate ++ ", confirm=" ++ toString confirm ++
      ") < live threshold " ++ toString active.thresholdPpm⟩

/-- (8) -/
def checkArtifactBytes (result : JsValue) (active : RemoteScorerActiveContext) :
    Except ScorerRefusal Unit := do
  let artifact := result.field "artifact"
  refuseIf (artifact.isObject = false)
    ⟨"SCORER_ARTIFACT_MISSING", "accepted result must carry the canonical eval-report artifact"⟩
  match hashPostRevealEvalReportArtifact formatNumber keccak256 artifact with
  | none => throw ⟨"SCORER_ARTIFACT_MALFORMED", "canonicalJson: non-finite number"⟩
  | some recomputed =>
    refuseIf (hexEqValue (result.field "artifactHash") recomputed = false ∨
      hexEqValue (result.field "evalReportHash") recomputed = false)
      ⟨"SCORER_ARTIFACT_HASH_MISMATCH", "recomputed artifact hash " ++ recomputed ++
        " != artifactHash " ++ display formatNumber (result.field "artifactHash") ++
        " / evalReportHash " ++ display formatNumber (result.field "evalReportHash")⟩
    let ctx := artifact.field "context"
    refuseIf (ctx.isObject = false)
      ⟨"SCORER_ARTIFACT_CONTEXT_MISMATCH", "artifact context missing"⟩
    refuseIf (hexEqValue (ctx.field "parentStateRoot") active.parentStateRoot = false)
      ⟨"SCORER_ARTIFACT_CONTEXT_MISMATCH",
        "artifact parentStateRoot != active " ++ active.parentStateRoot⟩
    refuseIf (hexEqValue (ctx.field "corpusRoot") active.corpusRoot = false)
      ⟨"SCORER_ARTIFACT_CONTEXT_MISMATCH", "artifact corpusRoot != active " ++ active.corpusRoot⟩
    refuseIf (hexEqValue (ctx.field "coreVersionHash") active.coreVersionHash = false)
      ⟨"SCORER_ARTIFACT_CONTEXT_MISMATCH",
        "artifact coreVersionHash != active " ++ active.coreVersionHash⟩

/-- What the result says it is: an advance carries both scores and the rewritten bytes. -/
def outcomeOf (result : JsValue) : ScorerOutcome :=
  if notNull (result.field "scoreBeforePpm") && notNull (result.field "scoreAfterPpm") &&
      (result.field "rewrittenPatchBytesHex").isText then
    .stateAdvance (result.field "scoreBeforePpm") (result.field "scoreAfterPpm")
      (result.field "rewrittenPatchBytesHex").text
  else .screenerPass

def verifyScorerResult (result : JsValue) (job : ScorerJobRequest)
    (outstandingJobIds : List String) (active : RemoteScorerActiveContext)
    (expectedHealth : RemoteScorerExpectedHealth) : Except ScorerRefusal VerifiedResult := do
  checkOutstanding formatNumber result job outstandingJobIds
  (validateResultSchema result).mapError (⟨"SCORER_RESULT_MALFORMED", ·⟩)
  checkContext job active
  checkHealth formatNumber result expectedHealth
  checkProof keccak256 result job active
  checkPolicyEcho formatNumber result job
  checkThreshold formatNumber result active
  checkArtifactBytes formatNumber keccak256 result active
  return {
    artifact := result.field "artifact"
    evalResult := {
      outcome := outcomeOf result
      deterministicDeltaPpm := result.field "deltaPpm"
      evalReportHash := (result.field "evalReportHash").text
      artifactHash := (result.field "artifactHash").text
      evaluationProof := result.field "evaluationProof" } }

/-- `checkArtifactSeedEcho`, with the reason of a mismatch. -/
def checkArtifactSeedEcho (artifact : JsValue) (pinned : RemoteScorerSeedContext)
    (expectedSeeds : Option ExpectedSeeds) : Except String Unit := do
  if artifact.truthy then
    let sd := artifact.field "seedDerivation"
    refuseIf (sd.isObject = false)
      "artifact seedDerivation missing — cannot confirm the scorer injected the pinned seed"
    refuseIf ((sd.field "receivedAtBlock").isInt pinned.receivedAtBlock = false)
      ("artifact seedDerivation.receivedAtBlock " ++
        display formatNumber (sd.field "receivedAtBlock") ++ " != coordinator-pinned " ++
        toString pinned.receivedAtBlock)
    refuseIf ((sd.field "targetBlock").isInt pinned.targetBlock = false)
      ("artifact seedDerivation.targetBlock " ++ display formatNumber (sd.field "targetBlock") ++
        " != coordinator-pinned " ++ toString pinned.targetBlock)
    refuseIf (hexEqValue (sd.field "blockhash") pinned.blockhash = false)
      ("artifact seedDerivation.blockhash " ++ display formatNumber (sd.field "blockhash") ++
        " != coordinator-pinned " ++ pinned.blockhash)
    match expectedSeeds with
    | none => return ()
    | some seeds =>
      let receipt := artifact.field "receipt"
      refuseIf (receipt.isObject = false)
        "artifact receipt missing — cannot confirm the scorer used the shipped eval seeds"
      refuseIf (hexEqValue (receipt.field "gateSeed") seeds.gateSeed = false)
        ("artifact receipt.gateSeed " ++ display formatNumber (receipt.field "gateSeed") ++
          " != coordinator-derived " ++ seeds.gateSeed)
      refuseIf (hexEqValue (receipt.field "confirmSeed") seeds.confirmSeed = false)
        ("artifact receipt.confirmSeed " ++ display formatNumber (receipt.field "confirmSeed") ++
          " != coordinator-derived " ++ seeds.confirmSeed)

/-! ### What a signed result should mean -/

/-- The proof of the result, if it has one, has the scores of the receipt and commits to its
seeds. -/
def ProofAgrees (result receipt : JsValue) (seeds : ExpectedSeeds) : Prop :=
  let p := result.field "evaluationProof"
  p.truthy = true →
    ((p.field "gate").field "scorePpm").isInt (receipt.field "gateScorePpm").int = true ∧
    ((p.field "confirm").field "scorePpm").isInt (receipt.field "confirmScorePpm").int = true ∧
    (∃ commit, seedCommit keccak256 (some seeds.gateSeed) = some commit ∧
      hexEqValue ((p.field "gate").field "seedCommit") commit = true) ∧
    ∃ commit, seedCommit keccak256 (some seeds.confirmSeed) = some commit ∧
      hexEqValue ((p.field "confirm").field "seedCommit") commit = true

/-- The artifact to be spooled and the result to be signed describe the job and one another. -/
structure BoundToJob (result : JsValue) (job : ScorerJobRequest)
    (active : RemoteScorerActiveContext) (seeds : ExpectedSeeds) (out : VerifiedResult) : Prop where
  epochId : (out.artifact.field "epochId").isInt job.epochId = true
  miner : hexEqValue (out.artifact.field "minerAddress") job.miner = true
  parentStateRoot :
    hexEqValue ((out.artifact.field "context").field "parentStateRoot") job.parentStateRoot = true
  corpusRoot : hexEqValue ((out.artifact.field "context").field "corpusRoot") job.corpusRoot = true
  coreVersionHash :
    hexEqValue ((out.artifact.field "context").field "coreVersionHash") job.coreVersionHash = true
  compactPatchBytesHex :
    hexEqValue (out.artifact.field "compactPatchBytesHex") job.compactPatchBytesHex = true
  thresholdPpm : (out.artifact.field "thresholdPpm").isInt job.thresholdPpm = true
  gateScore : ((out.artifact.field "receipt").field "gateScorePpm").isInt
    (result.field "gateScorePpm").int = true
  confirmScore : ((out.artifact.field "receipt").field "confirmScorePpm").isInt
    (result.field "confirmScorePpm").int = true
  gateSeed : hexEqValue ((out.artifact.field "receipt").field "gateSeed") seeds.gateSeed = true
  confirmSeed :
    hexEqValue ((out.artifact.field "receipt").field "confirmSeed") seeds.confirmSeed = true
  proof : ProofAgrees keccak256 result (out.artifact.field "receipt") seeds
  liveThreshold : active.thresholdPpm ≤
    min ((out.artifact.field "receipt").field "gateScorePpm").int
      ((out.artifact.field "receipt").field "confirmScorePpm").int
  hash : ∃ hash, hashPostRevealEvalReportArtifact formatNumber keccak256 out.artifact = some hash ∧
    hexEq out.evalResult.artifactHash hash = true ∧ hexEq out.evalResult.evalReportHash hash = true
  outcome : (out.artifact.field "outcome").isStr out.evalResult.outcome.name = true
  delta : out.evalResult.deterministicDeltaPpm.isInt
    (min ((out.artifact.field "receipt").field "gateScorePpm").int
      ((out.artifact.field "receipt").field "confirmScorePpm").int) = true

/-- What no check compares: fields of the artifact with the job and with the result, and the delta
with the scores. -/
structure CarriersAgree (result : JsValue) (job : ScorerJobRequest) : Prop where
  epochId : ((result.field "artifact").field "epochId").isInt job.epochId = true
  miner : hexEqValue ((result.field "artifact").field "minerAddress") job.miner = true
  compactPatchBytesHex : hexEqValue ((result.field "artifact").field "compactPatchBytesHex")
    job.compactPatchBytesHex = true
  thresholdPpm : ((result.field "artifact").field "thresholdPpm").isInt job.thresholdPpm = true
  gateScore : (((result.field "artifact").field "receipt").field "gateScorePpm").isInt
    (result.field "gateScorePpm").int = true
  confirmScore : (((result.field "artifact").field "receipt").field "confirmScorePpm").isInt
    (result.field "confirmScorePpm").int = true
  outcome : ((result.field "artifact").field "outcome").isStr (outcomeOf result).name = true
  delta : (result.field "deltaPpm").isInt
    (min (result.field "gateScorePpm").int (result.field "confirmScorePpm").int) = true

variable {formatNumber keccak256}

theorem hexEq_iff {a b : String} : hexEq a b = true ↔ a.toLower = b.toLower := by
  simp [hexEq]

theorem hexEqValue_iff {v : JsValue} {s : String} :
    hexEqValue v s = true ↔ v = .str v.text ∧ v.text.toLower = s.toLower := by
  rw [hexEqValue, Bool.and_eq_true, JsValue.isText_iff, hexEq_iff]

/-- Text that equals a pin equals what equals the pin. -/
theorem hexEqValue_trans {v : JsValue} {a b : String} (hv : hexEqValue v b = true)
    (hab : hexEq a b = true) : hexEqValue v a = true := by
  rw [hexEqValue_iff] at hv ⊢
  exact ⟨hv.1, hv.2.trans (hexEq_iff.mp hab).symm⟩

/-- An accepted run passed every check. -/
theorem verifyScorerResult_eq_ok {result : JsValue} {job : ScorerJobRequest}
    {outstandingJobIds : List String} {active : RemoteScorerActiveContext}
    {expectedHealth : RemoteScorerExpectedHealth} {out : VerifiedResult} :
    verifyScorerResult formatNumber keccak256 result job outstandingJobIds active expectedHealth =
        .ok out ↔
      checkOutstanding formatNumber result job outstandingJobIds = .ok () ∧
      validateResultSchema result = .ok () ∧ checkContext job active = .ok () ∧
      checkHealth formatNumber result expectedHealth = .ok () ∧
      checkProof keccak256 result job active = .ok () ∧
      checkPolicyEcho formatNumber result job = .ok () ∧
      checkThreshold formatNumber result active = .ok () ∧
      checkArtifactBytes formatNumber keccak256 result active = .ok () ∧
      out = {
        artifact := result.field "artifact"
        evalResult := {
          outcome := outcomeOf result
          deterministicDeltaPpm := result.field "deltaPpm"
          evalReportHash := (result.field "evalReportHash").text
          artifactHash := (result.field "artifactHash").text
          evaluationProof := result.field "evaluationProof" } } := by
  unfold verifyScorerResult
  simp only [bind_eq_ok, pure_eq_ok, mapError_eq_ok]
  constructor
  · rintro ⟨_, h1, _, h2, _, h3, _, h4, _, h5, _, h6, _, h7, _, h8, rfl⟩
    exact ⟨h1, h2, h3, h4, h5, h6, h7, h8, rfl⟩
  · rintro ⟨h1, h2, h3, h4, h5, h6, h7, h8, rfl⟩
    exact ⟨(), h1, (), h2, (), h3, (), h4, (), h5, (), h6, (), h7, (), h8, rfl⟩

theorem checkContext_inv {job : ScorerJobRequest} {active : RemoteScorerActiveContext}
    (h : checkContext job active = .ok ()) :
    hexEq job.parentStateRoot active.parentStateRoot = true ∧
      hexEq job.corpusRoot active.corpusRoot = true ∧
      hexEq job.coreVersionHash active.coreVersionHash = true := by
  unfold checkContext at h
  simp only [refuseIf_bind_eq_ok, Bool.not_eq_false] at h
  exact ⟨h.2.1, h.2.2.1, h.2.2.2.2.1⟩

theorem checkProof_inv {result : JsValue} {job : ScorerJobRequest}
    {active : RemoteScorerActiveContext} {pinned : RemoteScorerSeedContext} {seeds : ExpectedSeeds}
    (h : checkProof keccak256 result (job.pin pinned seeds) active = .ok ())
    {receipt : JsValue} (hgate : (receipt.field "gateScorePpm").int = (result.field "gateScorePpm").int)
    (hconfirm : (receipt.field "confirmScorePpm").int = (result.field "confirmScorePpm").int) :
    ProofAgrees keccak256 result receipt seeds := by
  intro hthere
  rw [checkProof, if_pos hthere] at h
  unfold checkProofPins at h
  dsimp only [ScorerJobRequest.pin, Option.bind_some] at h
  rw [refuseIf_bind_eq_ok, refuseIf_bind_eq_ok, refuseIf_bind_eq_ok] at h
  obtain ⟨-, -, -, h⟩ := h
  cases hg : seedCommit keccak256 (some seeds.gateSeed) with
  | none =>
      rw [hg] at h
      cases h
  | some gateCommit =>
      cases hc : seedCommit keccak256 (some seeds.confirmSeed) with
      | none =>
          rw [hg, hc] at h
          cases h
      | some confirmCommit =>
          rw [hg, hc] at h
          dsimp only at h
          rw [refuseIf_bind_eq_ok, refuseIf_bind_eq_ok, refuseIf_eq_ok, not_or,
            Bool.not_eq_false, Bool.not_eq_false, Bool.not_eq_false, Bool.not_eq_false] at h
          obtain ⟨hgateSeed, hconfirmSeed, hgateScore, hconfirmScore⟩ := h
          rw [hgate, hconfirm]
          exact ⟨hgateScore, hconfirmScore, ⟨gateCommit, rfl, hgateSeed⟩, confirmCommit, rfl,
            hconfirmSeed⟩

theorem checkThreshold_inv {result : JsValue} {active : RemoteScorerActiveContext}
    (h : checkThreshold formatNumber result active = .ok ()) :
    active.thresholdPpm ≤
      min (result.field "gateScorePpm").int (result.field "confirmScorePpm").int := by
  unfold checkThreshold at h
  dsimp only at h
  rw [refuseIf_bind_eq_ok, refuseIf_eq_ok] at h
  exact Int.not_lt.mp h.2

theorem checkArtifactBytes_inv {result : JsValue} {active : RemoteScorerActiveContext}
    (h : checkArtifactBytes formatNumber keccak256 result active = .ok ()) :
    (∃ hash, hashPostRevealEvalReportArtifact formatNumber keccak256 (result.field "artifact") =
        some hash ∧ hexEqValue (result.field "artifactHash") hash = true ∧
        hexEqValue (result.field "evalReportHash") hash = true) ∧
      hexEqValue (((result.field "artifact").field "context").field "parentStateRoot")
        active.parentStateRoot = true ∧
      hexEqValue (((result.field "artifact").field "context").field "corpusRoot")
        active.corpusRoot = true ∧
      hexEqValue (((result.field "artifact").field "context").field "coreVersionHash")
        active.coreVersionHash = true := by
  unfold checkArtifactBytes at h
  dsimp only at h
  rw [refuseIf_bind_eq_ok] at h
  obtain ⟨-, h⟩ := h
  cases hhash : hashPostRevealEvalReportArtifact formatNumber keccak256 (result.field "artifact") with
  | none =>
      rw [hhash] at h
      cases h
  | some hash =>
      rw [hhash] at h
      dsimp only at h
      simp only [refuseIf_bind_eq_ok, refuseIf_eq_ok, not_or, Bool.not_eq_false] at h
      obtain ⟨⟨hartifact, hreport⟩, -, hparent, hcorpus, hcore⟩ := h
      exact ⟨⟨hash, rfl, hartifact, hreport⟩, hparent, hcorpus, hcore⟩

theorem checkArtifactSeedEcho_inv {artifact : JsValue} {pinned : RemoteScorerSeedContext}
    {seeds : ExpectedSeeds} (hthere : artifact.truthy = true)
    (h : checkArtifactSeedEcho formatNumber artifact pinned (some seeds) = .ok ()) :
    hexEqValue ((artifact.field "receipt").field "gateSeed") seeds.gateSeed = true ∧
      hexEqValue ((artifact.field "receipt").field "confirmSeed") seeds.confirmSeed = true := by
  unfold checkArtifactSeedEcho at h
  rw [if_pos hthere] at h
  simp only [refuseIf_bind_eq_ok, refuseIf_eq_ok, Bool.not_eq_false] at h
  exact ⟨h.2.2.2.2.2.1, h.2.2.2.2.2.2⟩

theorem truthy_of_isObject {v : JsValue} (h : v.isObject = true) : v.truthy = true := by
  cases v <;> first | rfl | cases h

theorem checkArtifactBytes_isObject {result : JsValue} {active : RemoteScorerActiveContext}
    (h : checkArtifactBytes formatNumber keccak256 result active = .ok ()) :
    (result.field "artifact").isObject = true := by
  unfold checkArtifactBytes at h
  dsimp only at h
  rw [refuseIf_bind_eq_ok, Bool.not_eq_false] at h
  exact h.1

theorem int_of_isInt {v : JsValue} {n : Int} (h : v.isInt n = true) : v.int = n := by
  rw [JsValue.isInt_iff.mp h, JsValue.int_ofInt]

/-- **An accepted result is bound to its job exactly when the carriers agree** that no check
compares. -/
theorem verifyScorerResult_bound_iff (formatNumber : ℚ → String) (keccak256 : Bytes → Digest)
    (result : JsValue) (job : ScorerJobRequest) (pinned : RemoteScorerSeedContext)
    (seeds : ExpectedSeeds) (outstandingJobIds : List String) (active : RemoteScorerActiveContext)
    (expectedHealth : RemoteScorerExpectedHealth) :
    (∀ out, verifyScorerResult formatNumber keccak256 result (job.pin pinned seeds)
        outstandingJobIds active expectedHealth = .ok out →
      checkArtifactSeedEcho formatNumber out.artifact pinned (some seeds) = .ok () →
        BoundToJob formatNumber keccak256 result job active seeds out) ↔
    ∀ out, verifyScorerResult formatNumber keccak256 result (job.pin pinned seeds)
        outstandingJobIds active expectedHealth = .ok out →
      checkArtifactSeedEcho formatNumber out.artifact pinned (some seeds) = .ok () →
        CarriersAgree result job := by
  refine forall_congr' fun out => imp_congr_right fun hok => imp_congr_right fun hecho => ?_
  obtain ⟨-, -, hcontext, -, hproof, -, hthreshold, hbytes, rfl⟩ :=
    verifyScorerResult_eq_ok.mp hok
  obtain ⟨hparent, hcorpus, hcore⟩ := checkContext_inv hcontext
  obtain ⟨⟨hash, hhash, hartifact, hreport⟩, hctxParent, hctxCorpus, hctxCore⟩ :=
    checkArtifactBytes_inv hbytes
  obtain ⟨hgateSeed, hconfirmSeed⟩ := checkArtifactSeedEcho_inv
    (truthy_of_isObject (checkArtifactBytes_isObject hbytes)) hecho
  constructor
  · intro h
    have hdelta := h.delta
    rw [int_of_isInt h.gateScore, int_of_isInt h.confirmScore] at hdelta
    exact ⟨h.epochId, h.miner, h.compactPatchBytesHex, h.thresholdPpm, h.gateScore,
      h.confirmScore, h.outcome, hdelta⟩
  · intro h
    have hgate := int_of_isInt h.gateScore
    have hconfirm := int_of_isInt h.confirmScore
    refine ⟨h.epochId, h.miner, hexEqValue_trans hctxParent hparent,
      hexEqValue_trans hctxCorpus hcorpus, hexEqValue_trans hctxCore hcore, h.compactPatchBytesHex,
      h.thresholdPpm, h.gateScore, h.confirmScore, hgateSeed, hconfirmSeed,
      checkProof_inv hproof hgate hconfirm, ?_, ⟨hash, hhash, ?_, ?_⟩, h.outcome, ?_⟩
    · rw [hgate, hconfirm]
      exact checkThreshold_inv hthreshold
    · exact hexEq_iff.mpr (hexEqValue_iff.mp hartifact).2
    · exact hexEq_iff.mpr (hexEqValue_iff.mp hreport).2
    · rw [hgate, hconfirm]
      exact h.delta

/-! ### A result that signs one set of numbers and spools another -/

theorem hexEqValue_str (s : String) : hexEqValue (.str s) s = true := by
  simp [hexEqValue, hexEq, JsValue.isText]

theorem hexEq_self (s : String) : hexEq s s = true :=
  decide_eq_true rfl

def sampleJob : ScorerJobRequest where
  jobId := "job-1"
  epochId := 7
  parentStateRoot := onesRoot
  corpusRoot := onesRoot
  bundleHash := onesRoot
  coreVersionHash := onesRoot
  thresholdPpm := 1000
  policyHash := onesRoot
  publicEvalContext := none
  compactPatchBytesHex := "0x"
  miner := forgedMiner

def samplePinned : RemoteScorerSeedContext := ⟨0, 5, onesRoot⟩

def sampleSeeds : ExpectedSeeds := ⟨onesRoot, onesRoot⟩

def sampleActive : RemoteScorerActiveContext where
  epochId := 7
  parentStateRoot := onesRoot
  corpusRoot := onesRoot
  bundleHash := onesRoot
  coreVersionHash := onesRoot
  workPolicyHash := onesRoot
  thresholdPpm := 1000

def sampleExpectedHealth : RemoteScorerExpectedHealth := ⟨"m", "r", onesRoot⟩

/-- Scores of 45000 and 42000 ppm, with an artifact whose receipt says 900000 for both. -/
def sampleResult : JsValue :=
  .obj [("jobId", .str "job-1"), ("accepted", .bool true), ("scoreBeforePpm", .null),
    ("scoreAfterPpm", .null), ("deltaPpm", .ofInt 42000), ("gateScorePpm", .ofInt 45000),
    ("confirmScorePpm", .ofInt 42000), ("thresholdPpmUsed", .ofInt 1000),
    ("policyHash", .str onesRoot), ("evalReportHash", .str forgedHash),
    ("artifactHash", .str forgedHash), ("artifact", forgedArtifact),
    ("pairTraceHash", .str onesRoot), ("scoreArrayHash", .str onesRoot),
    ("scorerHealth", .obj [("modelId", .str "m"), ("revision", .str "r"),
      ("promptTemplateHash", .str onesRoot), ("dtype", .str "fp32"), ("tf32", .bool false),
      ("cuda", .bool true)])]

theorem checkContext_sample :
    checkContext (sampleJob.pin samplePinned sampleSeeds) sampleActive = .ok () := by
  have hsame : ¬ hexEq onesRoot onesRoot = false := by simp [hexEq_self]
  unfold checkContext
  simp only [bind_eq_ok, refuseIf_eq_ok]
  exact ⟨(), by decide, (), hsame, (), hsame, (), hsame, (), hsame, hsame⟩

theorem validateResultSchema_sample : validateResultSchema sampleResult = .ok () :=
  of_isSome (by decide +kernel)

theorem checkHealth_sample :
    checkHealth printWhole sampleResult sampleExpectedHealth = .ok () := by
  have hprompt : ((sampleResult.field "scorerHealth").field "promptTemplateHash") =
    .str onesRoot := rfl
  unfold checkHealth
  dsimp only
  rw [hprompt]
  simp only [bind_eq_ok, refuseIf_eq_ok, Bool.not_eq_false]
  exact ⟨(), by decide +kernel, (), by decide +kernel, (), hexEqValue_str onesRoot, (),
    by decide +kernel, (), by decide +kernel, by decide +kernel⟩

theorem checkPolicyEcho_sample :
    checkPolicyEcho printWhole sampleResult (sampleJob.pin samplePinned sampleSeeds) = .ok () := by
  have hpolicy : sampleResult.field "policyHash" = .str onesRoot := rfl
  unfold checkPolicyEcho
  rw [hpolicy]
  simp only [bind_eq_ok, refuseIf_eq_ok, Bool.not_eq_false]
  exact ⟨(), by decide +kernel, hexEqValue_str onesRoot⟩

theorem checkArtifactBytes_sample :
    checkArtifactBytes printWhole tailDigest sampleResult sampleActive = .ok () := by
  have hartifact : sampleResult.field "artifact" = forgedArtifact := rfl
  have hhash : sampleResult.field "artifactHash" = .str forgedHash := rfl
  have hreport : sampleResult.field "evalReportHash" = .str forgedHash := rfl
  have hparent : (forgedArtifact.field "context").field "parentStateRoot" = .str onesRoot := rfl
  have hcorpus : (forgedArtifact.field "context").field "corpusRoot" = .str onesRoot := rfl
  have hcore : (forgedArtifact.field "context").field "coreVersionHash" = .str onesRoot := rfl
  unfold checkArtifactBytes
  dsimp only
  rw [hartifact, hhash, hreport, hparent, hcorpus, hcore, hash_forged]
  dsimp only
  simp only [bind_eq_ok, refuseIf_eq_ok, not_or, Bool.not_eq_false]
  exact ⟨(), rfl, (), ⟨hexEqValue_str forgedHash, hexEqValue_str forgedHash⟩, (), rfl, (),
    hexEqValue_str onesRoot, (), hexEqValue_str onesRoot, hexEqValue_str onesRoot⟩

theorem checkArtifactSeedEcho_sample :
    checkArtifactSeedEcho printWhole forgedArtifact samplePinned (some sampleSeeds) = .ok () := by
  have hblock : (forgedArtifact.field "seedDerivation").field "blockhash" = .str onesRoot := rfl
  have hgate : (forgedArtifact.field "receipt").field "gateSeed" = .str onesRoot := rfl
  have hconfirm : (forgedArtifact.field "receipt").field "confirmSeed" = .str onesRoot := rfl
  unfold checkArtifactSeedEcho
  rw [if_pos (by decide +kernel)]
  dsimp only
  rw [hblock, hgate, hconfirm]
  simp only [bind_eq_ok, refuseIf_eq_ok, Bool.not_eq_false]
  exact ⟨(), rfl, (), by decide +kernel, (), by decide +kernel, (), hexEqValue_str onesRoot, (),
    rfl, (), hexEqValue_str onesRoot, hexEqValue_str onesRoot⟩

/-- The result is accepted and its artifact echoes the seeds, but the receipt has other scores. -/
theorem verifyScorerResult_not_bound :
    ¬ ∀ (formatNumber : ℚ → String) (keccak256 : Bytes → Digest) (result : JsValue)
      (job : ScorerJobRequest) (pinned : RemoteScorerSeedContext) (seeds : ExpectedSeeds)
      (outstandingJobIds : List String) (active : RemoteScorerActiveContext)
      (expectedHealth : RemoteScorerExpectedHealth) (out : VerifiedResult),
      verifyScorerResult formatNumber keccak256 result (job.pin pinned seeds) outstandingJobIds
          active expectedHealth = .ok out →
        checkArtifactSeedEcho formatNumber out.artifact pinned (some seeds) = .ok () →
          BoundToJob formatNumber keccak256 result job active seeds out := by
  intro h
  have houtstanding : checkOutstanding printWhole sampleResult
      (sampleJob.pin samplePinned sampleSeeds) ["job-1"] = .ok () := by
    unfold checkOutstanding
    simp only [bind_eq_ok, refuseIf_eq_ok, not_not, Bool.not_eq_false]
    exact ⟨(), rfl, (), by decide +kernel, List.mem_cons_self⟩
  have hproof : checkProof tailDigest sampleResult (sampleJob.pin samplePinned sampleSeeds)
      sampleActive = .ok () := rfl
  have hthreshold : checkThreshold printWhole sampleResult sampleActive = .ok () := by
    unfold checkThreshold
    dsimp only
    simp only [bind_eq_ok, refuseIf_eq_ok]
    exact ⟨(), by decide +kernel, by decide +kernel⟩
  have hbound := h printWhole tailDigest sampleResult sampleJob samplePinned sampleSeeds ["job-1"]
    sampleActive sampleExpectedHealth _ (verifyScorerResult_eq_ok.mpr
      ⟨houtstanding, validateResultSchema_sample, checkContext_sample, checkHealth_sample, hproof,
        checkPolicyEcho_sample, hthreshold, checkArtifactBytes_sample, rfl⟩)
    checkArtifactSeedEcho_sample
  have hscore := int_of_isInt hbound.gateScore
  exact absurd hscore (by decide +kernel)

end CoreTex.EvalReport
