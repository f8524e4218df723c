import CoreTex.EvalReport.Artifact

/-!
# CoreTex.EvalReport.PostReveal

Verification of an eval report after the reveal of the epoch secret (`verifyPostRevealEvalReportArtifact`
of `replay/eval-report-artifact.ts` and `verifyPerPatchReceipt` of `replay/per-patch.ts`), and when
it is sound.

A receipt with `receivedAtBlock = 0` leaves the verifier before any seed or score is replayed, also
when it carries scores and was accepted. `verifyPostReveal_sound_iff` says that this, and a scorer
that answers `NaN`, are the only ways past it.
-/

namespace CoreTex.EvalReport

open CoreTex.Lib

/-! ### The verifier -/

/-- `which`. -/
inductive Pack
  | gate
  | confirm
  deriving DecidableEq, Repr

/-- The arguments of one call of the scorer. -/
structure ScorerArgs where
  normalizedPatchBytes : Bytes
  parentRoot : String
  evalSeed : String
  which : Pack
  deriving DecidableEq

/-- What the caller brings. `scorer` gives `scorePpm`, none where that is `NaN`, and `getBlockHash`
fails with the text of what it throws. -/
structure PostRevealDeps where
  getBlockHash : Int → Except String String
  scorer : ScorerArgs → Option Int
  epochSecret : String

/-- A result with `ok: false`, or what the promise rejects with. -/
inductive VerifyFailure
  | refused (code detail : String)
  | thrown (message : String)
  deriving DecidableEq, Repr

/-- A verified artifact; a delta is none where it is `NaN`. -/
structure VerifiedArtifact where
  artifactHash : String
  gateDeltaPpm : Option Int
  confirmDeltaPpm : Option Int
  deriving DecidableEq, Repr

/-- `Math.abs(replay - score)`. -/
def scoreDelta (replay : Option Int) (score : Int) : Option Int :=
  replay.map fun r => (r - score).natAbs

/-- `delta > tolerance`, which is false of `NaN`. -/
def beyond (delta : Option Int) (tolerance : Int) : Bool :=
  match delta with
  | some d => decide (tolerance < d)
  | none => false

/-- A score as text. -/
def scoreText : Option Int → String
  | some n => toString n
  | none => "NaN"

/-- The `hexToBytes` of the artifact module. -/
def hexToBytes (hex : String) : Except String Bytes :=
  if (clean hex).all isHexChar = false ∨ (clean hex).length % 2 ≠ 0 then
    .error "hexToBytes: malformed hex"
  else .ok (hexPairs (clean hex))

variable (keccak256 : Bytes → Digest) (formatNumber : ℚ → String)

/-- The first step of `verifyPerPatchReceipt`: the patch hash and the dedup key. -/
def checkPatchIdentity (receipt : PerPatchReceipt) (normalizedPatchBytes : Bytes) :
    Except VerifyFailure Unit := do
  let replayPatchHash := computePatchHash keccak256 normalizedPatchBytes
  refuseIf (hexEq replayPatchHash receipt.patchHash = false)
    (.refused "PATCH_HASH_MISMATCH"
      ("replay=" ++ replayPatchHash ++ " receipt=" ++ receipt.patchHash))
  let replayDedupKey ←
    (computeDedupKey keccak256 receipt.parentRoot normalizedPatchBytes).mapError .thrown
  match receipt.dedupKey with
  | none => throw (.thrown "dedupKey has no toLowerCase")
  | some dedupKey =>
    refuseIf (hexEq replayDedupKey dedupKey = false)
      (.refused "DEDUP_KEY_MISMATCH" ("replay=" ++ replayDedupKey ++ " receipt=" ++ dedupKey))

/-- What the seeds of an artifact are derived from. -/
def seedInputOf (a : EvalArtifact) (epochSecret : String) : EvalSeedInput where
  epochSecret
  blockhash := a.receipt.blockhash
  epochId := a.receipt.epochId
  patchHash := a.receipt.patchHash
  parentRoot := a.receipt.parentRoot
  corpusRoot := a.context.corpusRoot
  bundleHash := a.context.coreVersionHash

/-- The fourth step: both seeds. -/
def checkSeeds (a : EvalArtifact) (epochSecret : String) : Except VerifyFailure Unit := do
  let replayGateSeed ← (deriveGateEvalSeed keccak256 (seedInputOf a epochSecret)).mapError .thrown
  refuseIf (hexEq replayGateSeed a.receipt.gateSeed = false)
    (.refused "GATE_SEED_MISMATCH"
      ("replay=" ++ replayGateSeed ++ " receipt=" ++ a.receipt.gateSeed))
  let replayConfirmSeed ←
    (deriveConfirmEvalSeed keccak256 (seedInputOf a epochSecret)).mapError .thrown
  refuseIf (hexEq replayConfirmSeed a.receipt.confirmSeed = false)
    (.refused "CONFIRM_SEED_MISMATCH"
      ("replay=" ++ replayConfirmSeed ++ " receipt=" ++ a.receipt.confirmSeed))

/-- The scorer's answer for a pack of the receipt. -/
def replayScore (scorer : ScorerArgs → Option Int) (receipt : PerPatchReceipt)
    (normalizedPatchBytes : Bytes) : Pack → Option Int
  | .gate => scorer ⟨normalizedPatchBytes, receipt.parentRoot, receipt.gateSeed, .gate⟩
  | .confirm => scorer ⟨normalizedPatchBytes, receipt.parentRoot, receipt.confirmSeed, .confirm⟩

def PerPatchReceipt.scorePpm (receipt : PerPatchReceipt) : Pack → Int
  | .gate => receipt.gateScorePpm
  | .confirm => receipt.confirmScorePpm

def beyondCode : Pack → String
  | .gate => "GATE_SCORE_BEYOND_TOLERANCE"
  | .confirm => "CONFIRM_SCORE_BEYOND_TOLERANCE"

/-- The fifth step, for one pack. -/
def checkScore (scorer : ScorerArgs → Option Int) (a : EvalArtifact) (normalizedPatchBytes : Bytes)
    (pack : Pack) : Except VerifyFailure (Option Int) := do
  let replay := replayScore scorer a.receipt normalizedPatchBytes pack
  let delta := scoreDelta replay (a.receipt.scorePpm pack)
  refuseIf (beyond delta a.context.replayTolerancePpm = true)
    (.refused (beyondCode pack) ("coordinator=" ++ toString (a.receipt.scorePpm pack) ++
      " replay=" ++ scoreText replay ++ " delta=" ++ scoreText delta ++ " tolerance=" ++
      toString a.context.replayTolerancePpm))
  return delta

/-- `verifyPerPatchReceipt`, over the receipt of an artifact. -/
def verifyPerPatchReceipt (a : EvalArtifact) (normalizedPatchBytes : Bytes)
    (deps : PostRevealDeps) : Except VerifyFailure (Option Int × Option Int) := do
  checkPatchIdentity keccak256 a.receipt normalizedPatchBytes
  if a.receipt.receivedAtBlock = 0 then return (some 0, some 0)
  match deps.getBlockHash a.receipt.targetBlock with
  | .error message => throw (.refused "RPC_ERROR" message)
  | .ok chainBlockhash =>
    refuseIf (hexEq chainBlockhash a.receipt.blockhash = false)
      (.refused "BLOCKHASH_MISMATCH"
        ("chain=" ++ chainBlockhash ++ " receipt=" ++ a.receipt.blockhash))
    checkSeeds keccak256 a deps.epochSecret
    let gateDeltaPpm ← checkScore deps.scorer a normalizedPatchBytes .gate
    let confirmDeltaPpm ← checkScore deps.scorer a normalizedPatchBytes .confirm
    return (gateDeltaPpm, confirmDeltaPpm)

/-- What `verifyPostRevealEvalReportArtifact` checks before it turns to the receipt: the hash of the
artifact and the bytes of its patch. -/
def checkArtifact (artifact : JsValue) (epochSecret : String) :
    Except VerifyFailure (String × Bytes) := do
  (validateArtifactShape artifact).mapError (.refused "EVAL_ARTIFACT_MALFORMED")
  let a := EvalArtifact.read artifact
  match hashPostRevealEvalReportArtifact formatNumber keccak256 artifact with
  | none => throw (.thrown "canonicalJson: non-finite number would silently hash as null")
  | some hash =>
    refuseIf (hash ≠ a.artifactHash.toLower)
      (.refused "EVAL_ARTIFACT_HASH_MISMATCH" (hash ++ " != " ++ a.artifactHash))
    refuseIf (a.evalReportHash.toLower ≠ a.artifactHash.toLower)
      (.refused "EVAL_REPORT_HASH_MISMATCH"
        ("evalReportHash " ++ a.evalReportHash ++ " != artifactHash " ++ a.artifactHash))
    (validateSeedDerivationBinding a).mapError (.refused "EVAL_ARTIFACT_SEED_INPUTS_MISMATCH")
    refuseIf (a.receipt.accepted = false)
      (.refused "EVAL_ARTIFACT_THRESHOLD_VIOLATION" "accepted outcome with non-accepted receipt")
    refuseIf (min a.receipt.gateScorePpm a.receipt.confirmScorePpm < a.thresholdPpm)
      (.refused "EVAL_ARTIFACT_THRESHOLD_VIOLATION" ("min(gate=" ++
        toString a.receipt.gateScorePpm ++ ", confirm=" ++ toString a.receipt.confirmScorePpm ++
        ") < thresholdPpm=" ++ toString a.thresholdPpm))
    let secret ← (hexToBytes epochSecret).mapError .thrown
    let secretCommit := (bytesToHex (keccak256 secret).bytes).toLower
    refuseIf (secretCommit ≠ a.context.hiddenSeedCommit.toLower)
      (.refused "EPOCH_SECRET_COMMIT_MISMATCH"
        (secretCommit ++ " != " ++ a.context.hiddenSeedCommit))
    let compactPatchBytes ← (hexToBytes a.compactPatchBytesHex).mapError .thrown
    return (hash, compactPatchBytes)

/-- `verifyPostRevealEvalReportArtifact`. -/
def verifyPostRevealEvalReportArtifact (artifact : JsValue) (deps : PostRevealDeps) :
    Except VerifyFailure VerifiedArtifact := do
  let (artifactHash, compactPatchBytes) ←
    checkArtifact keccak256 formatNumber artifact deps.epochSecret
  let (gateDeltaPpm, confirmDeltaPpm) ←
    verifyPerPatchReceipt keccak256 (.read artifact) compactPatchBytes deps
  return { artifactHash, gateDeltaPpm, confirmDeltaPpm }

/-! ### What an accepted artifact should mean -/

/-- The artifact is what the secret, the chain and the scorer say it is. -/
structure ReplaySound (a : EvalArtifact) (deps : PostRevealDeps) : Prop where
  secret : ∃ secret, hexToBytes deps.epochSecret = .ok secret ∧
    hexEq (bytesToHex (keccak256 secret).bytes) a.context.hiddenSeedCommit = true
  binding : validateSeedDerivationBinding a = .ok ()
  targetBlock : a.receipt.targetBlock =
    a.receipt.receivedAtBlock + a.seedDerivation.targetBlockOffset
  blockhash : ∃ h, deps.getBlockHash a.receipt.targetBlock = .ok h ∧
    hexEq h a.receipt.blockhash = true
  gateSeed : ∃ seed, deriveGateEvalSeed keccak256 (seedInputOf a deps.epochSecret) = .ok seed ∧
    hexEq seed a.receipt.gateSeed = true
  confirmSeed : ∃ seed, deriveConfirmEvalSeed keccak256 (seedInputOf a deps.epochSecret) =
    .ok seed ∧ hexEq seed a.receipt.confirmSeed = true
  scores : ∃ bytes, hexToBytes a.compactPatchBytesHex = .ok bytes ∧
    hexEq (computePatchHash keccak256 bytes) a.receipt.patchHash = true ∧
    ∀ pack, ∃ score, replayScore deps.scorer a.receipt bytes pack = some score ∧
      (score - a.receipt.scorePpm pack).natAbs ≤ a.context.replayTolerancePpm
  threshold : ∀ pack, a.thresholdPpm ≤ a.receipt.scorePpm pack

/-- The scorer answers `NaN` for a pack and nothing beyond the tolerance for the other. -/
def BlindScore (scorer : ScorerArgs → Option Int) (a : EvalArtifact) (bytes : Bytes) : Prop :=
  (∀ pack, beyond (scoreDelta (replayScore scorer a.receipt bytes pack) (a.receipt.scorePpm pack))
    a.context.replayTolerancePpm = false) ∧ ∃ pack, replayScore scorer a.receipt bytes pack = none

/-- An artifact that passes all that is checked before the early exit drew a seed, and its scores
are not compared with `NaN`. -/
def ReplayGuarded (artifact : JsValue) (epochSecret : String)
    (scorer : ScorerArgs → Option Int) : Prop :=
  let a := EvalArtifact.read artifact
  ∀ hash bytes, checkArtifact keccak256 formatNumber artifact epochSecret = .ok (hash, bytes) →
    checkPatchIdentity keccak256 a.receipt bytes = .ok () →
      a.receipt.receivedAtBlock ≠ 0 ∧
        ¬ (checkSeeds keccak256 a epochSecret = .ok () ∧ BlindScore scorer a bytes)

variable {keccak256 formatNumber}

/-- `mapError` changes no success. -/
theorem mapError_eq_ok {ε ε' α : Type} {f : ε → ε'} {x : Except ε α} {a : α} :
    x.mapError f = .ok a ↔ x = .ok a := by
  cases x <;> simp [Except.mapError]

theorem validateSeedDerivationBinding_targetBlock {a : EvalArtifact}
    (h : validateSeedDerivationBinding a = .ok ()) :
    a.receipt.targetBlock = a.receipt.receivedAtBlock + a.seedDerivation.targetBlockOffset := by
  unfold validateSeedDerivationBinding at h
  simp only [refuseIf_bind_eq_ok, not_not] at h
  obtain ⟨-, hreceived, htarget, hsum, -⟩ := h
  rw [← htarget, ← hreceived, hsum]

/-- What the checks of the artifact leave. -/
theorem checkArtifact_inv {artifact : JsValue} {epochSecret hash : String} {bytes : Bytes}
    (h : checkArtifact keccak256 formatNumber artifact epochSecret = .ok (hash, bytes)) :
    (∃ secret, hexToBytes epochSecret = .ok secret ∧
      hexEq (bytesToHex (keccak256 secret).bytes)
        (EvalArtifact.read artifact).context.hiddenSeedCommit = true) ∧
    validateSeedDerivationBinding (.read artifact) = .ok () ∧
    (∀ pack, (EvalArtifact.read artifact).thresholdPpm ≤
      (EvalArtifact.read artifact).receipt.scorePpm pack) ∧
    hexToBytes (EvalArtifact.read artifact).compactPatchBytesHex = .ok bytes := by
  unfold checkArtifact at h
  rw [bind_eq_ok] at h
  obtain ⟨-, -, h⟩ := h
  dsimp only at h
  cases hhash : hashPostRevealEvalReportArtifact formatNumber keccak256 artifact with
  | none =>
      rw [hhash] at h
      cases h
  | some text =>
      rw [hhash] at h
      dsimp only at h
      rw [refuseIf_bind_eq_ok, refuseIf_bind_eq_ok] at h
      obtain ⟨-, -, h⟩ := h
      rw [bind_eq_ok] at h
      obtain ⟨u, hbinding, h⟩ := h
      rw [refuseIf_bind_eq_ok, refuseIf_bind_eq_ok] at h
      obtain ⟨-, hmin, h⟩ := h
      rw [bind_eq_ok] at h
      obtain ⟨secret, hsecret, h⟩ := h
      rw [refuseIf_bind_eq_ok, not_not] at h
      obtain ⟨hcommit, h⟩ := h
      rw [bind_eq_ok] at h
      obtain ⟨patchBytes, hpatch, h⟩ := h
      rw [pure_eq_ok, Prod.mk.injEq] at h
      obtain ⟨-, rfl⟩ := h
      refine ⟨⟨secret, mapError_eq_ok.mp hsecret, decide_eq_true hcommit⟩,
        mapError_eq_ok.mp hbinding, fun pack => ?_, mapError_eq_ok.mp hpatch⟩
      cases pack <;> simp only [PerPatchReceipt.scorePpm] <;> omega

/-- An artifact with nothing to refuse. -/
theorem checkArtifact_of {artifact : JsValue} {epochSecret hash : String} {secret bytes : Bytes}
    (hshape : validateArtifactShape artifact = .ok ())
    (hhash : hashPostRevealEvalReportArtifact formatNumber keccak256 artifact = some hash)
    (hown : hash = (EvalArtifact.read artifact).artifactHash.toLower)
    (hreport : (EvalArtifact.read artifact).evalReportHash.toLower =
      (EvalArtifact.read artifact).artifactHash.toLower)
    (hbinding : validateSeedDerivationBinding (.read artifact) = .ok ())
    (haccepted : (EvalArtifact.read artifact).receipt.accepted = true)
    (hmin : (EvalArtifact.read artifact).thresholdPpm ≤
      min (EvalArtifact.read artifact).receipt.gateScorePpm
        (EvalArtifact.read artifact).receipt.confirmScorePpm)
    (hsecret : hexToBytes epochSecret = .ok secret)
    (hcommit : (bytesToHex (keccak256 secret).bytes).toLower =
      (EvalArtifact.read artifact).context.hiddenSeedCommit.toLower)
    (hpatch : hexToBytes (EvalArtifact.read artifact).compactPatchBytesHex = .ok bytes) :
    checkArtifact keccak256 formatNumber artifact epochSecret = .ok (hash, bytes) := by
  have hown' : ¬ hash ≠ (EvalArtifact.read artifact).artifactHash.toLower := not_not.mpr hown
  unfold checkArtifact
  rw [hshape, mapError_eq_ok.mpr rfl, ok_bind]
  dsimp only
  rw [hhash]
  dsimp only
  rw [refuseIf_of_not hown', ok_bind, refuseIf_of_not (not_not.mpr hreport), ok_bind, hbinding,
    mapError_eq_ok.mpr rfl, ok_bind, refuseIf_of_not (by simp [haccepted]), ok_bind,
    refuseIf_of_not (Int.not_lt.mpr hmin), ok_bind, hsecret, mapError_eq_ok.mpr rfl, ok_bind]
  rw [refuseIf_of_not (not_not.mpr hcommit), ok_bind, hpatch, mapError_eq_ok.mpr rfl, ok_bind]
  rfl

theorem checkPatchIdentity_inv {receipt : PerPatchReceipt} {bytes : Bytes}
    (h : checkPatchIdentity keccak256 receipt bytes = .ok ()) :
    hexEq (computePatchHash keccak256 bytes) receipt.patchHash = true := by
  unfold checkPatchIdentity at h
  rw [refuseIf_bind_eq_ok, Bool.not_eq_false] at h
  exact h.1

theorem checkSeeds_inv {a : EvalArtifact} {epochSecret : String}
    (h : checkSeeds keccak256 a epochSecret = .ok ()) :
    (∃ seed, deriveGateEvalSeed keccak256 (seedInputOf a epochSecret) = .ok seed ∧
      hexEq seed a.receipt.gateSeed = true) ∧
    ∃ seed, deriveConfirmEvalSeed keccak256 (seedInputOf a epochSecret) = .ok seed ∧
      hexEq seed a.receipt.confirmSeed = true := by
  unfold checkSeeds at h
  rw [bind_eq_ok] at h
  obtain ⟨gate, hgate, h⟩ := h
  rw [refuseIf_bind_eq_ok, bind_eq_ok] at h
  obtain ⟨hgateEq, confirm, hconfirm, h⟩ := h
  rw [refuseIf_eq_ok] at h
  exact ⟨⟨gate, mapError_eq_ok.mp hgate, by simpa using hgateEq⟩,
    confirm, mapError_eq_ok.mp hconfirm, by simpa using h⟩

theorem checkScore_eq_ok {scorer : ScorerArgs → Option Int} {a : EvalArtifact} {bytes : Bytes}
    {pack : Pack} {delta : Option Int} :
    checkScore scorer a bytes pack = .ok delta ↔
      delta = scoreDelta (replayScore scorer a.receipt bytes pack) (a.receipt.scorePpm pack) ∧
        beyond (scoreDelta (replayScore scorer a.receipt bytes pack) (a.receipt.scorePpm pack))
          a.context.replayTolerancePpm = false := by
  unfold checkScore
  dsimp only
  rw [refuseIf_bind_eq_ok, pure_eq_ok, Bool.not_eq_true, eq_comm, and_comm]
  exact and_congr_left fun _ => eq_comm

/-- The replay of block hash, seeds and scores, when it finds nothing. -/
structure Replays (keccak256 : Bytes → Digest) (a : EvalArtifact) (bytes : Bytes)
    (deps : PostRevealDeps) : Prop where
  blockhash : ∃ h, deps.getBlockHash a.receipt.targetBlock = .ok h ∧
    hexEq h a.receipt.blockhash = true
  seeds : checkSeeds keccak256 a deps.epochSecret = .ok ()
  within : ∀ pack, beyond (scoreDelta (replayScore deps.scorer a.receipt bytes pack)
    (a.receipt.scorePpm pack)) a.context.replayTolerancePpm = false

/-- A receipt passes by the early exit or by the replay. -/
theorem verifyPerPatchReceipt_isOk {a : EvalArtifact} {bytes : Bytes} {deps : PostRevealDeps} :
    (∃ deltas, verifyPerPatchReceipt keccak256 a bytes deps = .ok deltas) ↔
      checkPatchIdentity keccak256 a.receipt bytes = .ok () ∧
        (a.receipt.receivedAtBlock = 0 ∨
          a.receipt.receivedAtBlock ≠ 0 ∧ Replays keccak256 a bytes deps) := by
  unfold verifyPerPatchReceipt
  constructor
  · rintro ⟨deltas, h⟩
    rw [bind_eq_ok] at h
    obtain ⟨u, hidentity, h⟩ := h
    refine ⟨hidentity, ?_⟩
    by_cases hzero : a.receipt.receivedAtBlock = 0
    · exact .inl hzero
    · rw [if_neg hzero] at h
      cases hblock : deps.getBlockHash a.receipt.targetBlock with
      | error message =>
          rw [hblock] at h
          cases h
      | ok chainBlockhash =>
          rw [hblock] at h
          dsimp only at h
          rw [refuseIf_bind_eq_ok, bind_eq_ok] at h
          obtain ⟨heq, v, hseeds, h⟩ := h
          rw [bind_eq_ok] at h
          obtain ⟨gate, hgate, h⟩ := h
          rw [bind_eq_ok] at h
          obtain ⟨confirm, hconfirm, -⟩ := h
          refine .inr ⟨hzero, ⟨chainBlockhash, hblock, by simpa using heq⟩, hseeds, fun pack => ?_⟩
          cases pack with
          | gate => exact (checkScore_eq_ok.mp hgate).2
          | confirm => exact (checkScore_eq_ok.mp hconfirm).2
  · rintro ⟨hidentity, hzero | ⟨hdrew, ⟨chainBlockhash, hblock, heq⟩, hseeds, hwithin⟩⟩
    · rw [hidentity, ok_bind, if_pos hzero]
      exact ⟨_, rfl⟩
    · have hgate := checkScore_eq_ok.mpr ⟨rfl, hwithin .gate⟩
      have hconfirm := checkScore_eq_ok.mpr ⟨rfl, hwithin .confirm⟩
      rw [hidentity, ok_bind, if_neg hdrew, hblock]
      dsimp only
      rw [refuseIf_of_not (by simp [heq]), ok_bind, hseeds, ok_bind, hgate, ok_bind, hconfirm,
        ok_bind]
      exact ⟨_, rfl⟩

/-- The ends of a run that accepts. -/
theorem verifyPostReveal_isOk {artifact : JsValue} {deps : PostRevealDeps} :
    (∃ out, verifyPostRevealEvalReportArtifact keccak256 formatNumber artifact deps = .ok out) ↔
      ∃ hash bytes, checkArtifact keccak256 formatNumber artifact deps.epochSecret =
          .ok (hash, bytes) ∧
        ∃ deltas, verifyPerPatchReceipt keccak256 (.read artifact) bytes deps = .ok deltas := by
  unfold verifyPostRevealEvalReportArtifact
  constructor
  · rintro ⟨out, h⟩
    rw [bind_eq_ok] at h
    obtain ⟨⟨hash, bytes⟩, hcheck, h⟩ := h
    rw [bind_eq_ok] at h
    obtain ⟨deltas, hdeltas, -⟩ := h
    exact ⟨hash, bytes, hcheck, deltas, hdeltas⟩
  · rintro ⟨hash, bytes, hcheck, deltas, hdeltas⟩
    rw [hcheck, ok_bind]
    dsimp only
    rw [hdeltas, ok_bind]
    exact ⟨_, rfl⟩

/-- **Verification is sound exactly when nothing leaves it early**: for an artifact, a secret and a
scorer, every chain for which the verifier accepts agrees with the artifact, if and only if an
artifact that comes as far as the early exit does not take it. -/
theorem verifyPostReveal_sound_iff (keccak256 : Bytes → Digest) (formatNumber : ℚ → String)
    (artifact : JsValue) (epochSecret : String) (scorer : ScorerArgs → Option Int) :
    (∀ getBlockHash out, verifyPostRevealEvalReportArtifact keccak256 formatNumber artifact
        ⟨getBlockHash, scorer, epochSecret⟩ = .ok out →
      ReplaySound keccak256 (.read artifact) ⟨getBlockHash, scorer, epochSecret⟩) ↔
    ReplayGuarded keccak256 formatNumber artifact epochSecret scorer := by
  constructor
  · intro hsound hash bytes hcheck hidentity
    have hdrew : (EvalArtifact.read artifact).receipt.receivedAtBlock ≠ 0 := by
      intro hzero
      -- a chain that answers nothing is not asked
      let deps : PostRevealDeps := ⟨fun _ => .error "", scorer, epochSecret⟩
      obtain ⟨out, hout⟩ := (@verifyPostReveal_isOk keccak256 formatNumber artifact deps).mpr
        ⟨hash, bytes, hcheck, verifyPerPatchReceipt_isOk.mpr ⟨hidentity, .inl hzero⟩⟩
      obtain ⟨h, hh, -⟩ := (hsound _ out hout).blockhash
      cases hh
    refine ⟨hdrew, ?_⟩
    rintro ⟨hseeds, hwithin, pack, hnan⟩
    -- the chain that agrees with the receipt
    let deps : PostRevealDeps :=
      ⟨fun _ => .ok (EvalArtifact.read artifact).receipt.blockhash, scorer, epochSecret⟩
    have hreplays : Replays keccak256 (.read artifact) bytes deps :=
      ⟨⟨_, rfl, decide_eq_true rfl⟩, hseeds, hwithin⟩
    obtain ⟨out, hout⟩ := (@verifyPostReveal_isOk keccak256 formatNumber artifact deps).mpr
      ⟨hash, bytes, hcheck, verifyPerPatchReceipt_isOk.mpr ⟨hidentity, .inr ⟨hdrew, hreplays⟩⟩⟩
    obtain ⟨bytes', hbytes', -, hscores⟩ := (hsound _ out hout).scores
    obtain ⟨score, hscore, -⟩ := hscores pack
    obtain ⟨-, -, -, hpatch⟩ := checkArtifact_inv hcheck
    rw [hpatch, Except.ok.injEq] at hbytes'
    subst hbytes'
    rw [hnan] at hscore
    cases hscore
  · intro hguarded getBlockHash out hout
    obtain ⟨hash, bytes, hcheck, hreceipt⟩ := verifyPostReveal_isOk.mp ⟨out, hout⟩
    obtain ⟨hidentity, hend⟩ := verifyPerPatchReceipt_isOk.mp hreceipt
    obtain ⟨hdrew, hblind⟩ := hguarded hash bytes hcheck hidentity
    obtain ⟨-, hreplays⟩ := hend.resolve_left hdrew
    obtain ⟨hsecret, hbinding, hthreshold, hpatch⟩ := checkArtifact_inv hcheck
    obtain ⟨hgate, hconfirm⟩ := checkSeeds_inv hreplays.seeds
    refine ⟨hsecret, hbinding, validateSeedDerivationBinding_targetBlock hbinding,
      hreplays.blockhash, hgate, hconfirm,
      ⟨bytes, hpatch, checkPatchIdentity_inv hidentity, fun pack => ?_⟩, hthreshold⟩
    have hdelta := hreplays.within pack
    dsimp only at hdelta
    cases hscore : replayScore scorer (EvalArtifact.read artifact).receipt bytes pack with
    | none => exact absurd ⟨hreplays.seeds, hreplays.within, pack, hscore⟩ hblind
    | some score =>
        simp only [hscore, scoreDelta, Option.map_some, beyond, decide_eq_false_iff_not] at hdelta
        exact ⟨score, rfl, by omega⟩

/-! ### A forged artifact -/

/-- A word of text. -/
def onesRoot : String :=
  "0x" ++ String.ofList (List.replicate 64 '1')

def zerosRoot : String :=
  "0x" ++ String.ofList (List.replicate 64 '0')

def forgedMiner : String :=
  "0x" ++ String.ofList (List.replicate 40 '1')

/-- Prints a whole number. -/
def printWhole (q : ℚ) : String :=
  toString q.num

def forgedReceipt : JsValue :=
  .obj [("epochId", .ofInt 7), ("parentRoot", .str onesRoot), ("minerAddress", .str forgedMiner),
    ("patchHash", .str (computePatchHash tailDigest [])), ("dedupKey", .str onesRoot),
    ("receivedAtBlock", .ofInt 0), ("targetBlock", .ofInt 5), ("blockhash", .str onesRoot),
    ("gateSeed", .str onesRoot), ("confirmSeed", .str onesRoot), ("gateScorePpm", .ofInt 900000),
    ("confirmScorePpm", .ofInt 900000), ("accepted", .bool true)]

def forgedFields : List (String × JsValue) :=
  [("version", .str "coretex-post-reveal-eval-report-v1"), ("epochId", .ofInt 7),
    ("minerAddress", .str forgedMiner), ("outcome", .str "SCREENER_PASS"),
    ("compactPatchBytesHex", .str "0x"), ("thresholdPpm", .ofInt 1000),
    ("seedDerivation", .obj [("mode", .str "future_blockhash_dual_pack"), ("epochId", .ofInt 7),
      ("receivedAtBlock", .ofInt 0), ("targetBlock", .ofInt 5), ("targetBlockOffset", .ofInt 5),
      ("blockhash", .str onesRoot), ("patchHash", .str (computePatchHash tailDigest [])),
      ("parentStateRoot", .str onesRoot), ("corpusRoot", .str onesRoot),
      ("bundleHash", .str onesRoot)]),
    ("receipt", forgedReceipt),
    ("context", .obj [("parentStateRoot", .str onesRoot), ("corpusRoot", .str onesRoot),
      ("coreVersionHash", .str onesRoot), ("hiddenSeedCommit", .str zerosRoot),
      ("replayTolerancePpm", .ofInt 0)])]

/-- The hash of the fields. -/
def forgedHash : String :=
  "0x7465782d706f73742d72657665616c2d6576616c2d7265706f72742d7631227d"

/-- An accepted artifact whose seeds and scores are made up, with its own hash. -/
def forgedArtifact : JsValue :=
  .obj (forgedFields ++ [("artifactHash", .str forgedHash), ("evalReportHash", .str forgedHash)])

theorem of_isSome {x : Except String Unit} (h : x.toOption.isSome = true) : x = .ok () := by
  cases x with
  | ok u => rfl
  | error e => cases h

theorem validateArtifactShape_forged : validateArtifactShape forgedArtifact = .ok () := by
  unfold validateArtifactShape
  simp only [bind_eq_ok, refuseIf_eq_ok]
  refine ⟨(), by decide +kernel, (), by decide +kernel, (), by decide +kernel, (),
    by decide +kernel, (), by decide +kernel, (), by decide +kernel, (), by decide +kernel, (),
    by decide +kernel, (), by decide +kernel, (), by decide +kernel, (), by decide +kernel, (),
    of_isSome (by decide +kernel), (), of_isSome (by decide +kernel), (), by decide +kernel, (),
    of_isSome (by decide +kernel), (), by decide +kernel, (), by decide +kernel, (),
    by decide +kernel, (), by decide +kernel, (), by decide +kernel, (),
    of_isSome (by decide +kernel), (), of_isSome (by decide +kernel), (), by decide +kernel, (), ?_,
    ?_⟩
  · exact not_not.mpr rfl
  · exact not_not.mpr rfl

theorem validateSeedDerivationBinding_forged :
    validateSeedDerivationBinding (.read forgedArtifact) = .ok () := by
  have hsame : ∀ s : String, ¬ hexEq s s = false := fun s => by simp [hexEq]
  unfold validateSeedDerivationBinding
  simp only [bind_eq_ok, refuseIf_eq_ok]
  refine ⟨(), by decide +kernel, (), by decide +kernel, (), by decide +kernel, (),
    by decide +kernel, (), hsame onesRoot, (), hsame (computePatchHash tailDigest []), (),
    hsame onesRoot, (), hsame onesRoot, (), hsame onesRoot, hsame onesRoot⟩

theorem toLower_forgedHash : forgedHash.toLower = forgedHash := by decide +kernel

theorem hash_forged : hashPostRevealEvalReportArtifact printWhole tailDigest forgedArtifact =
    some forgedHash := by decide +kernel

theorem commit_forged : bytesToHex (tailDigest []).bytes = zerosRoot := by decide +kernel

theorem checkArtifact_forged :
    checkArtifact tailDigest printWhole forgedArtifact "0x" = .ok (forgedHash, []) := by
  have hscores : (EvalArtifact.read forgedArtifact).thresholdPpm ≤
      min (EvalArtifact.read forgedArtifact).receipt.gateScorePpm
        (EvalArtifact.read forgedArtifact).receipt.confirmScorePpm := by decide +kernel
  exact checkArtifact_of validateArtifactShape_forged hash_forged toLower_forgedHash.symm rfl
    validateSeedDerivationBinding_forged rfl hscores rfl (congrArg String.toLower commit_forged) rfl

theorem checkPatchIdentity_forged :
    checkPatchIdentity tailDigest (EvalArtifact.read forgedArtifact).receipt [] = .ok () := by
  have hhash : (EvalArtifact.read forgedArtifact).receipt.patchHash =
    computePatchHash tailDigest [] := rfl
  have hparent : (EvalArtifact.read forgedArtifact).receipt.parentRoot = onesRoot := rfl
  have hdedup : (EvalArtifact.read forgedArtifact).receipt.dedupKey = some onesRoot := rfl
  have hkey : computeDedupKey tailDigest onesRoot [] = .ok onesRoot :=
    toOption_eq_some.mp (by decide +kernel)
  have hsame : ∀ s : String, ¬ hexEq s s = false := fun s => by simp [hexEq]
  unfold checkPatchIdentity
  dsimp only
  rw [hhash, hparent, hdedup, hkey, refuseIf_of_not (hsame _), ok_bind, mapError_eq_ok.mpr rfl,
    ok_bind]
  exact refuseIf_of_not (hsame _) _

/-- The forged artifact is accepted with no chain to speak of. -/
theorem verifyPostReveal_forged :
    ¬ ∀ (keccak256 : Bytes → Digest) (formatNumber : ℚ → String) (artifact : JsValue)
      (deps : PostRevealDeps) (out : VerifiedArtifact),
      verifyPostRevealEvalReportArtifact keccak256 formatNumber artifact deps = .ok out →
        ReplaySound keccak256 (.read artifact) deps := by
  intro h
  let deps : PostRevealDeps := ⟨fun _ => .error "", fun _ => some 0, "0x"⟩
  have hzero : (EvalArtifact.read forgedArtifact).receipt.receivedAtBlock = 0 := rfl
  obtain ⟨out, hout⟩ := (@verifyPostReveal_isOk tailDigest printWhole forgedArtifact deps).mpr
    ⟨forgedHash, [], checkArtifact_forged,
      verifyPerPatchReceipt_isOk.mpr ⟨checkPatchIdentity_forged, .inl hzero⟩⟩
  obtain ⟨answer, hanswer, -⟩ := (h _ _ _ _ out hout).blockhash
  cases hanswer

end CoreTex.EvalReport
