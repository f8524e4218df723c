import CoreTex.Eval.Artifact

/-!
# CoreTex.Eval.ValidateArtifact

Fail-closed structural validation of the evaluation artifact (`eval_artifact.py`), one
function for each block.

`validateArtifact_eq_ok` splits a successful validation into its blocks, so a proof about
one block does not see the others.
-/

namespace CoreTex

open CoreTex.Lib

/-! ### Field checks -/

/-- A name in brackets, as a field path spells it. -/
def bracketed (name : String) : String :=
  "['" ++ name ++ "']"

/-- `_check_int`, at its bounds. -/
def checkInt (value : Int) (field : String) (minimum maximum : Int) :
    Except EvalArtifactError Unit :=
  refuseIf (value < minimum ∨ maximum < value) (.value field)

/-- `_check_str`. -/
def checkStr (value : PyStr) (field : String) : Except EvalArtifactError Unit :=
  refuseIf (value = []) (.value field)

@[simp] theorem checkInt_eq_ok {value minimum maximum : Int} {field : String} {u : Unit} :
    checkInt value field minimum maximum = .ok u ↔ minimum ≤ value ∧ value ≤ maximum := by
  rw [checkInt, refuseIf_eq_ok, not_or, Int.not_lt, Int.not_lt]

@[simp] theorem checkStr_eq_ok {value : PyStr} {field : String} {u : Unit} :
    checkStr value field = .ok u ↔ value ≠ [] := by
  rw [checkStr, refuseIf_eq_ok]

/-- A dictionary of checked integers under checked names. -/
def checkObjectives (objectives : Dict Int) (path : String) : Except EvalArtifactError Unit := do
  refuseIf (objectives.entries = []) (.type path)
  objectives.entries.forM fun e => do
    checkStr e.1 (path ++ " key")
    checkInt e.2 path 0 maxUint64

/-- `_validate_vector`. -/
def validateVector (vector : AbsoluteVector) (path : String) (profileId : ProfileId) :
    Except EvalArtifactError Unit := do
  vector.integers.forM fun e => checkInt e.2 (path ++ "." ++ e.1) 0 maxUint64
  checkObjectives vector.objectivesMicro (path ++ ".objectives_micro")
  refuseIf (vector.objectivesMicro.keys ≠ declaredObjectives profileId)
    (.schema (path ++ ".objectives_micro"))

/-! ### The blocks of the fixed suite -/

/-- The projection of an admit carries its class and its gain, that of a reject neither. -/
def validateAdmissionProjection (admitted : Bool) (projection : AdmissionProjection) :
    Except EvalArtifactError Unit := do
  if admitted then
    refuseIf (projection.progressClass = none ∨ projection.scoreAfterPpm = none)
      (.schema "admission_projection")
    checkInt projection.scoreBeforePpm "admission_projection.score_before_ppm" 0 maxUint32
    refuseIf (projection.scoreBeforePpm ≠ 0) (.value "admission_projection.score_before_ppm")
    refuseIf (projection.progressClass ≠ some (py "quality") ∧
      projection.progressClass ≠ some (py "efficiency")) (.value "admission_projection.class")
    checkInt (projection.scoreAfterPpm.getD 0) "admission_projection.score_after_ppm" 1 1000000
  else
    refuseIf (projection.progressClass ≠ none ∨ projection.scoreAfterPpm ≠ none)
      (.schema "admission_projection")
    checkInt projection.scoreBeforePpm "admission_projection.score_before_ppm" 0 maxUint32
    refuseIf (projection.scoreBeforePpm ≠ 0) (.value "admission_projection.score_before_ppm")

/-- One case of the suite block, at its index. -/
def validateSuiteCase (case : SuiteCase) (index : Nat) (path : String) (profileId : ProfileId) :
    Except EvalArtifactError Unit := do
  checkInt case.suiteIndex (path ++ ".suite_index") 0 maxUint64
  refuseIf (case.suiteIndex ≠ index) (.schema (path ++ ".suite_index"))
  checkInt case.seed (path ++ ".seed") 0 (2 ^ 31 - 1)
  checkStr case.scale (path ++ ".scale")
  checkStr case.instanceId (path ++ ".instance_id")
  refuseIf (case.profileId ≠ profileId) (.schema (path ++ ".profile_id"))

/-- The suite block. No instance repeats within or across the partitions. -/
def validateSuiteBlock (suite : SuiteBlock) (profileId : ProfileId) :
    Except EvalArtifactError Unit := do
  refuseIf (suite.format ≠ py suiteFormat) (.schema "suite.format")
  refuseIf (suite.lawId ≠ py fixedSuiteLawId) (.schema "suite.law_id")
  checkStr suite.suiteVersion "suite.suite_version"
  refuseIf (suite.profileId ≠ profileId) (.schema "suite.profile_id")
  refuseIf (suite.scales = [] ∨ [] ∈ suite.scales) (.type "suite.scales")
  selectionLabels.forM fun label => do
    checkInt (suite.counts label) ("suite.counts" ++ bracketed label.name) 1 maxUint64
    let cases := suite.cases label
    let path := "suite.cases" ++ bracketed label.name
    refuseIf ((cases.length : Int) ≠ suite.counts label) (.schema path)
    cases.zipIdx.forM fun e => validateSuiteCase e.1 e.2 path profileId
  refuseIf (¬ ((suite.cases .gate ++ suite.cases .confirm).map SuiteCase.instanceId).Nodup)
    (.schema "suite.cases")

/-- `witness_root`. -/
def witnessRoot (witness : DeterminismWitness) : Except EvalArtifactError Root := do
  let bytes ← frontierCall (canonicalBytes (.obj witness.body))
  .ok (sha256Hex bytes)

/-- `validate_parent_stored_vector`. -/
def validateParentStoredVector (canonical : CanonicalSuite) (witness : DeterminismWitness)
    (expectedProfileId : ProfileId) (expectedReleaseRoot expectedSuiteRoot : Root) :
    Except EvalArtifactError Unit := do
  refuseIf (witness.lawId ≠ py fixedSuiteLawId) (.schema "parent_stored_vector.law_id")
  refuseIf (witness.suiteRoot ≠ expectedSuiteRoot) (.schema "parent_stored_vector.suite_root")
  refuseIf (witness.profileId ≠ expectedProfileId) (.schema "parent_stored_vector.profile_id")
  refuseIf (witness.releaseRoot ≠ expectedReleaseRoot)
    (.determinismWitnessMismatch "parent_stored_vector.release_root")
  refuseIf (witness.sourceKind ≠ py "genesis" ∧ witness.sourceKind ≠ py "prior_accept")
    (.value "parent_stored_vector.source_kind")
  selectionLabels.forM fun label => do
    let path := "parent_stored_vector.partitions" ++ bracketed label.name
    validateVector (witness.partitions label) path expectedProfileId
    let floor ← suiteCall (canonical.genesisFloorVector expectedProfileId label)
    refuseIf ((witness.partitions label).suiteBlockId ≠ floor.suiteBlockId)
      (.schema (path ++ ".suite_block_id"))
    resourceAxes.forM fun axis =>
      refuseIf ((witness.partitions label).envelope axis ≠ floor.envelope axis)
        (.schema (path ++ "." ++ axis.capKey))
  let recomputed ← witnessRoot witness
  refuseIf (witness.witnessRoot ≠ recomputed) (.schema "parent_stored_vector.witness_root")

/-- The genesis floor block. -/
def validateGenesisFloorBlock (floor : GenesisFloorBlock) (suiteRoot : Root)
    (profileId : ProfileId) : Except EvalArtifactError Unit := do
  refuseIf (floor.status ≠ py "resolved") (.value "genesis_floor.status")
  refuseIf (floor.suiteRoot ≠ suiteRoot) (.schema "genesis_floor.suite_root")
  checkStr floor.source "genesis_floor.source"
  selectionLabels.forM fun label =>
    validateVector (floor.partitions label) ("genesis_floor.partitions" ++ bracketed label.name)
      profileId

/-- Names in a sorted array. -/
def checkNames (names : List PyStr) (field : String) : Except EvalArtifactError Unit :=
  refuseIf (names ≠ sortNames names ∨ [] ∈ names) (.type field)

/-- One partition of the dominance block, beside the stored vector of its witness. -/
def validateDominancePartition (part : DominancePartition) (path : String)
    (profileId : ProfileId) (stored : AbsoluteVector) : Except EvalArtifactError Unit := do
  -- the closed schema: an admit carries its class and its gain, a reject neither
  if part.admitted then
    refuseIf (part.progressClass = none ∨ part.admissionGainPpm = none) (.schema path)
  else
    refuseIf (part.progressClass ≠ none ∨ part.admissionGainPpm ≠ none) (.schema path)
  refuseIf (part.hard.entries = []) (.type (path ++ ".hard"))
  refuseIf (part.hard.keys ≠ hardGateVocabulary.map py) (.schema (path ++ ".hard"))
  checkInt part.compositeAfterPpm (path ++ ".composite_after_ppm") 0 maxUint32
  checkInt part.compositeBeforePpm (path ++ ".composite_before_ppm") 0 maxUint32
  refuseIf (part.compositeGainPpm ≠ part.compositeAfterPpm - part.compositeBeforePpm)
    (.value (path ++ ".composite_gain_ppm"))
  if part.admitted then
    refuseIf (part.progressClass ≠ some (py "quality") ∧
      part.progressClass ≠ some (py "efficiency")) (.value (path ++ ".progress_class"))
    checkInt (part.admissionGainPpm.getD 0) (path ++ ".admission_gain_ppm") 1 1000000
  checkNames part.floorRegressions (path ++ ".floor_regressions")
  checkNames part.regressedObjectives (path ++ ".regressed_objectives")
  checkNames part.regressedResourceAxes (path ++ ".regressed_resource_axes")
  validateVector part.candidateVector (path ++ ".candidate_vector") profileId
  validateVector part.incumbentVector (path ++ ".incumbent_vector") profileId
  refuseIf (part.hardOk ≠ part.hard.entries.all (·.2)) (.verdictMismatch (path ++ ".hard_ok"))
  refuseIf (part.admitted ∧ (part.regressedResourceAxes ≠ [] ∨ part.floorRegressions ≠ [] ∨
    part.hardOk = false)) (.verdictMismatch path)
  refuseIf (part.incumbentVector ≠ stored)
    (.determinismWitnessMismatch (path ++ ".incumbent_vector"))

/-- The dominance block. -/
def validateDominanceBlock (dominance : DominanceBlock) (profileId : ProfileId)
    (witness : DeterminismWitness) (admitted : Bool) : Except EvalArtifactError Unit := do
  refuseIf (dominance.engine ≠ py dominanceEngineId) (.schema "dominance.engine")
  selectionLabels.forM fun label =>
    validateDominancePartition (dominance.partitions label)
      ("dominance.partitions" ++ bracketed label.name) profileId (witness.partitions label)
  refuseIf (dominance.admitted ≠
      selectionLabels.all fun label => (dominance.partitions label).admitted)
    (.verdictMismatch "dominance.admit")
  refuseIf (dominance.admitted ≠ admitted) (.verdictMismatch "dominance.admit")

/-- `_validate_fixed_suite_blocks`. -/
def validateFixedSuiteBlocks (canonical : CanonicalSuite) (a : EvalArtifact) :
    Except EvalArtifactError Unit := do
  validateAdmissionProjection a.verdict.admitted a.admissionProjection
  validateSuiteBlock a.suite a.candidate.targetProfile
  validateParentStoredVector canonical a.determinismWitness a.candidate.targetProfile
    a.candidate.priorReleaseRoot a.suite.suiteRoot
  validateGenesisFloorBlock a.genesisFloor a.suite.suiteRoot a.candidate.targetProfile
  validateDominanceBlock a.dominance a.candidate.targetProfile a.determinismWitness a.verdict.admitted

/-! ### The other blocks -/

/-- One side of `measurements.branches`. -/
def validateMeasuredSide (side : MeasuredSide) (path : String) : Except EvalArtifactError Unit := do
  side.integers.forM fun e => checkInt e.2 (path ++ "." ++ e.1) 0 maxUint64
  checkStr side.hostProfile (path ++ ".host_profile")
  checkObjectives side.objectivesMicro (path ++ ".objectives_micro")

/-- `_validate_measurements_block`. -/
def validateMeasurementsBlock (measurements : MeasurementsBlock) :
    Except EvalArtifactError Unit := do
  checkStr measurements.policy "measurements.policy"
  refuseIf (measurements.microScale ≠ micro) (.value "measurements.micro_scale")
  selectionLabels.forM fun label => do
    let path := "measurements.branches" ++ bracketed label.name
    validateMeasuredSide (measurements.branches label).candidate (path ++ ".candidate")
    validateMeasuredSide (measurements.branches label).incumbent (path ++ ".incumbent")

/-- `_validate_receipt_block`. -/
def validateReceiptBlock (receipt : ReceiptBlock) : Except EvalArtifactError Unit := do
  checkStr receipt.measurementPolicy "receipt.measurement_policy"
  refuseIf (receipt.codeRoots.entries = []) (.type "receipt.code_roots")
  receipt.codeRoots.entries.forM fun e => checkStr e.1 "receipt.code_roots key"

/-- The id of a parent identity: `project_incumbent` on its own projection. -/
def checkIncumbent : Incumbent → Except EvalArtifactError Unit
  | .reference _ => .ok ()
  | .candidateModule _ id _ _ => checkStr id "receipt incumbent.id"

/-- `_validate_replay_inputs_block`. -/
def validateReplayInputsBlock (replay : ReplayInputs) : Except EvalArtifactError Unit := do
  checkInt replay.candidateModuleBytes "replay_inputs.candidate_module_bytes" 0 maxUint64
  let _ ← frontierCall (validateManifest replay.parentManifest.json)
  checkStr replay.candidateExec "replay_inputs.candidate_exec"
  checkIncumbent replay.incumbent

/-- `_validate_accounting_and_verdict`, its first half. -/
def validateAccounting (accounting : ResourceAccounting) : Except EvalArtifactError Unit := do
  checkInt accounting.resourceAfterPpm "resource_accounting.resource_after_ppm" 0 maxUint32
  checkInt accounting.resourceBeforePpm "resource_accounting.resource_before_ppm" 0 maxUint32
  checkInt accounting.utilityAfterPpm "resource_accounting.utility_after_ppm" 0 maxUint32
  checkInt accounting.utilityBeforePpm "resource_accounting.utility_before_ppm" 0 maxUint32

/-- The verdict text of a decision. -/
def verdictText (admitted : Bool) : PyStr :=
  if admitted then py "ADMIT" else py "REJECT"

/-- `_validate_accounting_and_verdict`, its second half. -/
def validateVerdict (verdict : VerdictBlock) : Except EvalArtifactError Unit := do
  refuseIf (verdict.verdict ≠ py "ADMIT" ∧ verdict.verdict ≠ py "REJECT")
    (.value "verdict.verdict")
  refuseIf (verdict.verdict ≠ verdictText verdict.admitted) (.verdictMismatch "verdict.verdict")
  refuseIf (verdict.consensusCritical = false) (.value "verdict.consensus_critical")

/-- `HASH_RULES`. -/
def hashRules : List PyStr :=
  [py "sha256-bytes", py "sha256-frontier-canonical-json", py "sha256-benchmark-canonical-json",
    py "sha256-manifest-body", py "compatibility-lock-root"]

/-- `validate_availability`, with `availability_item` for each record. -/
def validateAvailability (items : Dict AvailabilityItem) : Except EvalArtifactError Unit := do
  refuseIf (items.entries = []) (.availability "availability items")
  items.entries.forM fun e => do
    refuseIf (e.1 = []) (.availability "availability key")
    refuseIf (e.2.hashRule ∉ hashRules) (.hashRule "availability hash_rule")
    refuseIf (e.2.bytes < 0) (.availability "availability bytes")

/-- `RIG_OUTCOME_SCREENER_PASS`. -/
def rigOutcomeScreenerPass : Int := 1

/-- `RIG_OUTCOME_STATE_ADVANCE`. -/
def rigOutcomeStateAdvance : Int := 2

/-- `RIG_TRANSITION_FORMAT_VERSION`. -/
def rigTransitionFormatVersion : Int := 0x21

/-- `RIG_SCREENER_TRANSITION_FORMAT_VERSION`. -/
def rigScreenerTransitionFormatVersion : Int := 0

/-- `validate_rig_receipt_block`. -/
def validateRigReceiptBlock (rig : RigReceipt) : Except EvalArtifactError Unit := do
  checkInt rig.outcome "rig_receipt.outcome" 0 255
  refuseIf (rig.outcome ≠ rigOutcomeScreenerPass ∧ rig.outcome ≠ rigOutcomeStateAdvance)
    (.rigReceiptField "rig_receipt.outcome")
  checkInt rig.worldSeed "rig_receipt.world_seed" 0 maxUint128
  refuseIf (rig.worldSeed ≠ 0) (.rigReceiptField "rig_receipt.world_seed")
  checkInt rig.rulesVersion "rig_receipt.rules_version" 0 maxUint32
  checkInt rig.transitionFormatVersion "rig_receipt.transition_format_version" 0 maxUint16
  refuseIf (rig.outcome = rigOutcomeScreenerPass ∧
      rig.transitionFormatVersion ≠ rigScreenerTransitionFormatVersion)
    (.rigReceiptField "rig_receipt.transition_format_version")
  refuseIf (rig.outcome = rigOutcomeStateAdvance ∧
      rig.transitionFormatVersion ≠ rigTransitionFormatVersion)
    (.rigReceiptField "rig_receipt.transition_format_version")

/-- The optional `rig_receipt` block. -/
def validateRigReceipt : Option RigReceipt → Except EvalArtifactError Unit
  | none => .ok ()
  | some rig => validateRigReceiptBlock rig

/-- The frontier block: the transition and its length. -/
def validateFrontierBlock (frontier : FrontierBlock) : Except EvalArtifactError Unit := do
  let _ ← frontierCall (validateTransition frontier.transition.json)
  checkInt frontier.transitionBytesLen "frontier.transition_bytes_len" 1 maxTransitionBytes

/-- `validate_artifact`. -/
def validateArtifact (canonical : CanonicalSuite) (a : EvalArtifact) :
    Except EvalArtifactError Unit := do
  refuseIf (a.format ≠ py artifactFormat) (.schema "format")
  validateFrontierBlock a.frontier
  validateFixedSuiteBlocks canonical a
  validateMeasurementsBlock a.measurements
  validateReceiptBlock a.receipt
  validateReplayInputsBlock a.replayInputs
  validateAccounting a.resourceAccounting
  validateVerdict a.verdict
  validateAvailability a.availability
  validateRigReceipt a.rigReceipt
  let _ ← artifactCanonicalBytes a

/-! ### What a valid artifact is -/

/-- Every block of an artifact passes its check. -/
structure ValidArtifact (canonical : CanonicalSuite) (a : EvalArtifact) : Prop where
  format : a.format = py artifactFormat
  frontier : validateFrontierBlock a.frontier = .ok ()
  projection : validateAdmissionProjection a.verdict.admitted a.admissionProjection = .ok ()
  suite : validateSuiteBlock a.suite a.candidate.targetProfile = .ok ()
  witness : validateParentStoredVector canonical a.determinismWitness a.candidate.targetProfile
    a.candidate.priorReleaseRoot a.suite.suiteRoot = .ok ()
  floor : validateGenesisFloorBlock a.genesisFloor a.suite.suiteRoot a.candidate.targetProfile =
    .ok ()
  dominance : validateDominanceBlock a.dominance a.candidate.targetProfile a.determinismWitness
    a.verdict.admitted = .ok ()
  measurements : validateMeasurementsBlock a.measurements = .ok ()
  receipt : validateReceiptBlock a.receipt = .ok ()
  replayInputs : validateReplayInputsBlock a.replayInputs = .ok ()
  accounting : validateAccounting a.resourceAccounting = .ok ()
  verdict : validateVerdict a.verdict = .ok ()
  availability : validateAvailability a.availability = .ok ()
  rigReceipt : validateRigReceipt a.rigReceipt = .ok ()

theorem validateArtifact_eq_ok {canonical : CanonicalSuite} {a : EvalArtifact} :
    validateArtifact canonical a = .ok () ↔ ValidArtifact canonical a := by
  constructor
  · intro h
    obtain ⟨hformat, h⟩ := refuseIf_bind_eq_ok.mp h
    obtain ⟨_, hfrontier, h⟩ := bind_eq_ok.mp h
    obtain ⟨_, hblocks, h⟩ := bind_eq_ok.mp h
    obtain ⟨_, hmeasurements, h⟩ := bind_eq_ok.mp h
    obtain ⟨_, hreceipt, h⟩ := bind_eq_ok.mp h
    obtain ⟨_, hreplay, h⟩ := bind_eq_ok.mp h
    obtain ⟨_, haccounting, h⟩ := bind_eq_ok.mp h
    obtain ⟨_, hverdict, h⟩ := bind_eq_ok.mp h
    obtain ⟨_, havailability, h⟩ := bind_eq_ok.mp h
    obtain ⟨_, hrig, -⟩ := bind_eq_ok.mp h
    obtain ⟨_, hprojection, h⟩ := bind_eq_ok.mp hblocks
    obtain ⟨_, hsuite, h⟩ := bind_eq_ok.mp h
    obtain ⟨_, hwitness, h⟩ := bind_eq_ok.mp h
    obtain ⟨_, hfloor, hdominance⟩ := bind_eq_ok.mp h
    exact ⟨Decidable.not_not.mp hformat, hfrontier, hprojection, hsuite, hwitness, hfloor,
      hdominance, hmeasurements, hreceipt, hreplay, haccounting, hverdict, havailability, hrig⟩
  · intro h
    obtain ⟨bytes, hbytes⟩ := artifactCanonicalBytes_total a
    refine refuseIf_bind_eq_ok.mpr ⟨not_not_intro h.format, ?_⟩
    have hblocks : validateFixedSuiteBlocks canonical a = .ok () := by
      rw [validateFixedSuiteBlocks, h.projection, ok_bind, h.suite, ok_bind, h.witness, ok_bind,
        h.floor, ok_bind, h.dominance]
    rw [h.frontier, ok_bind, hblocks, ok_bind, h.measurements, ok_bind, h.receipt, ok_bind,
      h.replayInputs, ok_bind, h.accounting, ok_bind, h.verdict, ok_bind, h.availability, ok_bind,
      h.rigReceipt, ok_bind, hbytes, ok_bind]
    rfl

end CoreTex
