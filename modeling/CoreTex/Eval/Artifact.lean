import CoreTex.Eval.CanonicalSuite
import CoreTex.Frontier.Transition

/-!
# CoreTex.Eval.Artifact

The fixed-suite evaluation artifact (`eval_artifact.py`), block by block, and its document.

Every block has a closed schema, so a block is a record: a document with a missing field,
an unknown field or a field of another type has no record, and `_check_closed` refuses it.
What a record can still get wrong is checked in `Eval/ValidateArtifact`. The fields that
are there on an admit only are options.
-/

namespace CoreTex

open CoreTex.Lib

/-! ### Identity constants -/

/-- `ARTIFACT_FORMAT`. -/
def artifactFormat : String := "coretex.memory-eval-artifact.v3"

/-- `FIXED_SUITE_LAW_ID`. -/
def fixedSuiteLawId : String := "benchmark-v2-law/dominance-fixed-suite.v2"

/-- `DOMINANCE_ENGINE_ID`. -/
def dominanceEngineId : String := "dominance.componentwise.v2"

/-- `MICRO`. -/
def micro : Int := 1000000

/-- `MAX_UINT16`. -/
def maxUint16 : Int := 2 ^ 16 - 1

/-- `MAX_UINT32`. -/
def maxUint32 : Int := 2 ^ 32 - 1

/-- `MAX_UINT64`. -/
def maxUint64 : Int := 2 ^ 64 - 1

/-- `MAX_UINT128`. -/
def maxUint128 : Int := 2 ^ 128 - 1

/-- `ZERO_ROOT`. -/
def zeroRoot : Root where
  hex := List.replicate 64 48
  wellFormed := by decide

/-! ### Refusals -/

/-- The typed refusals of the artifact layer, with the field they name. -/
inductive EvalArtifactError
  | schema (field : String)
  | type (field : String)
  | value (field : String)
  | measurementPrecision (field : String)
  | bindingMismatch (field : String)
  | parentRootMismatch
  | newRootMismatch
  | releaseRootMismatch (field : String)
  | compositionRootMismatch (field : String)
  | epochPinMismatch (field : String)
  | suiteMembership (field : String)
  | determinismWitnessMismatch (field : String)
  | genesisFloorPending
  | receiptBinding (field : String)
  | verdictMismatch (field : String)
  | renderedCostMismatch (field : String)
  | resourceAccounting (field : String)
  | transitionIdentityMismatch
  | rigReceiptFieldsMissing
  | rigReceiptField (field : String)
  | counterResourceLaw (field : String)
  | availability (field : String)
  | hashRule (field : String)
  | frontier (error : FrontierError)
  | suite (error : CanonicalSuiteError)
  deriving DecidableEq

/-- `fr.` calls raise through. -/
def frontierCall {α : Type} (x : Except FrontierError α) : Except EvalArtifactError α :=
  x.mapError .frontier

/-- `cs.` calls raise through. -/
def suiteCall {α : Type} (x : Except CanonicalSuiteError α) : Except EvalArtifactError α :=
  x.mapError .suite

@[simp] theorem frontierCall_eq_ok {α : Type} {x : Except FrontierError α} {a : α} :
    frontierCall x = .ok a ↔ x = .ok a := by
  cases x <;> simp [frontierCall, Except.mapError]

@[simp] theorem suiteCall_eq_ok {α : Type} {x : Except CanonicalSuiteError α} {a : α} :
    suiteCall x = .ok a ↔ x = .ok a := by
  cases x <;> simp [suiteCall, Except.mapError]

/-! ### Blocks -/

/-- `CANDIDATE_FIELDS`. -/
structure CandidateBlock where
  candidateHash : Root
  priorReleaseRoot : Root
  releaseRoot : Root
  targetProfile : ProfileId

/-- `FRONTIER_FIELDS`. -/
structure FrontierBlock where
  benchmarkLawRoot : Root
  compositionRoot : Root
  newFrontierRoot : Root
  parentFrontierRoot : Root
  runtimeAbiRoot : Root
  transition : Transition
  transitionBytesLen : Int
  transitionIdSha256 : Root

/-- `SUITE_FIELDS`. -/
structure SuiteBlock where
  cases : SelectionLabel → List SuiteCase
  counts : SelectionLabel → Int
  format : PyStr
  lawId : PyStr
  profileId : ProfileId
  scales : List PyStr
  suiteRoot : Root
  suiteVersion : PyStr

/-- `DETERMINISM_WITNESS_FIELDS`: the exact parent's stored vectors. -/
structure DeterminismWitness where
  lawId : PyStr
  partitions : SelectionLabel → AbsoluteVector
  profileId : ProfileId
  releaseRoot : Root
  sourceKind : PyStr
  sourceRoot : Root
  suiteRoot : Root
  witnessRoot : Root

/-- `GENESIS_FLOOR_FIELDS`. -/
structure GenesisFloorBlock where
  partitions : SelectionLabel → AbsoluteVector
  source : PyStr
  status : PyStr
  suiteRoot : Root

/-- `DOMINANCE_PARTITION_FIELDS`, and the two further fields of an admit. -/
structure DominancePartition where
  admissionGainPpm : Option Int
  admitted : Bool
  candidateVector : AbsoluteVector
  compositeAfterPpm : Int
  compositeBeforePpm : Int
  compositeGainPpm : Int
  floorRegressions : List PyStr
  hard : Dict Bool
  hardOk : Bool
  incumbentVector : AbsoluteVector
  progressClass : Option PyStr
  regressedObjectives : List PyStr
  regressedResourceAxes : List PyStr
  deriving DecidableEq

/-- `DOMINANCE_FIELDS`. -/
structure DominanceBlock where
  admitted : Bool
  engine : PyStr
  partitions : SelectionLabel → DominancePartition
  deriving DecidableEq

/-- `ADMISSION_PROJECTION_FIELDS`, and the two further fields of an admit. -/
structure AdmissionProjection where
  progressClass : Option PyStr
  scoreAfterPpm : Option Int
  scoreBeforePpm : Int
  deriving DecidableEq

/-- `SIDE_FIELDS`. -/
structure MeasuredSide where
  compositeMicro : Int
  computeMicro : Int
  corpusSupported : Int
  eventsScanned : Int
  hookComputeFuel : Int
  hookFuel : Int
  hostProfile : PyStr
  latencyMicro : Int
  logicalDurableStorageBytes : Int
  objectivesMicro : Dict Int
  renderedCostMicro : Int
  storageBytes : Int
  storeEvents : Int
  storeOps : Int
  workFuel : Int
  deriving DecidableEq

/-- One branch of `scores`. -/
structure MeasuredPair where
  candidate : MeasuredSide
  incumbent : MeasuredSide
  deriving DecidableEq

/-- `MEASUREMENT_FIELDS`. -/
structure MeasurementsBlock where
  branches : SelectionLabel → MeasuredPair
  microScale : Int
  policy : PyStr

/-- `RECEIPT_FIELDS`. -/
structure ReceiptBlock where
  codeRoots : Dict Root
  evalReportRoot : Root
  measurementPolicy : PyStr
  outputsHash : Root

/-- The canonical public projection of a parent identity: the builtin reference, whose other
fields are constants, or a candidate module. -/
inductive Incumbent
  | reference (releaseRoot : Root)
  | candidateModule (candidateHash : Root) (id : PyStr) (moduleSha256 releaseRoot : Root)
  deriving DecidableEq

/-- `REPLAY_INPUT_FIELDS`. -/
structure ReplayInputs where
  candidateDeclarationId : Root
  candidateExec : PyStr
  candidateManifestHash : Root
  candidateModuleBytes : Int
  incumbent : Incumbent
  parentManifest : Manifest

/-- `RESOURCE_ACCOUNTING_FIELDS`. -/
structure ResourceAccounting where
  branch : SelectionLabel
  resourceAfterPpm : Int
  resourceBeforePpm : Int
  utilityAfterPpm : Int
  utilityBeforePpm : Int
  deriving DecidableEq

/-- `VERDICT_FIELDS`. -/
structure VerdictBlock where
  admitted : Bool
  consensusCritical : Bool
  decisionHash : Root
  verdict : PyStr

/-- `AVAILABILITY_ITEM_FIELDS`. -/
structure AvailabilityItem where
  bytes : Int
  hashRule : PyStr
  root : Root

/-- `RIG_RECEIPT_FIELDS`. -/
structure RigReceipt where
  challengeId : Root
  coreVersionHash : Root
  epochContextRoot : Root
  outcome : Int
  rulesVersion : Int
  transitionFormatVersion : Int
  workPolicyHash : Root
  worldSeed : Int
  deriving DecidableEq

/-- `ARTIFACT_FIELDS`, and the optional `rig_receipt`. -/
structure EvalArtifact where
  admissionProjection : AdmissionProjection
  availability : Dict AvailabilityItem
  candidate : CandidateBlock
  counterResourceLawRoot : Root
  determinismWitness : DeterminismWitness
  dominance : DominanceBlock
  epoch : UInt64
  format : PyStr
  frontier : FrontierBlock
  genesisFloor : GenesisFloorBlock
  measurements : MeasurementsBlock
  receipt : ReceiptBlock
  replayInputs : ReplayInputs
  resourceAccounting : ResourceAccounting
  rigReceipt : Option RigReceipt
  suite : SuiteBlock
  verdict : VerdictBlock

/-- The integer fields of a side, under their names. -/
def MeasuredSide.integers (s : MeasuredSide) : List (String × Int) := [
  ("composite_micro", s.compositeMicro), ("compute_micro", s.computeMicro),
  ("corpus_supported", s.corpusSupported), ("events_scanned", s.eventsScanned),
  ("hook_compute_fuel", s.hookComputeFuel), ("hook_fuel", s.hookFuel),
  ("latency_micro", s.latencyMicro), ("rendered_cost_micro", s.renderedCostMicro),
  ("storage_bytes", s.storageBytes), ("store_events", s.storeEvents),
  ("store_ops", s.storeOps), ("work_fuel", s.workFuel),
  ("logical_durable_storage_bytes", s.logicalDurableStorageBytes)]

/-! ### Documents -/

/-- A block with one member for each label. -/
def labelsJson {α : Type} (json : α → Json) (block : SelectionLabel → α) : Json :=
  .obj (selectionLabels.map fun label => (py label.name, json (block label)))

/-- Names as a document. -/
def namesJson (names : List PyStr) : Json :=
  .arr (names.map .str)

/-- A member that is there when its value is. -/
def optionalMember {α : Type} (key : String) (json : α → Json) (value : Option α) :
    List (PyStr × Json) :=
  value.toList.map fun x => (py key, json x)

def CandidateBlock.json (c : CandidateBlock) : Json :=
  .obj [
    (py "candidate_hash", c.candidateHash.json),
    (py "prior_release_root", c.priorReleaseRoot.json),
    (py "release_root", c.releaseRoot.json),
    (py "target_profile", .str (py c.targetProfile.id))]

def FrontierBlock.json (f : FrontierBlock) : Json :=
  .obj [
    (py "benchmark_law_root", f.benchmarkLawRoot.json),
    (py "composition_root", f.compositionRoot.json),
    (py "new_frontier_root", f.newFrontierRoot.json),
    (py "parent_frontier_root", f.parentFrontierRoot.json),
    (py "runtime_abi_root", f.runtimeAbiRoot.json),
    (py "transition", f.transition.json),
    (py "transition_bytes_len", .int f.transitionBytesLen),
    (py "transition_id_sha256", f.transitionIdSha256.json)]

def SuiteCase.json (c : SuiteCase) : Json :=
  .obj [
    (py "instance_hash", c.instanceHash.json),
    (py "instance_id", .str c.instanceId),
    (py "profile_id", .str (py c.profileId.id)),
    (py "scale", .str c.scale),
    (py "seed", .int c.seed),
    (py "suite_index", .int c.suiteIndex)]

def SuiteBlock.json (s : SuiteBlock) : Json :=
  .obj [
    (py "cases", labelsJson (fun cases => .arr (cases.map SuiteCase.json)) s.cases),
    (py "counts", labelsJson .int s.counts),
    (py "format", .str s.format),
    (py "law_id", .str s.lawId),
    (py "profile_id", .str (py s.profileId.id)),
    (py "scales", namesJson s.scales),
    (py "suite_root", s.suiteRoot.json),
    (py "suite_version", .str s.suiteVersion)]

/-- The witness without its own root: what the root addresses. -/
def DeterminismWitness.body (w : DeterminismWitness) : List (PyStr × Json) := [
  (py "law_id", .str w.lawId),
  (py "partitions", labelsJson AbsoluteVector.json w.partitions),
  (py "profile_id", .str (py w.profileId.id)),
  (py "release_root", w.releaseRoot.json),
  (py "source_kind", .str w.sourceKind),
  (py "source_root", w.sourceRoot.json),
  (py "suite_root", w.suiteRoot.json)]

def DeterminismWitness.json (w : DeterminismWitness) : Json :=
  .obj (w.body ++ [(py "witness_root", w.witnessRoot.json)])

def GenesisFloorBlock.json (f : GenesisFloorBlock) : Json :=
  .obj [
    (py "partitions", labelsJson AbsoluteVector.json f.partitions),
    (py "source", .str f.source),
    (py "status", .str f.status),
    (py "suite_root", f.suiteRoot.json)]

def DominancePartition.json (p : DominancePartition) : Json :=
  .obj ([
    (py "admit", .bool p.admitted),
    (py "candidate_vector", p.candidateVector.json),
    (py "composite_after_ppm", .int p.compositeAfterPpm),
    (py "composite_before_ppm", .int p.compositeBeforePpm),
    (py "composite_gain_ppm", .int p.compositeGainPpm),
    (py "floor_regressions", namesJson p.floorRegressions),
    (py "hard", .obj (p.hard.entries.map fun e => (e.1, .bool e.2))),
    (py "hard_ok", .bool p.hardOk),
    (py "incumbent_vector", p.incumbentVector.json),
    (py "regressed_objectives", namesJson p.regressedObjectives),
    (py "regressed_resource_axes", namesJson p.regressedResourceAxes)] ++
    optionalMember "admission_gain_ppm" .int p.admissionGainPpm ++
    optionalMember "progress_class" .str p.progressClass)

def DominanceBlock.json (d : DominanceBlock) : Json :=
  .obj [
    (py "admit", .bool d.admitted),
    (py "engine", .str d.engine),
    (py "partitions", labelsJson DominancePartition.json d.partitions)]

def AdmissionProjection.json (p : AdmissionProjection) : Json :=
  .obj (optionalMember "class" .str p.progressClass ++
    optionalMember "score_after_ppm" .int p.scoreAfterPpm ++
    [(py "score_before_ppm", .int p.scoreBeforePpm)])

def MeasuredSide.json (s : MeasuredSide) : Json :=
  .obj ([
    (py "host_profile", .str s.hostProfile),
    (py "objectives_micro", intsJson s.objectivesMicro)] ++ integerMembers s.integers)

def MeasuredPair.json (p : MeasuredPair) : Json :=
  .obj [(py "candidate", p.candidate.json), (py "incumbent", p.incumbent.json)]

def MeasurementsBlock.json (m : MeasurementsBlock) : Json :=
  .obj [
    (py "branches", labelsJson MeasuredPair.json m.branches),
    (py "micro_scale", .int m.microScale),
    (py "policy", .str m.policy)]

def ReceiptBlock.json (r : ReceiptBlock) : Json :=
  .obj [
    (py "code_roots", .obj (r.codeRoots.entries.map fun e => (e.1, e.2.json))),
    (py "eval_report_root", r.evalReportRoot.json),
    (py "measurement_policy", .str r.measurementPolicy),
    (py "outputs_hash", r.outputsHash.json)]

/-- `REFERENCE_INCUMBENT_FIELDS` or `CANDIDATE_INCUMBENT_FIELDS`. -/
def Incumbent.json : Incumbent → Json
  | .reference releaseRoot => .obj [
      (py "candidate_hash", zeroRoot.json),
      (py "exec", .str (py "reference")),
      (py "id", .str (py "reference-runtime")),
      (py "protocol", .str (py "rrm1")),
      (py "release_root", releaseRoot.json)]
  | .candidateModule candidateHash id moduleSha256 releaseRoot => .obj [
      (py "candidate_hash", candidateHash.json),
      (py "exec", .str (py "candidate_module")),
      (py "id", .str id),
      (py "module_sha256", moduleSha256.json),
      (py "release_root", releaseRoot.json)]

def ReplayInputs.json (r : ReplayInputs) : Json :=
  .obj [
    (py "candidate_declaration_id", r.candidateDeclarationId.json),
    (py "candidate_exec", .str r.candidateExec),
    (py "candidate_manifest_hash", r.candidateManifestHash.json),
    (py "candidate_module_bytes", .int r.candidateModuleBytes),
    (py "incumbent", r.incumbent.json),
    (py "parent_manifest", r.parentManifest.json)]

def ResourceAccounting.json (r : ResourceAccounting) : Json :=
  .obj [
    (py "branch", .str (py r.branch.name)),
    (py "resource_after_ppm", .int r.resourceAfterPpm),
    (py "resource_before_ppm", .int r.resourceBeforePpm),
    (py "utility_after_ppm", .int r.utilityAfterPpm),
    (py "utility_before_ppm", .int r.utilityBeforePpm)]

def VerdictBlock.json (v : VerdictBlock) : Json :=
  .obj [
    (py "admit", .bool v.admitted),
    (py "consensus_critical", .bool v.consensusCritical),
    (py "decision_hash", v.decisionHash.json),
    (py "verdict", .str v.verdict)]

def AvailabilityItem.json (i : AvailabilityItem) : Json :=
  .obj [(py "bytes", .int i.bytes), (py "hash_rule", .str i.hashRule), (py "root", i.root.json)]

def RigReceipt.json (r : RigReceipt) : Json :=
  .obj [
    (py "challenge_id", r.challengeId.json),
    (py "core_version_hash", r.coreVersionHash.json),
    (py "epoch_context_root", r.epochContextRoot.json),
    (py "outcome", .int r.outcome),
    (py "rules_version", .int r.rulesVersion),
    (py "transition_format_version", .int r.transitionFormatVersion),
    (py "work_policy_hash", r.workPolicyHash.json),
    (py "world_seed", .int r.worldSeed)]

/-- The artifact as a document. -/
def EvalArtifact.json (a : EvalArtifact) : Json :=
  .obj ([
    (py "admission_projection", a.admissionProjection.json),
    (py "availability", .obj (a.availability.entries.map fun e => (e.1, e.2.json))),
    (py "candidate", a.candidate.json),
    (py "counter_resource_law_root", a.counterResourceLawRoot.json),
    (py "determinism_witness", a.determinismWitness.json),
    (py "dominance", a.dominance.json),
    (py "epoch", epochJson a.epoch),
    (py "format", .str a.format),
    (py "frontier", a.frontier.json),
    (py "genesis_floor", a.genesisFloor.json),
    (py "measurements", a.measurements.json),
    (py "receipt", a.receipt.json),
    (py "replay_inputs", a.replayInputs.json),
    (py "resource_accounting", a.resourceAccounting.json),
    (py "suite", a.suite.json),
    (py "verdict", a.verdict.json)] ++
    optionalMember "rig_receipt" RigReceipt.json a.rigReceipt)

/-- `artifact_canonical_bytes`. -/
def artifactCanonicalBytes (a : EvalArtifact) : Except EvalArtifactError Bytes :=
  frontierCall (canonicalBytes a.json)

/-! ### Every artifact has canonical bytes

A record holds neither a null nor a float, and its document is far below the depth bound. -/

variable {depth : Nat}

@[simp] theorem Root.checkValue_json (r : Root) (h : depth ≤ maxDepth) :
    checkValue r.json depth = .ok () :=
  checkValue_str h

theorem checkValue_labelsJson {α : Type} {json : α → Json} {block : SelectionLabel → α}
    (h : depth ≤ maxDepth) (hjson : ∀ x, checkValue (json x) (depth + 1) = .ok ()) :
    checkValue (labelsJson json block) depth = .ok () := by
  refine (checkValue_obj h).mpr fun e he => ?_
  obtain ⟨label, -, rfl⟩ := List.mem_map.mp he
  exact hjson _

theorem checkValue_map {α : Type} {json : α → Json} {items : List α} (h : depth ≤ maxDepth)
    (hjson : ∀ x, checkValue (json x) (depth + 1) = .ok ()) :
    checkValue (.arr (items.map json)) depth = .ok () := by
  refine (checkValue_arr h).mpr fun x hx => ?_
  obtain ⟨item, -, rfl⟩ := List.mem_map.mp hx
  exact hjson item

theorem checkValue_entries {α : Type} {json : α → Json} {d : Dict α} (h : depth ≤ maxDepth)
    (hjson : ∀ x, checkValue (json x) (depth + 1) = .ok ()) :
    checkValue (.obj (d.entries.map fun e => (e.1, json e.2))) depth = .ok () := by
  refine (checkValue_obj h).mpr fun e he => ?_
  obtain ⟨entry, -, rfl⟩ := List.mem_map.mp he
  exact hjson _

theorem checkValue_namesJson (names : List PyStr) (h : depth + 1 ≤ maxDepth) :
    checkValue (namesJson names) depth = .ok () :=
  checkValue_map (by omega) fun _ => checkValue_str h

theorem checkValue_intsJson (d : Dict Int) (h : depth + 1 ≤ maxDepth) :
    checkValue (intsJson d) depth = .ok () :=
  checkValue_entries (by omega) fun _ => checkValue_int h

theorem AbsoluteVector.checkValue_json (v : AbsoluteVector) (h : depth + 2 ≤ maxDepth) :
    checkValue v.json depth = .ok () := by
  simp (disch := omega) [AbsoluteVector.json, integerMembers, integers, checkValue_obj,
    checkValue_intsJson]

theorem DominancePartition.checkValue_json (p : DominancePartition) (h : depth + 3 ≤ maxDepth) :
    checkValue p.json depth = .ok () := by
  have hhard : checkValue (.obj (p.hard.entries.map fun e => (e.1, .bool e.2))) (depth + 1) =
      .ok () := checkValue_entries (by omega) fun b => checkValue_bool (by omega)
  simp (disch := omega) [DominancePartition.json, checkValue_obj, hhard, checkValue_namesJson,
    AbsoluteVector.checkValue_json, optionalMember, or_imp, forall_and]

theorem MeasuredSide.checkValue_json (s : MeasuredSide) (h : depth + 2 ≤ maxDepth) :
    checkValue s.json depth = .ok () := by
  simp (disch := omega) [MeasuredSide.json, integerMembers, integers, checkValue_obj,
    checkValue_intsJson]

theorem SuiteCase.checkValue_json (c : SuiteCase) (h : depth + 1 ≤ maxDepth) :
    checkValue c.json depth = .ok () := by
  simp (disch := omega) [SuiteCase.json, checkValue_obj]

theorem SuiteBlock.checkValue_json (s : SuiteBlock) (h : depth + 4 ≤ maxDepth) :
    checkValue s.json depth = .ok () := by
  have hcases : checkValue (labelsJson (fun cases => .arr (cases.map SuiteCase.json)) s.cases)
      (depth + 1) = .ok () :=
    checkValue_labelsJson (by omega) fun cases =>
      checkValue_map (by omega) fun c => c.checkValue_json (by omega)
  have hcounts : checkValue (labelsJson .int s.counts) (depth + 1) = .ok () :=
    checkValue_labelsJson (by omega) fun n => checkValue_int (by omega)
  simp (disch := omega) [SuiteBlock.json, checkValue_obj, hcases, hcounts, checkValue_namesJson]

theorem Incumbent.checkValue_json (i : Incumbent) (h : depth + 1 ≤ maxDepth) :
    checkValue i.json depth = .ok () := by
  cases i <;> simp (disch := omega) [Incumbent.json, checkValue_obj]

theorem Transition.checkValue_json (t : Transition) (h : depth + 1 ≤ maxDepth) :
    checkValue t.json depth = .ok () := by
  simp (disch := omega) [Transition.json, members, checkValue_obj]

theorem Manifest.checkValue_json (m : Manifest) (h : depth + 2 ≤ maxDepth) :
    checkValue m.json depth = .ok () := by
  simp (disch := omega) [Manifest.json, profilesJson, epochJson, checkValue_obj, profileIds]

theorem artifactCanonicalBytes_total (a : EvalArtifact) :
    ∃ bytes, artifactCanonicalBytes a = .ok bytes := by
  refine ⟨a.json.dumps, frontierCall_eq_ok.mpr (bind_eq_ok.mpr ⟨(), ?_, rfl⟩)⟩
  have hdepth : 0 + 10 ≤ maxDepth := by decide
  have hcodeRoots : checkValue (.obj (a.receipt.codeRoots.entries.map fun e => (e.1, e.2.json)))
      (0 + 1 + 1) = .ok () :=
    checkValue_entries (by omega) fun r => r.checkValue_json (by omega)
  have havailability :
      checkValue (.obj (a.availability.entries.map fun e => (e.1, e.2.json))) (0 + 1) = .ok () :=
    checkValue_entries (by omega) fun i => by
      simp (disch := omega) [AvailabilityItem.json, checkValue_obj]
  have hvectors (block : SelectionLabel → AbsoluteVector) :
      checkValue (labelsJson AbsoluteVector.json block) (0 + 1 + 1) = .ok () :=
    checkValue_labelsJson (by omega) fun v => v.checkValue_json (by omega)
  have hpartitions :
      checkValue (labelsJson DominancePartition.json a.dominance.partitions) (0 + 1 + 1) = .ok () :=
    checkValue_labelsJson (by omega) fun p => p.checkValue_json (by omega)
  have hbranches :
      checkValue (labelsJson MeasuredPair.json a.measurements.branches) (0 + 1 + 1) = .ok () :=
    checkValue_labelsJson (by omega) fun p => by
      simp (disch := omega) [MeasuredPair.json, checkValue_obj, MeasuredSide.checkValue_json]
  simp (disch := omega) [EvalArtifact.json, AdmissionProjection.json, CandidateBlock.json,
    DeterminismWitness.json, DeterminismWitness.body, DominanceBlock.json, epochJson,
    FrontierBlock.json, GenesisFloorBlock.json, MeasurementsBlock.json, ReceiptBlock.json,
    ReplayInputs.json, ResourceAccounting.json, VerdictBlock.json, RigReceipt.json,
    optionalMember, checkValue_obj, or_imp, forall_and, hcodeRoots, havailability, hvectors,
    hpartitions, hbranches, Transition.checkValue_json, Manifest.checkValue_json,
    Incumbent.checkValue_json, SuiteBlock.checkValue_json]

end CoreTex
