import CoreTex.Frontier.Manifest
import CoreTex.Lib.Dict

/-!
# CoreTex.Eval.CanonicalSuite

The canonical suite (`canonical_suite.py`): the sealed cases of each profile, the protected
vocabularies, and the genesis floor with the fixed product caps.

A `CanonicalSuite` carries what the loader checks as its fields, so a suite whose floor
measures a resource above its cap cannot be built. A floor may still be pending, and then
every reader of it is refused.
-/

namespace CoreTex

open CoreTex.Lib

/-! ### Vocabularies -/

/-- `PARTITIONS`, and `SELECTION_LABELS` of the artifact layer. -/
inductive SelectionLabel
  | gate
  | confirm
  deriving DecidableEq

def SelectionLabel.name : SelectionLabel → String
  | .gate => "gate"
  | .confirm => "confirm"

def selectionLabels : List SelectionLabel := [.gate, .confirm]

@[simp] theorem mem_selectionLabels (label : SelectionLabel) : label ∈ selectionLabels := by
  cases label <;> simp [selectionLabels]

instance {α : Type} [DecidableEq α] : DecidableEq (SelectionLabel → α) := fun f g =>
  decidable_of_iff (f .gate = g .gate ∧ f .confirm = g .confirm)
    ⟨fun ⟨hgate, hconfirm⟩ => funext fun label => by cases label <;> assumption,
      fun h => ⟨congrFun h _, congrFun h _⟩⟩

/-- `PROTECTED_RESOURCE_AXES`. -/
inductive ResourceAxis
  | renderedCost
  | workFuel
  | logicalDurableStorageBytes
  deriving DecidableEq

instance : Fintype ResourceAxis where
  elems := {.renderedCost, .workFuel, .logicalDurableStorageBytes}
  complete axis := by cases axis <;> simp

instance {α : Type} [DecidableEq α] : DecidableEq (ResourceAxis → α) := fun f g =>
  decidable_of_iff (f .renderedCost = g .renderedCost ∧ f .workFuel = g .workFuel ∧
      f .logicalDurableStorageBytes = g .logicalDurableStorageBytes)
    ⟨fun ⟨hcost, hfuel, hstorage⟩ => funext fun axis => by cases axis <;> assumption,
      fun h => ⟨congrFun h _, congrFun h _, congrFun h _⟩⟩

/-- The axis id. -/
def ResourceAxis.id : ResourceAxis → String
  | .renderedCost => "rendered_cost"
  | .workFuel => "work_fuel"
  | .logicalDurableStorageBytes => "logical_durable_storage_bytes"

/-- The measured field of `PRODUCT_CAP_VECTOR_FIELDS`. -/
def ResourceAxis.measuredKey : ResourceAxis → String
  | .renderedCost => "rendered_cost_micro"
  | .workFuel => "work_fuel"
  | .logicalDurableStorageBytes => "logical_durable_storage_bytes"

/-- The cap field of `PRODUCT_CAP_VECTOR_FIELDS`. -/
def ResourceAxis.capKey : ResourceAxis → String
  | .renderedCost => "envelope_rendered_cost_micro"
  | .workFuel => "envelope_work_fuel"
  | .logicalDurableStorageBytes => "envelope_logical_durable_storage_bytes"

/-- The axes in the order of `PRODUCT_CAP_VECTOR_FIELDS`. -/
def resourceAxes : List ResourceAxis :=
  [.renderedCost, .workFuel, .logicalDurableStorageBytes]

@[simp] theorem mem_resourceAxes (axis : ResourceAxis) : axis ∈ resourceAxes := by
  cases axis <;> simp [resourceAxes]

/-- `PROTECTED_QUALITY_VOCABULARY`. -/
def protectedQualityVocabulary : ProfileId → List String
  | .convPref => ["abstention", "alias_resolution", "asof_correctness", "conflict_supersession",
      "evidence_support", "multihop_completeness", "provenance_citations",
      "retraction_disclosure", "selective_forgetting"]
  | .docTool => ["abstention", "asof_correctness", "conflict_supersession", "consolidation",
      "evidence_support", "multihop_completeness", "provenance_citations",
      "retraction_disclosure", "workflow_provenance"]
  | .eventSchema => ["abstention", "asof_correctness", "conflict_supersession",
      "evidence_support", "exact_lookup", "join_completeness", "multihop_completeness",
      "provenance_citations", "retraction_disclosure", "schema_evolution"]

/-- `protected_quality_objectives`: the declared objectives, sorted. -/
def declaredObjectives (profileId : ProfileId) : List PyStr :=
  (protectedQualityVocabulary profileId).map py

/-- `HARD_GATE_VOCABULARY`. -/
def hardGateVocabulary : List String :=
  ["canonical_event_integrity", "declared_resource_limits", "deterministic_replay",
    "host_portability_matrix", "profile_floors", "provenance", "validity",
    "zero_stale_retracted_disclosure"]

/-- `SUITE_FORMAT`. -/
def suiteFormat : String := "benchmark-v2/canonical-suite/v1"

/-- `FIXED_SUITE_ROUND_ID`. -/
def fixedSuiteRoundId : String := "coretex.fixed-suite/round/v1"

/-- `FIXED_SUITE_ENTROPY_DOMAIN`. -/
def fixedSuiteEntropyDomain : String := "coretex.fixed-suite/inert-entropy/v1"

/-- `fixed_suite_entropy`. -/
def fixedSuiteEntropy (label : SelectionLabel) : Root :=
  sha256Hex (ascii (fixedSuiteEntropyDomain ++ "|" ++ label.name))

/-! ### Absolute vectors -/

/-- One absolute vector: what was measured on one partition, and the caps it was measured
under. -/
structure AbsoluteVector where
  compositeMicro : Int
  envelope : ResourceAxis → Int
  objectivesMicro : Dict Int
  resource : ResourceAxis → Int
  suiteBlockId : Int
  deriving DecidableEq

/-- `composite_micro // 100`. -/
def AbsoluteVector.compositePpm (v : AbsoluteVector) : Int :=
  v.compositeMicro / 100

/-- An objective of a vector. -/
def AbsoluteVector.quality (v : AbsoluteVector) (objective : PyStr) : Int :=
  v.objectivesMicro.value objective

/-- A dictionary of integers as a document. -/
def intsJson (d : Dict Int) : Json :=
  .obj (d.entries.map fun e => (e.1, .int e.2))

/-- The integer fields of a vector, under their names. -/
def AbsoluteVector.integers (v : AbsoluteVector) : List (String × Int) := [
  ("composite_micro", v.compositeMicro),
  ("logical_durable_storage_bytes", v.resource .logicalDurableStorageBytes),
  ("rendered_cost_micro", v.resource .renderedCost), ("work_fuel", v.resource .workFuel),
  ("envelope_logical_durable_storage_bytes", v.envelope .logicalDurableStorageBytes),
  ("envelope_rendered_cost_micro", v.envelope .renderedCost),
  ("envelope_work_fuel", v.envelope .workFuel), ("suite_block_id", v.suiteBlockId)]

/-- Named integers as members of a document. -/
def integerMembers (integers : List (String × Int)) : List (PyStr × Json) :=
  integers.map fun e => (py e.1, .int e.2)

/-- The vector as a document. -/
def AbsoluteVector.json (v : AbsoluteVector) : Json :=
  .obj ((py "objectives_micro", intsJson v.objectivesMicro) :: integerMembers v.integers)

/-- What `validate_vector` checks of a floor vector, and the caps strictly above what genesis
measured. -/
structure FloorVector (profileId : ProfileId) (v : AbsoluteVector) : Prop where
  composite : 0 ≤ v.compositeMicro
  resource : ∀ axis, 0 ≤ v.resource axis
  capped : ∀ axis, v.resource axis < v.envelope axis
  block : 0 ≤ v.suiteBlockId
  objectives : v.objectivesMicro.keys = declaredObjectives profileId

/-! ### The suite -/

/-- A case as the suite document stores it. -/
structure CanonicalCase where
  instanceHash : Root
  scale : PyStr
  seed : Nat

/-- The instance-id triple `profile@scale#sseed`. -/
def CanonicalCase.instanceId (profileId : ProfileId) (case : CanonicalCase) : PyStr :=
  py profileId.id ++ py "@" ++ case.scale ++ py "#s" ++ py (toString case.seed)

/-- The genesis floor, when it has been measured. -/
inductive GenesisFloorAuthority
  | pending
  | resolved (source : PyStr) (vectors : ProfileId → SelectionLabel → AbsoluteVector)

/-- A validated suite document. -/
structure CanonicalSuite where
  suiteRoot : Root
  suiteVersion : PyStr
  scales : ProfileId → List PyStr
  cases : ProfileId → SelectionLabel → List CanonicalCase
  genesisFloorAuthority : GenesisFloorAuthority
  disjoint : ∀ p, ((cases p .gate ++ cases p .confirm).map (CanonicalCase.instanceId p)).Nodup
  floorVector : ∀ source vectors, genesisFloorAuthority = .resolved source vectors →
    ∀ p label, FloorVector p (vectors p label)

/-- One suite case, in the shape an artifact binds. -/
structure SuiteCase where
  instanceHash : Root
  instanceId : PyStr
  profileId : ProfileId
  scale : PyStr
  seed : Int
  suiteIndex : Int
  deriving DecidableEq

/-- `suite_cases` with `suite_case_hashes`: the cases of a partition under their ordinals. -/
def CanonicalSuite.suiteCases (suite : CanonicalSuite) (profileId : ProfileId)
    (label : SelectionLabel) : List SuiteCase :=
  (suite.cases profileId label).mapIdx fun index case => {
    instanceHash := case.instanceHash
    instanceId := case.instanceId profileId
    profileId := profileId
    scale := case.scale
    seed := case.seed
    suiteIndex := index }

/-- The refusals of `canonical_suite`. -/
inductive CanonicalSuiteError
  | genesisFloorPending
  deriving DecidableEq

/-- `genesis_floor_vector`. -/
def CanonicalSuite.genesisFloorVector (suite : CanonicalSuite) (profileId : ProfileId)
    (label : SelectionLabel) : Except CanonicalSuiteError AbsoluteVector :=
  match suite.genesisFloorAuthority with
  | .pending => .error .genesisFloorPending
  | .resolved _ vectors => .ok (vectors profileId label)

theorem CanonicalSuite.floorVector_of_ok {suite : CanonicalSuite} {p : ProfileId}
    {label : SelectionLabel} {v : AbsoluteVector} (h : suite.genesisFloorVector p label = .ok v) :
    FloorVector p v := by
  unfold genesisFloorVector at h
  split at h
  · cases h
  · next source vectors heq =>
      cases h
      exact suite.floorVector source vectors heq p label

end CoreTex
