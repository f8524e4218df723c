import CoreTex.Dispatch.Replay
import CoreTex.Publication.Store

/-!
# CoreTex.Snapshot.Evidence

The published evidence that a replay reads (`snapshot.py`, and `verify_epoch_context` in
`replay.py`): the genesis frontier, an evaluation artifact with everything it lists, and the context
of an epoch.

`eval_report_hash` validates an evaluation artifact and hashes it. Which artifacts it accepts plays
no part in where they are replayed, so it is given, as is the object source.
-/

namespace CoreTex.Snapshot

open CoreTex.Lib CoreTex.Publication

/-- Where a reconstruction raises. -/
inductive SnapshotBuildError
  | genesis
  | rows
  | json
  | store
  | descriptor
  | artifact
  | evaluation
  | availability
  | witness
  | context
  | frontier
  | replay
  deriving DecidableEq, Repr

/-- What the evidence is read with. -/
structure ObjectSource where
  fetch : PyStr → HashRule → Option Bytes
  evalReportHash : Json → Option PyStr
  reprFloat : PyStr → PyStr

/-- `_load_json_bytes`. -/
def loadJsonBytes (raw : Bytes) : Except SnapshotBuildError Json := do
  match ← (documentOf raw).mapError fun _ => .json with
  | .obj pairs => pure (.obj pairs)
  | _ => throw .json

/-- `value == text`. -/
def equalsText (value : Json) (text : PyStr) : Bool :=
  match value with
  | .str s => s = text
  | _ => false

/-! ### The genesis -/

/-- What a reconstruction reads of a release. The other genesis objects only reach the store. -/
structure Release where
  genesisFrontier : Json
  genesisFrontierRoot : PyStr
  seedObjects : InMemoryCAS → Option InMemoryCAS
  baselineRoot : PyStr
  benchmarkLawRoot : PyStr
  canonicalSuiteRoot : PyStr
  counterResourceLawRoot : PyStr
  minerModuleAbiRoot : PyStr
  evaluationLawRoot : PyStr

/-- `_seed_genesis_objects`. -/
def seedGenesisObjects (release : Release) (store : InMemoryCAS) :
    Except SnapshotBuildError (Json × InMemoryCAS) := do
  let wrapper ← (checkClosedFields release.genesisFrontier ["format", "frontier_root", "manifest"]
    "GENESIS-FRONTIER.json").mapError fun _ => .genesis
  refuseIf ((field wrapper "format").isStr "coretex.genesis-frontier/v1" = false) .genesis
  let root ← (frontierRoot (field wrapper "manifest")).mapError fun _ => .genesis
  refuseIf (root.hex ≠ release.genesisFrontierRoot) .genesis
  refuseIf (equalsText (field wrapper "frontier_root") release.genesisFrontierRoot = false) .genesis
  let store ← expect .genesis (release.seedObjects store)
  return (field wrapper "manifest", store)

/-! ### Objects -/

/-- `store.put`. -/
def putObject (store : InMemoryCAS) (root : PyStr) (data : Bytes) :
    Except SnapshotBuildError InMemoryCAS :=
  if h : isRoot root = true then .ok (store.put ⟨root, h⟩ data) else .error .store

/-- `store.has`. -/
def hasObject (store : InMemoryCAS) (root : PyStr) : Except SnapshotBuildError Bool :=
  if h : isRoot root = true then .ok (JsMap.has store ⟨root, h⟩) else .error .store

section Fetching

variable (source : ObjectSource)

/-- `_fetch_item`. -/
def fetchItem (store : InMemoryCAS) (item : Publication.AvailabilityItem) :
    Except SnapshotBuildError InMemoryCAS := do
  let raw ← expect .availability (source.fetch item.root.hex item.hashRule)
  let observed ← (rootOf source.reprFloat raw item.hashRule).mapError fun _ => .availability
  refuseIf (observed ≠ item.root ∨ raw.length ≠ item.byteLength) .availability
  return store.put item.root raw

/-- The loop over an availability map, by kind. -/
def fetchMissing (store : InMemoryCAS) (records : List (PyStr × Publication.AvailabilityItem)) :
    Except SnapshotBuildError InMemoryCAS :=
  (sortPairs records).foldlM
    (fun store e => if JsMap.has store e.2.root then pure store else fetchItem source store e.2)
    store

/-- The determinism witness's source. -/
def fetchWitness (store : InMemoryCAS) (witness : Json) :
    Except SnapshotBuildError InMemoryCAS :=
  match witness.get "source_root" with
  | .str root => do
    if ← hasObject store root then return store
    else
      let raw ← expect .witness (source.fetch root .frontierJson)
      let observed ← (rootOf source.reprFloat raw .frontierJson).mapError fun _ => .witness
      refuseIf (observed.hex ≠ root) .witness
      putObject store root raw
  | _ => throw .witness

/-- An evaluation artifact, its availability map, and the store that holds what it lists. -/
structure Evidence where
  artifact : Json
  availability : List (PyStr × Publication.AvailabilityItem)
  store : InMemoryCAS

/-- The evaluation at a root, and all it lists. `check` is what the caller asks of it first. -/
def collectEvidence (root : PyStr) (check : Json → Bool) (store : InMemoryCAS) :
    Except SnapshotBuildError Evidence := do
  let raw ← expect .evaluation (source.fetch root .frontierJson)
  let artifact ← loadJsonBytes raw
  let observed ← expect .evaluation (source.evalReportHash artifact)
  refuseIf (observed ≠ root) .evaluation
  refuseIf (check artifact = false) .evaluation
  let store ← putObject store root raw
  let availability ← (Publication.validateAvailability (artifact.get "availability")).mapError
    fun _ => .availability
  let store ← fetchMissing source store availability
  let store ← fetchWitness source store (artifact.get "determinism_witness")
  return ⟨artifact, availability, store⟩

/-- `publication.fetch_json` of one kind of the availability map. -/
def fetchJson (evidence : Evidence) (kind : String) : Except SnapshotBuildError Json := do
  let item ← expect .availability (JsMap.get evidence.availability (py kind))
  refuseIf (item.hashRule = .bytes) .availability
  let data ← (readBack source.reprFloat item.root item.hashRule evidence.store
    (some item.byteLength)).mapError fun _ => .availability
  (documentOf data).mapError fun _ => .availability

end Fetching

/-! ### The context of an epoch -/

/-- The fields of a context. -/
def epochContextFields : List String :=
  ["active_frontier_root", "baseline_manifest_hash", "benchmark_law_root", "corpus_root",
    "counter_resource_law_root", "epoch", "format", "runtime_abi_root", "seed_commitment",
    "selection_law_root"]

/-- `EPOCH_CONTEXT_FORMAT`. -/
def epochContextFormat : String := "coretex.epoch-context/v1"

/-- The seed scheme of every context. -/
def seedScheme : List (String × String) := [
  ("binding_rule", "revealed secret S is admitted iff keccak256(S) == epochCommit(epochId)"),
  ("commitment_source", "mining.epochCommit(epochId)"),
  ("scheme", "keccak256-hidden-seed/v1")]

/-- `seed == {...}`. -/
def isSeedScheme (seed : Json) : Bool :=
  match checkClosedFields seed (seedScheme.map Prod.fst) "seed_commitment" with
  | .ok members => seedScheme.all fun e => (field members e.1).isStr e.2
  | .error _ => false

/-- `value == epoch`, where `True` equals 1. A float is refused with the canonical bytes. -/
def equalsNat (value : Json) (n : Nat) : Bool :=
  match value with
  | .int m => m = n
  | .bool b => b.toNat = n
  | _ => false

/-- `expected_roots`. -/
def Release.expectedRoots (release : Release) (activeFrontierRoot : PyStr) :
    List (String × PyStr) := [
  ("active_frontier_root", activeFrontierRoot),
  ("baseline_manifest_hash", release.baselineRoot),
  ("benchmark_law_root", release.benchmarkLawRoot),
  ("corpus_root", release.canonicalSuiteRoot),
  ("counter_resource_law_root", release.counterResourceLawRoot),
  ("runtime_abi_root", release.minerModuleAbiRoot),
  ("selection_law_root", release.evaluationLawRoot)]

/-- `verify_epoch_context`, with the pins it returns. -/
def verifyEpochContext (release : Release) (value : Json) (epoch : Nat)
    (epochContextRoot activeFrontierRoot : PyStr) : Except SnapshotBuildError Json := do
  let members ← (checkClosedFields value epochContextFields "epoch context").mapError
    fun _ => .context
  refuseIf ((field members "format").isStr epochContextFormat = false) .context
  refuseIf (equalsNat (field members "epoch") epoch = false) .context
  let bytes ← (canonicalBytes value).mapError fun _ => .context
  refuseIf ((sha256Hex bytes).hex ≠ epochContextRoot) .context
  refuseIf (∃ e ∈ release.expectedRoots activeFrontierRoot,
    equalsText (field members e.1) e.2 = false) .context
  refuseIf (isSeedScheme (field members "seed_commitment") = false) .context
  let benchmarkLawRoot ← (checkRoot (field members "benchmark_law_root")
    "benchmark_law_root").mapError fun _ => .context
  let runtimeAbiRoot ← (checkRoot (field members "runtime_abi_root")
    "runtime_abi_root").mapError fun _ => .context
  return .obj [(py "benchmark_law_root", benchmarkLawRoot.json), (py "epoch", .int epoch),
    (py "epoch_context_root", .str epochContextRoot),
    (py "runtime_abi_root", runtimeAbiRoot.json)]

/-! ### Roots of documents -/

/-- The document has the frontier root. -/
def HasFrontierRoot (manifest : Json) (root : PyStr) : Prop :=
  ∃ r, frontierRoot manifest = .ok r ∧ r.hex = root

/-- The document's canonical bytes hash to the root. -/
def HasContextRoot (context : Json) (root : PyStr) : Prop :=
  ∃ bytes, canonicalBytes context = .ok bytes ∧ (sha256Hex bytes).hex = root

theorem verifyEpochContext_root {release : Release} {value pins : Json} {epoch : Nat}
    {epochContextRoot activeFrontierRoot : PyStr}
    (h : verifyEpochContext release value epoch epochContextRoot activeFrontierRoot = .ok pins) :
    HasContextRoot value epochContextRoot := by
  obtain ⟨members, -, h⟩ := bind_eq_ok.mp h
  obtain ⟨-, h⟩ := refuseIf_bind_eq_ok.mp h
  obtain ⟨-, h⟩ := refuseIf_bind_eq_ok.mp h
  obtain ⟨bytes, hbytes, h⟩ := bind_eq_ok.mp h
  obtain ⟨hroot, -⟩ := refuseIf_bind_eq_ok.mp h
  exact ⟨bytes, mapError_eq_ok.mp hbytes, not_not.mp hroot⟩

/-- What is seeded is the release's own genesis manifest. -/
theorem seedGenesisObjects_eq_ok {release : Release} {store store' : InMemoryCAS} {genesis : Json}
    (h : seedGenesisObjects release store = .ok (genesis, store')) :
    genesis = release.genesisFrontier.get "manifest" ∧
      HasFrontierRoot genesis release.genesisFrontierRoot := by
  obtain ⟨wrapper, hwrapper, h⟩ := bind_eq_ok.mp h
  obtain ⟨-, h⟩ := refuseIf_bind_eq_ok.mp h
  obtain ⟨root, hroot, h⟩ := bind_eq_ok.mp h
  obtain ⟨hsame, h⟩ := refuseIf_bind_eq_ok.mp h
  obtain ⟨-, h⟩ := refuseIf_bind_eq_ok.mp h
  obtain ⟨seeded, -, h⟩ := bind_eq_ok.mp h
  cases h
  have hdocument := (checkClosedFields_eq_ok.mp (mapError_eq_ok.mp hwrapper)).1
  exact ⟨by rw [hdocument]; rfl, root, mapError_eq_ok.mp hroot, not_not.mp hsame⟩

end CoreTex.Snapshot
