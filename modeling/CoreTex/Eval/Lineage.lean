import CoreTex.Eval.Dominance

/-!
# CoreTex.Eval.Lineage

Where the stored vectors of a parent come from (`resolve_determinism_witness_source` of
`eval_artifact.py`): the sealed genesis baseline, or the artifact that was accepted before.

A lineage is a run of admitted artifacts, each resolved to the one before it. One step is a
bounded trade that makes progress (`Succeeds.qualifies`), and so no lineage loses what its steps
may not lose together, recurs, or goes on for ever.
-/

namespace CoreTex

open CoreTex.Lib

/-! ### Sources -/

/-- `GENESIS_BASELINE_PROFILE_FIELDS`. -/
structure GenesisBaselineProfile where
  lawId : PyStr
  partitions : SelectionLabel → AbsoluteVector
  profileId : ProfileId
  releaseRoot : Root
  storedVectorRoot : Root
  suiteRoot : Root

/-- `GENESIS_BASELINE_FIELDS`. -/
structure GenesisBaseline where
  baselineRoot : Root
  format : PyStr
  lawId : PyStr
  profiles : ProfileId → GenesisBaselineProfile
  suiteRoot : Root

/-- `release_baseline_authority`: the sealed initial releases. -/
structure ReleaseBaseline where
  releaseRoot : ProfileId → Option Root
  partitions : ProfileId → SelectionLabel → AbsoluteVector

/-- `GENESIS_BASELINE_FORMAT`. -/
def genesisBaselineFormat : String := "coretex.genesis-baseline/v1"

/-- `vector_body`: a row without its own root. -/
def GenesisBaselineProfile.body (row : GenesisBaselineProfile) : List (PyStr × Json) := [
  (py "law_id", .str row.lawId),
  (py "partitions", labelsJson AbsoluteVector.json row.partitions),
  (py "profile_id", .str (py row.profileId.id)),
  (py "release_root", row.releaseRoot.json),
  (py "suite_root", row.suiteRoot.json)]

def GenesisBaselineProfile.json (row : GenesisBaselineProfile) : Json :=
  .obj (row.body ++ [(py "stored_vector_root", row.storedVectorRoot.json)])

/-- A baseline without its own root. -/
def GenesisBaseline.body (doc : GenesisBaseline) : List (PyStr × Json) := [
  (py "format", .str doc.format),
  (py "law_id", .str doc.lawId),
  (py "profiles", .obj (profileIds.map fun p => (py p.id, (doc.profiles p).json))),
  (py "suite_root", doc.suiteRoot.json)]

/-- `_genesis_baseline_root`. -/
def genesisBaselineRoot (doc : GenesisBaseline) : Except EvalArtifactError Root := do
  let bytes ← frontierCall (canonicalBytes (.obj doc.body))
  .ok (sha256Hex bytes)

/-- One row of `_validate_genesis_baseline`. -/
def validateGenesisBaselineProfile (baseline : ReleaseBaseline) (doc : GenesisBaseline)
    (profileId : ProfileId) : Except EvalArtifactError Unit := do
  let row := doc.profiles profileId
  let path := "genesis_baseline.profiles" ++ bracketed profileId.id
  refuseIf (row.lawId ≠ py fixedSuiteLawId ∨ row.profileId ≠ profileId) (.schema path)
  refuseIf (row.suiteRoot ≠ doc.suiteRoot) (.schema (path ++ ".suite_root"))
  refuseIf (some row.releaseRoot ≠ baseline.releaseRoot profileId)
    (.schema (path ++ ".release_root"))
  selectionLabels.forM fun label => do
    let cell := path ++ ".partitions" ++ bracketed label.name
    validateVector (row.partitions label) cell profileId
    refuseIf (row.partitions label ≠ baseline.partitions profileId label) (.schema cell)
  let bytes ← frontierCall (canonicalBytes (.obj row.body))
  refuseIf (row.storedVectorRoot ≠ sha256Hex bytes) (.schema (path ++ ".stored_vector_root"))

/-- `_validate_genesis_baseline`. -/
def validateGenesisBaseline (baseline : ReleaseBaseline) (doc : GenesisBaseline)
    (expectedRoot : Root) : Except EvalArtifactError Unit := do
  refuseIf (doc.format ≠ py genesisBaselineFormat) (.schema "genesis_baseline.format")
  refuseIf (doc.lawId ≠ py fixedSuiteLawId) (.schema "genesis_baseline.law_id")
  let computed ← genesisBaselineRoot doc
  refuseIf (doc.baselineRoot ≠ computed ∨ computed ≠ expectedRoot)
    (.schema "genesis_baseline.baseline_root")
  profileIds.forM (validateGenesisBaselineProfile baseline doc)

/-- `eval_report_hash`. -/
def evalReportHash (canonical : CanonicalSuite) (a : EvalArtifact) :
    Except EvalArtifactError Root := do
  validateArtifact canonical a
  let bytes ← artifactCanonicalBytes a
  .ok (sha256Hex bytes)

/-- What a reader of the store makes of the object at a root: it is absent, or its bytes are not
a document of the closed schema, or they are. -/
inductive StoredObject (α : Type)
  | absent
  | malformed
  | document (doc : α)

/-- The public objects that a witness may name. -/
structure WitnessStore where
  baseline : Root → StoredObject GenesisBaseline
  artifact : Root → StoredObject EvalArtifact

/-- `WitnessSourceUnavailableError`, and `WitnessSourceMismatchError` with what differs. -/
inductive WitnessSourceError
  | unavailable
  | mismatch (what : String)
  deriving DecidableEq

/-- A refusal of the artifact layer, where it makes the object not be what the witness says. -/
def sourceCall {α : Type} (what : String) (x : Except EvalArtifactError α) :
    Except WitnessSourceError α :=
  x.mapError fun _ => .mismatch what

@[simp] theorem sourceCall_eq_ok {α : Type} {what : String} {x : Except EvalArtifactError α}
    {a : α} : sourceCall what x = .ok a ↔ x = .ok a := by
  cases x <;> simp [sourceCall, Except.mapError]

section Resolve

variable (canonical : CanonicalSuite) (baseline : ReleaseBaseline) (store : WitnessStore)

/-- The branch of a `genesis` source. -/
def genesisSource (witness : DeterminismWitness) :
    Except WitnessSourceError (SelectionLabel → AbsoluteVector) :=
  match store.baseline witness.sourceRoot with
  | .absent => throw .unavailable
  | .malformed => throw (.mismatch "sealed baseline")
  | .document source => do
    sourceCall "sealed baseline" (validateGenesisBaseline baseline source witness.sourceRoot)
    let row := source.profiles witness.profileId
    refuseIf (row.lawId ≠ witness.lawId) (.mismatch "law_id")
    refuseIf (row.suiteRoot ≠ witness.suiteRoot) (.mismatch "suite_root")
    refuseIf (row.profileId ≠ witness.profileId) (.mismatch "profile_id")
    refuseIf (row.releaseRoot ≠ witness.releaseRoot) (.mismatch "release_root")
    return row.partitions

/-- The branch of a `prior_accept` source. -/
def priorAcceptSource (witness : DeterminismWitness) :
    Except WitnessSourceError (SelectionLabel → AbsoluteVector) :=
  match store.artifact witness.sourceRoot with
  | .absent => throw .unavailable
  | .malformed => throw (.mismatch "current eval artifact")
  | .document prior => do
    let reportHash ← sourceCall "current eval artifact" (evalReportHash canonical prior)
    refuseIf (reportHash ≠ witness.sourceRoot ∨ prior.verdict.admitted = false)
      (.mismatch "content-addressed accepting artifact")
    refuseIf (prior.suite.suiteRoot ≠ witness.suiteRoot) (.mismatch "suite_root")
    refuseIf (prior.candidate.targetProfile ≠ witness.profileId) (.mismatch "profile_id")
    refuseIf (prior.candidate.releaseRoot ≠ witness.releaseRoot) (.mismatch "release_root")
    return fun label => (prior.dominance.partitions label).candidateVector

/-- `source_partitions`, by the kind of the source. -/
def sourcePartitions (witness : DeterminismWitness) :
    Except WitnessSourceError (SelectionLabel → AbsoluteVector) :=
  if witness.sourceKind = py "genesis" then genesisSource baseline store witness
  else priorAcceptSource canonical store witness

/-- `resolve_determinism_witness_source`. -/
def resolveDeterminismWitnessSource (a : EvalArtifact) : Except WitnessSourceError Unit := do
  let source ← sourcePartitions canonical baseline store a.determinismWitness
  selectionLabels.forM fun label =>
    refuseIf (source label ≠ a.determinismWitness.partitions label)
      (.mismatch ("stored vector" ++ bracketed label.name))

/-! ### Lineages -/

/-- What an artifact must pass to be admitted. -/
structure Verified (a : EvalArtifact) : Prop where
  valid : validateArtifact canonical a = .ok ()
  floor : verifyGenesisFloor canonical a = .ok ()
  dominance : verifyDominanceBlock canonical a = .ok ()
  admitted : a.verdict.admitted = true

/-- The stored vectors of an artifact are resolved to the artifact before it. -/
structure Succeeds (prior a : EvalArtifact) : Prop where
  kind : a.determinismWitness.sourceKind ≠ py "genesis"
  stored : store.artifact a.determinismWitness.sourceRoot = .document prior
  resolved : resolveDeterminismWitnessSource canonical baseline store a = .ok ()

/-- Admitted artifacts, oldest first, each resolved to the one before it. -/
structure Lineage (as : List EvalArtifact) : Prop where
  verified : ∀ a ∈ as, Verified canonical a
  chain : as.IsChain (Succeeds canonical baseline store)

end Resolve

/-- What a partition measured of its candidate. -/
def EvalArtifact.measured (a : EvalArtifact) (label : SelectionLabel) : AbsoluteVector :=
  (a.dominance.partitions label).candidateVector

/-- The vector that the candidate of a partition was held against. -/
def EvalArtifact.parentVector (a : EvalArtifact) (label : SelectionLabel) : AbsoluteVector :=
  (a.dominance.partitions label).incumbentVector

/-- The objectives of a vector, added up. -/
def AbsoluteVector.total (v : AbsoluteVector) : Int :=
  (v.objectivesMicro.entries.map Prod.snd).sum

theorem AbsoluteVector.total_eq {v : AbsoluteVector} {objectives : List PyStr}
    (h : v.objectivesMicro.keys = objectives) :
    v.total = ∑ oid ∈ objectives.toFinset, v.quality oid := by
  rw [← h]
  exact v.objectivesMicro.sum_entries fun _ value => value

/-- A trade that the law takes lowers neither the composite nor the sum of the objectives. -/
theorem LawQualifies.rises {objectives : List PyStr} {floor inc cand : AbsoluteVector}
    (h : LawQualifies objectives floor inc cand) (hinc : inc.objectivesMicro.keys = objectives)
    (hcand : cand.objectivesMicro.keys = objectives) :
    inc.compositePpm ≤ cand.compositePpm ∧ inc.total ≤ cand.total := by
  constructor
  · rcases h.progress with hrise | ⟨hheld, -⟩
    · exact hrise.le
    · exact hheld.le
  · rw [AbsoluteVector.total_eq hinc, AbsoluteVector.total_eq hcand]
    exact h.trade.sum_le (by decide)

section Step

variable {canonical : CanonicalSuite} {baseline : ReleaseBaseline} {store : WitnessStore}
  {prior a : EvalArtifact}

theorem Verified.validDominance (h : Verified canonical a) :
    ValidDominance a.candidate.targetProfile a.determinismWitness.partitions true a.dominance :=
  h.admitted ▸ validateDominanceBlock_valid (validateArtifact_eq_ok.mp h.valid).dominance

theorem Verified.lawBlock (h : Verified canonical a) : LawBlock a :=
  (verifyDominanceBlock_eq_ok (validateArtifact_eq_ok.mp h.valid).dominance h.floor).mp h.dominance

/-- An admitted artifact is a trade that the law takes, from the vectors of its parent. -/
theorem Verified.qualifies (h : Verified canonical a) (label : SelectionLabel) :
    LawQualifies (declaredObjectives a.candidate.targetProfile) (a.genesisFloor.partitions label)
      (a.parentVector label) (a.measured label) :=
  h.lawBlock.admitted.mp h.validDominance.verdict label

/-- The profile that a verified artifact stores the vectors of its parent for. -/
theorem Verified.profile (h : Verified canonical a) :
    a.determinismWitness.profileId = a.candidate.targetProfile := by
  obtain ⟨-, hwitness⟩ := refuseIf_bind_eq_ok.mp (validateArtifact_eq_ok.mp h.valid).witness
  obtain ⟨-, hwitness⟩ := refuseIf_bind_eq_ok.mp hwitness
  obtain ⟨hprofile, -⟩ := refuseIf_bind_eq_ok.mp hwitness
  exact not_not.mp hprofile

/-- What resolves to an artifact is measured against what that artifact measured. -/
theorem Succeeds.inherits (h : Succeeds canonical baseline store prior a) :
    (∀ label, a.determinismWitness.partitions label = prior.measured label) ∧
      prior.candidate.targetProfile = a.determinismWitness.profileId := by
  obtain ⟨source, hsource, hlabels⟩ := bind_eq_ok.mp h.resolved
  rw [sourcePartitions, if_neg h.kind, priorAcceptSource, h.stored] at hsource
  obtain ⟨_, -, hsource⟩ := bind_eq_ok.mp hsource
  obtain ⟨-, hsource⟩ := refuseIf_bind_eq_ok.mp hsource
  obtain ⟨-, hsource⟩ := refuseIf_bind_eq_ok.mp hsource
  obtain ⟨hprofile, hsource⟩ := refuseIf_bind_eq_ok.mp hsource
  obtain ⟨-, hsource⟩ := refuseIf_bind_eq_ok.mp hsource
  rw [← pure_eq_ok.mp hsource] at hlabels
  refine ⟨fun label => ?_, not_not.mp hprofile⟩
  have hlabel := forM_eq_ok.mp hlabels label (mem_selectionLabels label)
  exact (not_not.mp (refuseIf_eq_ok.mp hlabel)).symm

/-- One step of a lineage: the profile stays, and the vectors of the artifact before are traded
for those of the next. -/
structure LineageStep (prior a : EvalArtifact) : Prop where
  profile : a.candidate.targetProfile = prior.candidate.targetProfile
  parent : ∀ label, a.parentVector label = prior.measured label
  qualifies : ∀ label, LawQualifies (declaredObjectives a.candidate.targetProfile)
    (a.genesisFloor.partitions label) (prior.measured label) (a.measured label)
  valid : ∀ label, ValidPartition a.candidate.targetProfile (a.dominance.partitions label)
  ppm : ∀ label, (a.measured label).compositePpm ≤ maxUint32

theorem Succeeds.step (h : Succeeds canonical baseline store prior a) (ha : Verified canonical a) :
    LineageStep prior a := by
  obtain ⟨hstored, hprofile⟩ := h.inherits
  have hparent : ∀ label, a.parentVector label = prior.measured label := fun label =>
    (ha.validDominance.incumbent label).trans (hstored label)
  refine ⟨?_, hparent, fun label => ?_, ha.validDominance.partitions, fun label => ?_⟩
  · rw [hprofile, ha.profile]
  · rw [← hparent]
    exact ha.qualifies label
  · have hafter := (ha.validDominance.partitions label).after_le
    rw [(ha.lawBlock.partitions label).after] at hafter
    exact hafter

theorem LineageStep.objectives (h : LineageStep prior a) (label : SelectionLabel) :
    (prior.measured label).objectivesMicro.keys = declaredObjectives a.candidate.targetProfile :=
  h.parent label ▸ (h.valid label).incumbent.objectives

theorem LineageStep.progress (h : LineageStep prior a) (label : SelectionLabel) :
    Progress AbsoluteVector.compositePpm AbsoluteVector.resource (prior.measured label)
      (a.measured label) :=
  (h.qualifies label).progress

/-- What a step lets dip is paid out of what it lets rise. -/
theorem LineageStep.dips_le (h : LineageStep prior a) (label : SelectionLabel) :
    dipTotal (a.measured label) (a.parentVector label) ≤
      (a.measured label).total - (prior.measured label).total := by
  have hcand : (a.measured label).objectivesMicro.keys =
      declaredObjectives a.candidate.targetProfile := (h.valid label).candidate.objectives
  have hnet := (h.qualifies label).trade.net_le
  have hdips : dipTotal (a.measured label) (a.parentVector label) =
      ∑ oid ∈ (declaredObjectives a.candidate.targetProfile).toFinset,
        dip (prior.measured label).quality (a.measured label).quality oid := by
    rw [h.parent]
    exact dipTotal_eq hcand
  rw [hdips, AbsoluteVector.total_eq (h.objectives label), AbsoluteVector.total_eq hcand]
  simpa [qualityDipPaymentRatio] using hnet

/-- A sealed baseline has the vectors of the release. -/
theorem validateGenesisBaseline_partitions {doc : GenesisBaseline} {root : Root}
    (h : validateGenesisBaseline baseline doc root = .ok ()) (p : ProfileId)
    (label : SelectionLabel) : (doc.profiles p).partitions label = baseline.partitions p label := by
  obtain ⟨-, h⟩ := refuseIf_bind_eq_ok.mp h
  obtain ⟨-, h⟩ := refuseIf_bind_eq_ok.mp h
  obtain ⟨_, -, h⟩ := bind_eq_ok.mp h
  obtain ⟨-, h⟩ := refuseIf_bind_eq_ok.mp h
  have hrow := forM_eq_ok.mp h p (mem_profileIds p)
  obtain ⟨-, hrow⟩ := refuseIf_bind_eq_ok.mp hrow
  obtain ⟨-, hrow⟩ := refuseIf_bind_eq_ok.mp hrow
  obtain ⟨-, hrow⟩ := refuseIf_bind_eq_ok.mp hrow
  obtain ⟨_, hlabels, -⟩ := bind_eq_ok.mp hrow
  obtain ⟨_, -, hlabel⟩ :=
    bind_eq_ok.mp (forM_eq_ok.mp hlabels label (mem_selectionLabels label))
  exact not_not.mp (refuseIf_eq_ok.mp hlabel)

/-- What resolves to genesis is measured against the vectors of the release. -/
theorem resolve_genesis (hkind : a.determinismWitness.sourceKind = py "genesis")
    (h : resolveDeterminismWitnessSource canonical baseline store a = .ok ())
    (label : SelectionLabel) : a.determinismWitness.partitions label =
      baseline.partitions a.determinismWitness.profileId label := by
  obtain ⟨source, hsource, hlabels⟩ := bind_eq_ok.mp h
  have hlabel := not_not.mp
    (refuseIf_eq_ok.mp (forM_eq_ok.mp hlabels label (mem_selectionLabels label)))
  rw [sourcePartitions, if_pos hkind, genesisSource] at hsource
  split at hsource
  · exact absurd hsource throw_ne_ok
  · exact absurd hsource throw_ne_ok
  · obtain ⟨_, hsealed, hsource⟩ := bind_eq_ok.mp hsource
    obtain ⟨-, hsource⟩ := refuseIf_bind_eq_ok.mp hsource
    obtain ⟨-, hsource⟩ := refuseIf_bind_eq_ok.mp hsource
    obtain ⟨-, hsource⟩ := refuseIf_bind_eq_ok.mp hsource
    obtain ⟨-, hsource⟩ := refuseIf_bind_eq_ok.mp hsource
    rw [← hlabel, ← pure_eq_ok.mp hsource]
    exact validateGenesisBaseline_partitions (sourceCall_eq_ok.mp hsealed) _ label

end Step

section Runs

variable {canonical : CanonicalSuite} {baseline : ReleaseBaseline} {store : WitnessStore}

theorem Lineage.steps {as : List EvalArtifact} (h : Lineage canonical baseline store as) :
    as.IsChain LineageStep :=
  h.chain.imp_of_mem_imp fun _ a _ ha hsucceeds => hsucceeds.step (h.verified a ha)

/-- A later artifact of the same profile has no lower composite and no lower sum of objectives. -/
structure Improves (prior a : EvalArtifact) : Prop where
  profile : a.candidate.targetProfile = prior.candidate.targetProfile
  composite : ∀ label, (prior.measured label).compositePpm ≤ (a.measured label).compositePpm
  total : ∀ label, (prior.measured label).total ≤ (a.measured label).total

instance : IsTrans EvalArtifact Improves where
  trans _ _ _ hab hbc := ⟨hbc.profile.trans hab.profile,
    fun label => (hab.composite label).trans (hbc.composite label),
    fun label => (hab.total label).trans (hbc.total label)⟩

theorem LineageStep.improves {prior a : EvalArtifact} (h : LineageStep prior a) :
    Improves prior a where
  profile := h.profile
  composite label := ((h.qualifies label).rises (h.objectives label)
    (h.valid label).candidate.objectives).1
  total label := ((h.qualifies label).rises (h.objectives label)
    (h.valid label).candidate.objectives).2

/-- **A lineage keeps what it has.** Every artifact of a lineage stands above the floor of the
suite, objective by objective within the tolerance, and under its caps; every later one improves
on every earlier one. -/
theorem lineage_keeps {as : List EvalArtifact} (h : Lineage canonical baseline store as) :
    (∀ a ∈ as, ∀ label, ∃ floor,
      canonical.genesisFloorVector a.candidate.targetProfile label = .ok floor ∧
      floor.compositePpm ≤ (a.measured label).compositePpm ∧
      (∀ oid ∈ declaredObjectives a.candidate.targetProfile,
        floor.quality oid - qualityDipToleranceMicro ≤ (a.measured label).quality oid) ∧
      ∀ axis, (a.measured label).resource axis ≤ floor.envelope axis ∧
        (a.measured label).envelope axis = floor.envelope axis) ∧
    as.Pairwise Improves := by
  refine ⟨fun a ha label => ?_, (h.steps.imp fun _ _ => LineageStep.improves).pairwise⟩
  have hverified := h.verified a ha
  have hqualifies := hverified.qualifies label
  exact ⟨_, verifyGenesisFloor_vectors hverified.floor label, hqualifies.floorComposite,
    hqualifies.floorQuality, fun axis => ⟨hqualifies.capped axis,
      ((hverified.lawBlock.partitions label).caps axis).2⟩⟩

/-- **A lineage that starts at genesis never falls below the release.** -/
theorem lineage_above_release {first : EvalArtifact} {rest : List EvalArtifact}
    (h : Lineage canonical baseline store (first :: rest))
    (hkind : first.determinismWitness.sourceKind = py "genesis")
    (hresolved : resolveDeterminismWitnessSource canonical baseline store first = .ok ()) :
    ∀ a ∈ first :: rest, ∀ label,
      (baseline.partitions a.candidate.targetProfile label).compositePpm ≤
          (a.measured label).compositePpm ∧
        (baseline.partitions a.candidate.targetProfile label).total ≤ (a.measured label).total := by
  have hverified := h.verified first (List.mem_cons_self ..)
  have hparent : ∀ label, first.parentVector label =
      baseline.partitions first.candidate.targetProfile label := by
    intro label
    rw [← hverified.profile, ← resolve_genesis hkind hresolved label]
    exact hverified.validDominance.incumbent label
  have hfirst : ∀ label,
      (baseline.partitions first.candidate.targetProfile label).compositePpm ≤
          (first.measured label).compositePpm ∧
        (baseline.partitions first.candidate.targetProfile label).total ≤
          (first.measured label).total := by
    intro label
    have hpartition := hverified.validDominance.partitions label
    rw [← hparent]
    exact (hverified.qualifies label).rises hpartition.incumbent.objectives
      hpartition.candidate.objectives
  intro a ha label
  rcases List.mem_cons.mp ha with rfl | hrest
  · exact hfirst label
  · have himproves := List.rel_of_pairwise_cons (lineage_keeps h).2 hrest
    rw [himproves.profile]
    exact ⟨(hfirst label).1.trans (himproves.composite label),
      (hfirst label).2.trans (himproves.total label)⟩

/-- **Every dip is paid.** All that the objectives of a lineage ever dipped by is no more than the
sum of its objectives rose by from its first artifact to its last. -/
theorem lineage_pays {first : EvalArtifact} {rest : List EvalArtifact}
    (h : Lineage canonical baseline store (first :: rest)) (label : SelectionLabel) :
    (rest.map fun a => dipTotal (a.measured label) (a.parentVector label)).sum ≤
      (((first :: rest).getLast (List.cons_ne_nil first rest)).measured label).total -
        (first.measured label).total :=
  sum_cost_le (fun _ _ hstep => hstep.dips_le label) h.steps

/-- **No lineage recurs, and none is endless.** Along a lineage no pair of a composite and its
resources comes back, and the succession of verified artifacts is well founded. -/
theorem lineage_ends (canonical : CanonicalSuite) (baseline : ReleaseBaseline)
    (store : WitnessStore) (label : SelectionLabel) :
    (∀ as, Lineage canonical baseline store as →
      (as.map fun a => ((a.measured label).compositePpm, (a.measured label).resource)).Nodup) ∧
    WellFounded fun a prior =>
      Verified canonical a ∧ Succeeds canonical baseline store prior a := by
  constructor
  · intro as h
    have hchain : as.IsChain (Progress (fun a : EvalArtifact => (a.measured label).compositePpm)
        fun a => (a.measured label).resource) :=
      h.steps.imp fun _ _ hstep => hstep.progress label
    exact nodup_of_progress hchain
  · have hstep : ∀ prior a, Verified canonical a ∧ Succeeds canonical baseline store prior a →
        LineageStep prior a := fun _ _ h => h.2.step h.1
    have hprogress : ∀ prior a, Verified canonical a ∧ Succeeds canonical baseline store prior a →
        Progress (fun a : EvalArtifact => (a.measured label).compositePpm)
          (fun a => (a.measured label).resource) prior a :=
      fun _ _ h => (hstep _ _ h).progress label
    exact wellFounded_of_progress hprogress (fun _ _ h => (hstep _ _ h).ppm label)
      fun _ _ h => ((hstep _ _ h).valid label).candidate.resource

end Runs

/-! ### A lineage -/

theorem canonicalBytes_of_checkValue {members : List (PyStr × Json)}
    (h : checkValue (.obj members) 0 = .ok ()) :
    frontierCall (canonicalBytes (.obj members)) = .ok (Json.obj members).dumps := by
  rw [frontierCall_eq_ok, canonicalBytes, h]
  rfl

theorem validateParentStoredVector_sampleWitness {inc : AbsoluteVector} {kind : String}
    {source release : Root} (hkind : kind = "genesis" ∨ kind = "prior_accept")
    (hvectors : (selectionLabels.forM fun label => do
      let path := "parent_stored_vector.partitions" ++ bracketed label.name
      validateVector inc path .convPref
      let floor ← suiteCall (sampleSuite.genesisFloorVector .convPref label)
      refuseIf (inc.suiteBlockId ≠ floor.suiteBlockId) (.schema (path ++ ".suite_block_id"))
      resourceAxes.forM fun axis =>
        refuseIf (inc.envelope axis ≠ floor.envelope axis)
          (.schema (path ++ "." ++ axis.capKey))) = .ok ()) :
    validateParentStoredVector sampleSuite (sampleWitness inc kind source release) .convPref
      release zeroRoot = .ok () := by
  have hdepth : 0 + 5 ≤ maxDepth := by decide
  have hpartitions : ∀ block : SelectionLabel → AbsoluteVector,
      checkValue (labelsJson AbsoluteVector.json block) (0 + 1) = .ok () := fun _ =>
    checkValue_labelsJson (by omega) fun v => v.checkValue_json (by omega)
  have hbody : checkValue (.obj (sampleWitness inc kind source release).body) 0 = .ok () := by
    simp (disch := omega) [DeterminismWitness.body, checkValue_obj, hpartitions]
  have hroot : witnessRoot (sampleWitness inc kind source release) =
      .ok (sampleWitness inc kind source release).witnessRoot := by
    rw [witnessRoot, canonicalBytes_of_checkValue hbody]
    rfl
  have hsource : ¬ (py kind ≠ py "genesis" ∧ py kind ≠ py "prior_accept") := by
    rcases hkind with rfl | rfl
    · exact fun h => h.1 rfl
    · exact fun h => h.2 rfl
  refine refuseIf_bind_eq_ok.mpr ⟨not_not_intro rfl, refuseIf_bind_eq_ok.mpr ⟨not_not_intro rfl,
    refuseIf_bind_eq_ok.mpr ⟨not_not_intro rfl, refuseIf_bind_eq_ok.mpr ⟨not_not_intro rfl,
    refuseIf_bind_eq_ok.mpr ⟨hsource, bind_eq_ok.mpr ⟨(), hvectors, ?_⟩⟩⟩⟩⟩⟩
  rw [hroot]
  exact refuseIf_of_not (not_not_intro rfl) _

section Sample

variable {cand inc : AbsoluteVector} {progress : String} {gain : Int} {kind : String}
  {source prior release : Root}

/-- What an artifact of the sample is verified by, whatever its source is. -/
theorem verified_sampleArtifact (hmoves : release ≠ prior)
    (hprojection : validateAdmissionProjection true ⟨some (py progress), some gain, 0⟩ = .ok ())
    (hwitness : validateParentStoredVector sampleSuite (sampleWitness inc kind source prior)
      .convPref prior zeroRoot = .ok ())
    (hdominance : validateDominanceBlock
      ⟨true, py dominanceEngineId, fun _ => samplePartition cand inc progress gain⟩ .convPref
      (sampleWitness inc kind source prior) true = .ok ())
    (hverified : verifyDominanceBlock sampleSuite
      (sampleArtifact cand inc progress gain kind source prior release) = .ok ()) :
    Verified sampleSuite (sampleArtifact cand inc progress gain kind source prior release) where
  valid := by
    refine validateArtifact_eq_ok.mpr ?_
    constructor
    case frontier =>
      have htransition : validateTransition
            (sampleArtifact cand inc progress gain kind source prior
              release).frontier.transition.json =
          .ok ⟨prior, release, zeroRoot, .convPref⟩ := validateTransition_json.mpr ⟨hmoves, rfl⟩
      rw [validateFrontierBlock, htransition]
      rfl
    case replayInputs =>
      rw [validateReplayInputsBlock, validateManifest_json]
      rfl
    case projection => exact hprojection
    case witness => exact hwitness
    case dominance => exact hdominance
    all_goals rfl
  floor := by rfl
  dominance := hverified
  admitted := rfl

end Sample

/-- A root other than the one of zeros. -/
def acceptedRoot : Root where
  hex := List.replicate 64 49
  wellFormed := by decide

/-- The release that the lineage starts from. -/
def sampleRelease : ReleaseBaseline where
  releaseRoot := fun _ => some zeroRoot
  partitions := fun profileId _ => sampleVector profileId

/-- A row of its baseline, with the root that addresses it. -/
def sampleRow (profileId : ProfileId) : GenesisBaselineProfile :=
  let unaddressed : GenesisBaselineProfile := {
    lawId := py fixedSuiteLawId
    partitions := fun _ => sampleVector profileId
    profileId := profileId
    releaseRoot := zeroRoot
    storedVectorRoot := zeroRoot
    suiteRoot := zeroRoot }
  { unaddressed with storedVectorRoot := sha256Hex (Json.obj unaddressed.body).dumps }

/-- Its baseline, with the root that addresses it. -/
def sampleGenesis : GenesisBaseline :=
  let unaddressed : GenesisBaseline := {
    baselineRoot := zeroRoot
    format := py genesisBaselineFormat
    lawId := py fixedSuiteLawId
    profiles := sampleRow
    suiteRoot := zeroRoot }
  { unaddressed with baselineRoot := sha256Hex (Json.obj unaddressed.body).dumps }

/-- A rise of the composite from the release. -/
def firstAccept : EvalArtifact :=
  sampleArtifact (measuredVector 5100 5) (measuredVector 5000 5) "quality" 1 "genesis"
    sampleGenesis.baselineRoot zeroRoot acceptedRoot

/-- A saving in every resource after it. -/
def secondAccept : EvalArtifact :=
  sampleArtifact (measuredVector 5100 4) (measuredVector 5100 5) "efficiency" 200000 "prior_accept"
    (sha256Hex firstAccept.json.dumps) acceptedRoot zeroRoot

/-- A store that holds the baseline and the first artifact. -/
def acceptStore : WitnessStore where
  baseline := fun _ => .document sampleGenesis
  artifact := fun _ => .document firstAccept

/-- The root of a baseline is not part of what it addresses. -/
theorem GenesisBaseline.body_eq {root root' : Root} {format lawId : PyStr}
    {profiles : ProfileId → GenesisBaselineProfile} {suiteRoot : Root} :
    (GenesisBaseline.mk root format lawId profiles suiteRoot).body =
      (GenesisBaseline.mk root' format lawId profiles suiteRoot).body := rfl

theorem sampleGenesis_addressed :
    sampleGenesis.baselineRoot = sha256Hex (Json.obj sampleGenesis.body).dumps :=
  congrArg (fun body => sha256Hex (Json.obj body).dumps) GenesisBaseline.body_eq

theorem validateGenesisBaseline_sample :
    validateGenesisBaseline sampleRelease sampleGenesis sampleGenesis.baselineRoot = .ok () := by
  have hdepth : 0 + 6 ≤ maxDepth := by decide
  have hpartitions : ∀ (block : SelectionLabel → AbsoluteVector) (depth : Nat), depth ≤ 3 →
      checkValue (labelsJson AbsoluteVector.json block) depth = .ok () := fun _ _ _ =>
    checkValue_labelsJson (by omega) fun v => v.checkValue_json (by omega)
  have hrow : ∀ p, checkValue (.obj (sampleRow p).body) 0 = .ok () := fun p => by
    simp (disch := omega) [GenesisBaselineProfile.body, checkValue_obj, hpartitions]
  have hgenesis : checkValue (.obj sampleGenesis.body) 0 = .ok () := by
    simp (disch := omega) [GenesisBaseline.body, GenesisBaselineProfile.json,
      GenesisBaselineProfile.body, checkValue_obj, hpartitions, profileIds]
  have hroot : genesisBaselineRoot sampleGenesis = .ok sampleGenesis.baselineRoot := by
    rw [genesisBaselineRoot, canonicalBytes_of_checkValue hgenesis, sampleGenesis_addressed]
    rfl
  rw [validateGenesisBaseline, hroot]
  refine refuseIf_bind_eq_ok.mpr ⟨not_not_intro rfl, refuseIf_bind_eq_ok.mpr ⟨not_not_intro rfl,
    bind_eq_ok.mpr ⟨_, rfl, refuseIf_bind_eq_ok.mpr ⟨by simp, forM_eq_ok.mpr fun p _ => ?_⟩⟩⟩⟩
  refine refuseIf_bind_eq_ok.mpr ⟨?_, refuseIf_bind_eq_ok.mpr ⟨not_not_intro rfl,
    refuseIf_bind_eq_ok.mpr ⟨not_not_intro rfl, bind_eq_ok.mpr ⟨(), ?_, ?_⟩⟩⟩⟩
  · rintro (h | h)
    · exact h rfl
    · exact h rfl
  · cases p <;> decide +kernel
  · show (frontierCall (canonicalBytes (.obj (sampleRow p).body)) >>= _) = _
    rw [canonicalBytes_of_checkValue (hrow p)]
    exact refuseIf_of_not (not_not_intro rfl) _

theorem verified_firstAccept : Verified sampleSuite firstAccept :=
  verified_sampleArtifact (by decide) (by decide +kernel)
    (validateParentStoredVector_sampleWitness (.inl rfl) (by decide +kernel)) (by decide +kernel)
    (by decide +kernel)

theorem verified_secondAccept : Verified sampleSuite secondAccept :=
  verified_sampleArtifact (by decide) (by decide +kernel)
    (validateParentStoredVector_sampleWitness (.inr rfl) (by decide +kernel)) (by decide +kernel)
    (by decide +kernel)

theorem evalReportHash_firstAccept :
    evalReportHash sampleSuite firstAccept = .ok (sha256Hex firstAccept.json.dumps) := by
  obtain ⟨bytes, hbytes⟩ := artifactCanonicalBytes_total firstAccept
  rw [evalReportHash, verified_firstAccept.valid, ok_bind, hbytes, ok_bind]
  obtain ⟨_, -, hdumps⟩ := bind_eq_ok.mp (frontierCall_eq_ok.mp hbytes)
  cases hdumps
  rfl

theorem succeeds_sample :
    Succeeds sampleSuite sampleRelease acceptStore firstAccept secondAccept where
  kind := by decide +kernel
  stored := rfl
  resolved := by
    have hsource : sourcePartitions sampleSuite sampleRelease acceptStore
        secondAccept.determinismWitness = .ok firstAccept.measured := by
      rw [sourcePartitions, if_neg (by decide +kernel), priorAcceptSource]
      show (sourceCall _ (evalReportHash sampleSuite firstAccept) >>= _) = _
      rw [evalReportHash_firstAccept]
      refine bind_eq_ok.mpr ⟨_, rfl, refuseIf_bind_eq_ok.mpr ⟨?_, ?_⟩⟩
      · rintro (h | h)
        · exact h rfl
        · cases h
      · rfl
    rw [resolveDeterminismWitnessSource, hsource]
    rfl

theorem lineage_sample :
    Lineage sampleSuite sampleRelease acceptStore [firstAccept, secondAccept] where
  verified a ha := by
    rcases List.mem_pair.mp ha with rfl | rfl
    · exact verified_firstAccept
    · exact verified_secondAccept
  chain := List.isChain_cons_cons.mpr ⟨succeeds_sample, List.isChain_singleton _⟩

theorem resolve_firstAccept :
    resolveDeterminismWitnessSource sampleSuite sampleRelease acceptStore firstAccept = .ok () := by
  have hkind : firstAccept.determinismWitness.sourceKind = py "genesis" := rfl
  have hroot : firstAccept.determinismWitness.sourceRoot = sampleGenesis.baselineRoot := rfl
  have hsource : sourcePartitions sampleSuite sampleRelease acceptStore
      firstAccept.determinismWitness = .ok fun _ => sampleVector .convPref := by
    rw [sourcePartitions, if_pos hkind]
    show (sourceCall _ (validateGenesisBaseline sampleRelease sampleGenesis _) >>= _) = _
    rw [hroot, validateGenesisBaseline_sample]
    rfl
  rw [resolveDeterminismWitnessSource, hsource]
  decide +kernel

theorem lineage_above_release_sample :
    (sampleVector .convPref).compositePpm ≤ (secondAccept.measured .confirm).compositePpm :=
  (lineage_above_release lineage_sample rfl resolve_firstAccept secondAccept (by simp) .confirm).1

theorem lineage_keeps_sample : [firstAccept, secondAccept].Pairwise Improves :=
  (lineage_keeps lineage_sample).2

theorem lineage_pays_sample :
    [dipTotal (secondAccept.measured .gate) (secondAccept.parentVector .gate)].sum ≤
      (secondAccept.measured .gate).total - (firstAccept.measured .gate).total :=
  lineage_pays lineage_sample .gate

end CoreTex
