import CoreTex.Eval.CounterResourceLaw
import CoreTex.Lib.Trade

/-!
# CoreTex.Eval.Dominance

The bounded-trade decision of an evaluation artifact (`verify_dominance_block` of
`eval_artifact.py`): its flags are recomputed from the two vectors that it binds.

`LawQualifies` is the admission rule of `LAW.md` without the hard gates, over any two vectors, and
`LawPartition` what it makes of one partition's flags. `verifyDominancePartition_eq_ok` says that
the verifier accepts just these flags.
-/

namespace CoreTex

open CoreTex.Lib

/-! ### The verifier -/

/-- `QUALITY_DIP_TOLERANCE_MICRO`. -/
def qualityDipToleranceMicro : Int := 2500000

/-- `QUALITY_DIP_PAYMENT_RATIO`. -/
def qualityDipPaymentRatio : Int := 2

section Recompute

variable (cand inc : AbsoluteVector)

/-- `regressed_objectives`. -/
def regressedObjectives : List PyStr :=
  sortNames ((cand.objectivesMicro.entries.filter fun e => e.2 < inc.quality e.1).map Prod.fst)

/-- `tolerance_regressed`. -/
def toleranceRegressed : List PyStr :=
  (regressedObjectives cand inc).filter fun oid =>
    cand.quality oid < inc.quality oid - qualityDipToleranceMicro

/-- `dip_total`. -/
def dipTotal : Int :=
  ((regressedObjectives cand inc).map fun oid => inc.quality oid - cand.quality oid).sum

/-- `gain_total`. -/
def gainTotal : Int :=
  (cand.objectivesMicro.entries.map fun e => max 0 (e.2 - inc.quality e.1)).sum

/-- `quality_rule_ok`. -/
def qualityRuleOk : Bool :=
  toleranceRegressed cand inc = [] ∧
    qualityDipPaymentRatio * dipTotal cand inc ≤ gainTotal cand inc

/-- `regressed_axes`. -/
def regressedAxes : List PyStr :=
  sortNames (([ResourceAxis.logicalDurableStorageBytes, .renderedCost, .workFuel].filter
    fun axis => inc.envelope axis < cand.resource axis).map fun axis => py axis.id)

/-- `floor_regressions`, against the floor vector. -/
def floorRegressions (floor : AbsoluteVector) : List PyStr :=
  sortNames ((if cand.compositePpm < floor.compositePpm then [py "composite_ppm"] else []) ++
    (cand.objectivesMicro.entries.filter fun e =>
      e.2 < floor.quality e.1 - qualityDipToleranceMicro).map Prod.fst)

/-- `raised_vs_parent`. -/
def raisedVsParent : List ResourceAxis :=
  resourceAxes.filter fun axis => inc.resource axis < cand.resource axis

/-- `dropped_vs_parent`. -/
def droppedVsParent : List ResourceAxis :=
  resourceAxes.filter fun axis => cand.resource axis < inc.resource axis

/-- The loop for `best`, over the axes that fell. -/
def bestAxisPpm : Int :=
  resourceAxes.foldl (fun best axis =>
    if inc.resource axis ≤ cand.resource axis then best
    else if inc.resource axis = 0 then max best 1000000
    else max best ((inc.resource axis - cand.resource axis) * micro / inc.resource axis)) 0

end Recompute

/-- `progress_class`, recomputed. -/
def progressClass (floor : AbsoluteVector) (part : DominancePartition) : Option PyStr :=
  let cand := part.candidateVector
  let inc := part.incumbentVector
  let qualityAdvance : Bool := 1 ≤ part.compositeGainPpm
  let compositeHeld : Bool := 0 ≤ part.compositeGainPpm
  let efficiencyAdvance : Bool := compositeHeld ∧ qualityRuleOk cand inc ∧
    raisedVsParent cand inc = [] ∧ droppedVsParent cand inc ≠ []
  let envelopeOk : Bool := regressedAxes cand inc = []
  let floorOk : Bool := floorRegressions cand floor = []
  if qualityAdvance ∧ qualityRuleOk cand inc ∧ envelopeOk ∧ floorOk then some (py "quality")
  else if efficiencyAdvance ∧ envelopeOk ∧ floorOk then some (py "efficiency")
  else none

/-- `want_gain`, for a class. -/
def wantGain (part : DominancePartition) (progress : Option PyStr) : Int :=
  if progress = some (py "quality") then min 1000000 part.compositeGainPpm
  else max 1 (min 1000000 (bestAxisPpm part.candidateVector part.incumbentVector))

/-- One partition, against the cap of the suite and the floor of the artifact. -/
def verifyDominancePartition (canonicalFloor floor : AbsoluteVector) (part : DominancePartition)
    (path : String) : Except EvalArtifactError Unit := do
  let cand := part.candidateVector
  let inc := part.incumbentVector
  resourceAxes.forM fun axis => do
    refuseIf (inc.envelope axis ≠ canonicalFloor.envelope axis)
      (.verdictMismatch (path ++ ".incumbent_vector." ++ axis.capKey))
    refuseIf (cand.envelope axis ≠ canonicalFloor.envelope axis)
      (.verdictMismatch (path ++ ".candidate_vector." ++ axis.capKey))
  refuseIf (cand.compositePpm ≠ part.compositeAfterPpm)
    (.verdictMismatch (path ++ ".composite_after_ppm"))
  refuseIf (inc.compositePpm ≠ part.compositeBeforePpm)
    (.verdictMismatch (path ++ ".composite_before_ppm"))
  refuseIf (part.hardOk ≠ part.hard.entries.all (·.2)) (.verdictMismatch (path ++ ".hard_ok"))
  refuseIf (∃ oid ∈ cand.objectivesMicro.keys, oid ∉ inc.objectivesMicro.keys)
    (.verdictMismatch (path ++ ".incumbent_vector"))
  refuseIf (∃ oid ∈ inc.objectivesMicro.keys, oid ∉ cand.objectivesMicro.keys)
    (.verdictMismatch (path ++ ".candidate_vector"))
  refuseIf (regressedObjectives cand inc ≠ part.regressedObjectives)
    (.verdictMismatch (path ++ ".regressed_objectives"))
  refuseIf (regressedAxes cand inc ≠ part.regressedResourceAxes)
    (.verdictMismatch (path ++ ".regressed_resource_axes"))
  refuseIf (∃ oid ∈ cand.objectivesMicro.keys, oid ∉ floor.objectivesMicro.keys)
    (.verdictMismatch "genesis_floor.partitions")
  refuseIf (∃ oid ∈ floor.objectivesMicro.keys, oid ∉ cand.objectivesMicro.keys)
    (.verdictMismatch (path ++ ".candidate_vector"))
  refuseIf (floorRegressions cand floor ≠ part.floorRegressions)
    (.verdictMismatch (path ++ ".floor_regressions"))
  refuseIf (cand.suiteBlockId ≠ inc.suiteBlockId)
    (.verdictMismatch (path ++ ".candidate_vector.suite_block_id"))
  let progress := progressClass floor part
  refuseIf ((part.hardOk && progress.isSome) ≠ part.admitted) (.verdictMismatch (path ++ ".admit"))
  refuseIf (progress ≠ part.progressClass) (.verdictMismatch (path ++ ".progress_class"))
  refuseIf ((part.hardOk && progress.isSome) = true ∧
      part.admissionGainPpm ≠ some (wantGain part progress))
    (.verdictMismatch (path ++ ".admission_gain_ppm"))

/-- The projection that a decision is signed with. -/
def verifyProjection (dominance : DominanceBlock) (projection : AdmissionProjection) :
    Except EvalArtifactError Unit := do
  if dominance.admitted then
    let confirm := dominance.partitions .confirm
    refuseIf (projection.progressClass ≠ confirm.progressClass)
      (.verdictMismatch "admission_projection.class")
    refuseIf (projection.scoreAfterPpm ≠ confirm.admissionGainPpm)
      (.verdictMismatch "admission_projection.score_after_ppm")
    refuseIf (projection.scoreBeforePpm ≠ 0)
      (.verdictMismatch "admission_projection.score_before_ppm")
  else
    refuseIf (projection ≠ ⟨none, none, 0⟩) (.verdictMismatch "admission_projection")

/-- `verify_dominance_block`. -/
def verifyDominanceBlock (canonical : CanonicalSuite) (a : EvalArtifact) :
    Except EvalArtifactError Unit := do
  selectionLabels.forM fun label => do
    let canonicalFloor ← suiteCall (canonical.genesisFloorVector a.candidate.targetProfile label)
    verifyDominancePartition canonicalFloor (a.genesisFloor.partitions label)
      (a.dominance.partitions label) ("dominance.partitions" ++ bracketed label.name)
  verifyProjection a.dominance a.admissionProjection

/-- `verify_genesis_floor`. -/
def verifyGenesisFloor (canonical : CanonicalSuite) (a : EvalArtifact) :
    Except EvalArtifactError Unit :=
  match canonical.genesisFloorAuthority with
  | .pending => throw .genesisFloorPending
  | .resolved source vectors => do
    refuseIf (a.genesisFloor.suiteRoot ≠ canonical.suiteRoot)
      (.suiteMembership "genesis_floor.suite_root")
    refuseIf (a.genesisFloor.source ≠ source) (.bindingMismatch "genesis_floor.source")
    selectionLabels.forM fun label =>
      refuseIf (a.genesisFloor.partitions label ≠ vectors a.candidate.targetProfile label)
        (.bindingMismatch ("genesis_floor.partitions" ++ bracketed label.name))

/-! ### The law -/

/-- LAW 3A.3 without the hard gates: a paid and bounded trade of quality, above the floor and
under the caps, that makes progress. -/
structure LawQualifies (objectives : List PyStr) (floor inc cand : AbsoluteVector) : Prop where
  trade : BoundedTrade objectives.toFinset qualityDipToleranceMicro qualityDipPaymentRatio
    inc.quality cand.quality
  floorQuality : ∀ oid ∈ objectives, floor.quality oid - qualityDipToleranceMicro ≤ cand.quality oid
  floorComposite : floor.compositePpm ≤ cand.compositePpm
  capped : ∀ axis, cand.resource axis ≤ floor.envelope axis
  progress : Progress AbsoluteVector.compositePpm AbsoluteVector.resource inc cand

/-- The winning class: quality where the composite rises. -/
def lawClass (inc cand : AbsoluteVector) : PyStr :=
  if inc.compositePpm < cand.compositePpm then py "quality" else py "efficiency"

/-- `admission_gain_ppm` of the law. -/
def lawGain (inc cand : AbsoluteVector) : Int :=
  if inc.compositePpm < cand.compositePpm then
    min 1000000 (cand.compositePpm - inc.compositePpm)
  else max 1 (min 1000000 (bestAxisPpm cand inc))

/-- The flags of a partition are those that the law makes of its vectors. No flags are accepted
where the vectors qualify and a hard gate failed. -/
structure LawPartition (objectives : List PyStr) (floor : AbsoluteVector)
    (part : DominancePartition) : Prop where
  caps : ∀ axis, part.incumbentVector.envelope axis = floor.envelope axis ∧
    part.candidateVector.envelope axis = floor.envelope axis
  block : part.candidateVector.suiteBlockId = part.incumbentVector.suiteBlockId
  after : part.compositeAfterPpm = part.candidateVector.compositePpm
  before : part.compositeBeforePpm = part.incumbentVector.compositePpm
  regressed : part.regressedObjectives = objectives.filter fun oid =>
    part.candidateVector.quality oid < part.incumbentVector.quality oid
  axes : part.regressedResourceAxes = regressedAxes part.candidateVector part.incumbentVector
  floors : part.floorRegressions = floorRegressions part.candidateVector floor
  gates : LawQualifies objectives floor part.incumbentVector part.candidateVector →
    ∀ e ∈ part.hard.entries, e.2 = true
  admitted : part.admitted = true ↔
    LawQualifies objectives floor part.incumbentVector part.candidateVector
  progressClass : part.admitted = true →
    part.progressClass = some (lawClass part.incumbentVector part.candidateVector)
  gain : part.admitted = true →
    part.admissionGainPpm = some (lawGain part.incumbentVector part.candidateVector)

/-- The projection that the law signs a decision with: the class and the gain of the confirm
partition on an admit, neither on a reject. -/
def lawProjection (dominance : DominanceBlock) : AdmissionProjection :=
  let confirm := dominance.partitions .confirm
  if dominance.admitted then
    ⟨some (lawClass confirm.incumbentVector confirm.candidateVector),
      some (lawGain confirm.incumbentVector confirm.candidateVector), 0⟩
  else ⟨none, none, 0⟩

/-- The decision of an artifact is the law's: it admits just when both partitions qualify. -/
structure LawBlock (a : EvalArtifact) : Prop where
  partitions : ∀ label, LawPartition (declaredObjectives a.candidate.targetProfile)
    (a.genesisFloor.partitions label) (a.dominance.partitions label)
  admitted : a.dominance.admitted = true ↔
    ∀ label, LawQualifies (declaredObjectives a.candidate.targetProfile)
      (a.genesisFloor.partitions label) (a.dominance.partitions label).incumbentVector
      (a.dominance.partitions label).candidateVector
  projection : a.admissionProjection = lawProjection a.dominance

/-! ### The recomputed flags -/

theorem sortNames_eq_nil {names : List PyStr} : sortNames names = [] ↔ names = [] := by
  simp only [List.eq_nil_iff_forall_not_mem, mem_sortNames]

theorem filter_map_eq_nil {α β : Type} {xs : List α} {p : α → Bool} {f : α → β} :
    (xs.filter p).map f = [] ↔ ∀ x ∈ xs, p x = false := by
  rw [List.map_eq_nil_iff, List.filter_eq_nil_iff]
  simp

/-- The names at which a condition on the entries holds, sorted. -/
theorem sortNames_filter_entries (d : Dict Int) (c : PyStr → Int → Bool) :
    sortNames ((d.entries.filter fun e => c e.1 e.2).map Prod.fst) =
      d.keys.filter fun key => c key (d.value key) := by
  have hfilter : (d.entries.filter fun e => c e.1 e.2).map Prod.fst =
      d.keys.filter fun key => c key (d.value key) := by
    conv_lhs => rw [d.entries_eq, List.filter_map, List.map_map]
    exact List.map_id _
  rw [hfilter]
  exact sortNames_of_ascending (d.ascending.filter _)

theorem forall_entries {d : Dict Int} {c : PyStr → Int → Prop} :
    (∀ e ∈ d.entries, c e.1 e.2) ↔ ∀ key ∈ d.keys, c key (d.value key) := by
  conv_lhs => rw [d.entries_eq]
  simp

section Flags

variable {objectives : List PyStr} {floor cand inc : AbsoluteVector}

theorem regressedObjectives_eq (hcand : cand.objectivesMicro.keys = objectives) :
    regressedObjectives cand inc =
      objectives.filter fun oid => cand.quality oid < inc.quality oid := by
  rw [← hcand]
  exact sortNames_filter_entries cand.objectivesMicro fun key value =>
    decide (value < inc.quality key)

theorem dipTotal_eq (hcand : cand.objectivesMicro.keys = objectives) :
    dipTotal cand inc = ∑ oid ∈ objectives.toFinset, dip inc.quality cand.quality oid := by
  have hnodup : objectives.Nodup := hcand ▸ cand.objectivesMicro.nodup_keys
  rw [dipTotal, regressedObjectives_eq hcand, ← List.sum_toFinset _ (hnodup.filter _),
    List.toFinset_filter, Finset.sum_filter]
  refine Finset.sum_congr rfl fun oid _ => ?_
  simp only [dip, decide_eq_true_eq]
  split <;> omega

theorem gainTotal_eq (hcand : cand.objectivesMicro.keys = objectives) :
    gainTotal cand inc = ∑ oid ∈ objectives.toFinset, gain inc.quality cand.quality oid := by
  rw [gainTotal, ← hcand]
  exact cand.objectivesMicro.sum_entries fun key value => max 0 (value - inc.quality key)

/-- `quality_rule_ok` is the bounded trade. -/
theorem qualityRuleOk_iff (hcand : cand.objectivesMicro.keys = objectives) :
    qualityRuleOk cand inc = true ↔ BoundedTrade objectives.toFinset
      qualityDipToleranceMicro qualityDipPaymentRatio inc.quality cand.quality := by
  have htolerance : toleranceRegressed cand inc = [] ↔
      ∀ oid ∈ objectives, inc.quality oid - qualityDipToleranceMicro ≤ cand.quality oid := by
    rw [toleranceRegressed, regressedObjectives_eq hcand, List.filter_filter,
      List.filter_eq_nil_iff]
    refine forall₂_congr fun oid _ => ?_
    simp only [Bool.and_eq_true, decide_eq_true_eq]
    unfold qualityDipToleranceMicro
    omega
  rw [qualityRuleOk, decide_eq_true_eq, htolerance, dipTotal_eq hcand, gainTotal_eq hcand]
  constructor
  · rintro ⟨hbounded, hpaid⟩
    exact ⟨fun oid hoid => hbounded oid (List.mem_toFinset.mp hoid), hpaid⟩
  · intro h
    exact ⟨fun oid hoid => h.bounded oid (List.mem_toFinset.mpr hoid), h.paid⟩

theorem regressedAxes_eq_nil : regressedAxes cand inc = [] ↔
    ∀ axis, cand.resource axis ≤ inc.envelope axis := by
  rw [regressedAxes, sortNames_eq_nil, filter_map_eq_nil]
  constructor
  · intro h axis
    have hmem : axis ∈ [ResourceAxis.logicalDurableStorageBytes, .renderedCost, .workFuel] := by
      cases axis <;> simp
    exact Int.not_lt.mp (of_decide_eq_false (h axis hmem))
  · exact fun h axis _ => decide_eq_false (Int.not_lt.mpr (h axis))

theorem floorRegressions_eq_nil (hcand : cand.objectivesMicro.keys = objectives) :
    floorRegressions cand floor = [] ↔ floor.compositePpm ≤ cand.compositePpm ∧
      ∀ oid ∈ objectives, floor.quality oid - qualityDipToleranceMicro ≤ cand.quality oid := by
  rw [floorRegressions, sortNames_eq_nil, List.append_eq_nil_iff, filter_map_eq_nil,
    forall_entries (c := fun key value =>
      decide (value < floor.quality key - qualityDipToleranceMicro) = false), hcand]
  refine and_congr ?_ (forall₂_congr fun oid _ => ?_)
  · split
    · simp; omega
    · simp; omega
  · rw [decide_eq_false_iff_not, Int.not_lt]
    rfl

theorem raisedVsParent_eq_nil : raisedVsParent cand inc = [] ↔
    ∀ axis, cand.resource axis ≤ inc.resource axis := by
  rw [raisedVsParent, List.filter_eq_nil_iff]
  simp

theorem droppedVsParent_ne_nil : droppedVsParent cand inc ≠ [] ↔
    ∃ axis, cand.resource axis < inc.resource axis := by
  rw [droppedVsParent, Ne, List.filter_eq_nil_iff]
  simp

end Flags

/-! ### What is accepted -/

/-- A vector that passed its validation. -/
structure ValidVector (profileId : ProfileId) (v : AbsoluteVector) : Prop where
  resource : ∀ axis, 0 ≤ v.resource axis
  objectives : v.objectivesMicro.keys = declaredObjectives profileId

theorem validateVector_valid {v : AbsoluteVector} {path : String} {profileId : ProfileId}
    (h : validateVector v path profileId = .ok ()) : ValidVector profileId v := by
  obtain ⟨_, hintegers, h⟩ := bind_eq_ok.mp h
  obtain ⟨_, -, h⟩ := bind_eq_ok.mp h
  refine ⟨fun axis => ?_, not_not.mp (refuseIf_eq_ok.mp h)⟩
  have hall := forM_eq_ok.mp hintegers
  have hnonneg : ∀ name value, (name, value) ∈ v.integers → 0 ≤ value :=
    fun name value hmem => (checkInt_eq_ok.mp (hall (name, value) hmem)).1
  cases axis with
  | renderedCost => exact hnonneg "rendered_cost_micro" _ (by simp [AbsoluteVector.integers])
  | workFuel => exact hnonneg "work_fuel" _ (by simp [AbsoluteVector.integers])
  | logicalDurableStorageBytes =>
      exact hnonneg "logical_durable_storage_bytes" _ (by simp [AbsoluteVector.integers])

/-- What the verifier uses of a partition that passed its validation. -/
structure ValidPartition (profileId : ProfileId) (part : DominancePartition) : Prop where
  candidate : ValidVector profileId part.candidateVector
  incumbent : ValidVector profileId part.incumbentVector
  gain : part.compositeGainPpm = part.compositeAfterPpm - part.compositeBeforePpm
  after_le : part.compositeAfterPpm ≤ maxUint32
  rejected : part.admitted = false → part.progressClass = none
  hardOk : part.hardOk = part.hard.entries.all (·.2)

theorem validateDominancePartition_valid {part : DominancePartition} {path : String}
    {profileId : ProfileId} {stored : AbsoluteVector}
    (h : validateDominancePartition part path profileId stored = .ok ()) :
    ValidPartition profileId part ∧ part.incumbentVector = stored := by
  cases hadmitted : part.admitted with
  | true =>
      simp only [validateDominancePartition, hadmitted, if_true] at h
      obtain ⟨-, h⟩ := refuseIf_bind_eq_ok.mp h
      obtain ⟨-, h⟩ := refuseIf_bind_eq_ok.mp h
      obtain ⟨-, h⟩ := refuseIf_bind_eq_ok.mp h
      obtain ⟨_, hafter, h⟩ := bind_eq_ok.mp h
      obtain ⟨_, -, h⟩ := bind_eq_ok.mp h
      obtain ⟨hgain, h⟩ := refuseIf_bind_eq_ok.mp h
      obtain ⟨-, h⟩ := refuseIf_bind_eq_ok.mp h
      obtain ⟨_, -, h⟩ := bind_eq_ok.mp h
      obtain ⟨_, -, h⟩ := bind_eq_ok.mp h
      obtain ⟨_, -, h⟩ := bind_eq_ok.mp h
      obtain ⟨_, -, h⟩ := bind_eq_ok.mp h
      obtain ⟨_, hcandidate, h⟩ := bind_eq_ok.mp h
      obtain ⟨_, hincumbent, h⟩ := bind_eq_ok.mp h
      obtain ⟨hhard, h⟩ := refuseIf_bind_eq_ok.mp h
      obtain ⟨-, h⟩ := refuseIf_bind_eq_ok.mp h
      exact ⟨⟨validateVector_valid hcandidate, validateVector_valid hincumbent, not_not.mp hgain,
        (checkInt_eq_ok.mp hafter).2,
        fun hreject => absurd (hadmitted.symm.trans hreject) (by decide), not_not.mp hhard⟩,
        not_not.mp (refuseIf_eq_ok.mp h)⟩
  | false =>
      simp only [validateDominancePartition, hadmitted, Bool.false_eq_true, if_false] at h
      obtain ⟨hclosed, h⟩ := refuseIf_bind_eq_ok.mp h
      obtain ⟨-, h⟩ := refuseIf_bind_eq_ok.mp h
      obtain ⟨-, h⟩ := refuseIf_bind_eq_ok.mp h
      obtain ⟨_, hafter, h⟩ := bind_eq_ok.mp h
      obtain ⟨_, -, h⟩ := bind_eq_ok.mp h
      obtain ⟨hgain, h⟩ := refuseIf_bind_eq_ok.mp h
      obtain ⟨_, -, h⟩ := bind_eq_ok.mp h
      obtain ⟨_, -, h⟩ := bind_eq_ok.mp h
      obtain ⟨_, -, h⟩ := bind_eq_ok.mp h
      obtain ⟨_, hcandidate, h⟩ := bind_eq_ok.mp h
      obtain ⟨_, hincumbent, h⟩ := bind_eq_ok.mp h
      obtain ⟨hhard, h⟩ := refuseIf_bind_eq_ok.mp h
      obtain ⟨-, h⟩ := refuseIf_bind_eq_ok.mp h
      rw [not_or, not_not, not_not] at hclosed
      exact ⟨⟨validateVector_valid hcandidate, validateVector_valid hincumbent, not_not.mp hgain,
        (checkInt_eq_ok.mp hafter).2, fun _ => hclosed.1, not_not.mp hhard⟩,
        not_not.mp (refuseIf_eq_ok.mp h)⟩

theorem progress_iff {inc cand : AbsoluteVector} :
    Progress AbsoluteVector.compositePpm AbsoluteVector.resource inc cand ↔
      inc.compositePpm < cand.compositePpm ∨ inc.compositePpm = cand.compositePpm ∧
        (∀ axis, cand.resource axis ≤ inc.resource axis) ∧
          ∃ axis, cand.resource axis < inc.resource axis := by
  rw [Progress, Pi.lt_def]
  rfl

section Verified

variable {objectives : List PyStr} {floor : AbsoluteVector} {part : DominancePartition}

/-- The recomputed class is the law's where the vectors qualify, and there is none elsewhere. -/
theorem progressClass_eq (hcand : part.candidateVector.objectivesMicro.keys = objectives)
    (hcaps : ∀ axis, part.incumbentVector.envelope axis = floor.envelope axis)
    (hgain : part.compositeGainPpm =
      part.candidateVector.compositePpm - part.incumbentVector.compositePpm) :
    (LawQualifies objectives floor part.incumbentVector part.candidateVector →
      progressClass floor part = some (lawClass part.incumbentVector part.candidateVector)) ∧
    (¬ LawQualifies objectives floor part.incumbentVector part.candidateVector →
      progressClass floor part = none) := by
  have hcapped : (∀ axis, part.candidateVector.resource axis ≤ part.incumbentVector.envelope axis) ↔
      ∀ axis, part.candidateVector.resource axis ≤ floor.envelope axis :=
    forall_congr' fun axis => by rw [hcaps]
  -- the rewritten conditions are propositions that nothing decides
  classical
  unfold progressClass lawClass
  dsimp only
  constructor
  · intro h
    simp only [decide_eq_true_eq, qualityRuleOk_iff hcand, regressedAxes_eq_nil, hcapped,
      floorRegressions_eq_nil hcand, raisedVsParent_eq_nil, droppedVsParent_ne_nil, hgain]
    rcases progress_iff.mp h.progress with hrise | ⟨hheld, hnone, hsome⟩
    · rw [if_pos ⟨by omega, h.trade, h.capped, h.floorComposite, h.floorQuality⟩, if_pos hrise]
    · rw [if_neg fun hquality => absurd hquality.1 (by omega), if_pos ⟨⟨by omega, h.trade, hnone,
        hsome⟩, h.capped, h.floorComposite, h.floorQuality⟩, if_neg (by omega)]
  · intro h
    simp only [decide_eq_true_eq, qualityRuleOk_iff hcand, regressedAxes_eq_nil, hcapped,
      floorRegressions_eq_nil hcand, raisedVsParent_eq_nil, droppedVsParent_ne_nil, hgain]
    rw [if_neg, if_neg]
    · rintro ⟨⟨hheld, htrade, hnone, hsome⟩, hcap, hcomposite, hquality⟩
      refine h ⟨htrade, hquality, hcomposite, hcap, progress_iff.mpr ?_⟩
      by_cases hrise : part.incumbentVector.compositePpm < part.candidateVector.compositePpm
      · exact .inl hrise
      · exact .inr ⟨by omega, hnone, hsome⟩
    · rintro ⟨hrise, htrade, hcap, hcomposite, hquality⟩
      exact h ⟨htrade, hquality, hcomposite, hcap, progress_iff.mpr (.inl (by omega))⟩

theorem wantGain_eq (hgain : part.compositeGainPpm =
      part.candidateVector.compositePpm - part.incumbentVector.compositePpm) :
    wantGain part (some (lawClass part.incumbentVector part.candidateVector)) =
      lawGain part.incumbentVector part.candidateVector := by
  unfold wantGain lawGain lawClass
  by_cases hrise : part.incumbentVector.compositePpm < part.candidateVector.compositePpm
  · rw [if_pos hrise, if_pos hrise, if_pos rfl, hgain]
  · rw [if_neg hrise, if_neg hrise, if_neg (by decide)]

/-- **The verifier accepts just the flags of the law.** -/
theorem verifyDominancePartition_eq_ok {profileId : ProfileId} {path : String}
    (hvalid : ValidPartition profileId part)
    (hfloor : floor.objectivesMicro.keys = declaredObjectives profileId) :
    verifyDominancePartition floor floor part path = .ok () ↔
      LawPartition (declaredObjectives profileId) floor part := by
  have hcand := hvalid.candidate.objectives
  have hinc := hvalid.incumbent.objectives
  have hgates : part.hardOk = true ↔ ∀ e ∈ part.hard.entries, e.2 = true := by
    rw [hvalid.hardOk, List.all_eq_true]
  constructor
  · intro h
    obtain ⟨_, hcaps, h⟩ := bind_eq_ok.mp h
    obtain ⟨hafter, h⟩ := refuseIf_bind_eq_ok.mp h
    obtain ⟨hbefore, h⟩ := refuseIf_bind_eq_ok.mp h
    obtain ⟨-, h⟩ := refuseIf_bind_eq_ok.mp h
    obtain ⟨-, h⟩ := refuseIf_bind_eq_ok.mp h
    obtain ⟨-, h⟩ := refuseIf_bind_eq_ok.mp h
    obtain ⟨hregressed, h⟩ := refuseIf_bind_eq_ok.mp h
    obtain ⟨haxes, h⟩ := refuseIf_bind_eq_ok.mp h
    obtain ⟨-, h⟩ := refuseIf_bind_eq_ok.mp h
    obtain ⟨-, h⟩ := refuseIf_bind_eq_ok.mp h
    obtain ⟨hfloors, h⟩ := refuseIf_bind_eq_ok.mp h
    obtain ⟨hblock, h⟩ := refuseIf_bind_eq_ok.mp h
    obtain ⟨hflag, h⟩ := refuseIf_bind_eq_ok.mp h
    obtain ⟨hclass, h⟩ := refuseIf_bind_eq_ok.mp h
    have hgain := refuseIf_eq_ok.mp h
    rw [not_not] at hafter hbefore hregressed haxes hfloors hblock hflag hclass
    have hcaps : ∀ axis, part.incumbentVector.envelope axis = floor.envelope axis ∧
        part.candidateVector.envelope axis = floor.envelope axis := by
      intro axis
      obtain ⟨hi, hc⟩ := refuseIf_bind_eq_ok.mp (forM_eq_ok.mp hcaps axis (mem_resourceAxes axis))
      exact ⟨not_not.mp hi, not_not.mp (refuseIf_eq_ok.mp hc)⟩
    have hppm : part.compositeGainPpm =
        part.candidateVector.compositePpm - part.incumbentVector.compositePpm := by
      rw [hvalid.gain, hafter, hbefore]
    obtain ⟨hqualifies, hfails⟩ := progressClass_eq hcand (fun axis => (hcaps axis).1) hppm
    have hadmitted : part.admitted = true →
        LawQualifies (declaredObjectives profileId) floor part.incumbentVector
          part.candidateVector := by
      intro htrue
      by_contra hnot
      rw [hfails hnot, htrue, Option.isSome_none, Bool.and_false] at hflag
      cases hflag
    have hgate : LawQualifies (declaredObjectives profileId) floor part.incumbentVector
        part.candidateVector → part.hardOk = true := by
      intro hq
      by_contra hfail
      rw [Bool.not_eq_true] at hfail
      rw [hfail, Bool.false_and] at hflag
      rw [hqualifies hq, hvalid.rejected hflag.symm] at hclass
      cases hclass
    refine ⟨hcaps, hblock, hafter.symm, hbefore.symm, ?_, haxes.symm, hfloors.symm,
      fun hq => hgates.mp (hgate hq), ⟨hadmitted, fun hq => ?_⟩, fun htrue => ?_, fun htrue => ?_⟩
    · rw [← hregressed, regressedObjectives_eq hcand]
    · rw [← hflag, hgate hq, hqualifies hq]
      rfl
    · rw [← hclass, hqualifies (hadmitted htrue)]
    · rw [hflag] at hgain
      by_contra hne
      refine hgain ⟨htrue, ?_⟩
      rw [hqualifies (hadmitted htrue), wantGain_eq hppm]
      exact hne
  · intro h
    have hppm : part.compositeGainPpm =
        part.candidateVector.compositePpm - part.incumbentVector.compositePpm := by
      rw [hvalid.gain, h.after, h.before]
    obtain ⟨hqualifies, hfails⟩ := progressClass_eq hcand (fun axis => (h.caps axis).1) hppm
    refine bind_eq_ok.mpr ⟨(), forM_eq_ok.mpr fun axis _ => ?_, ?_⟩
    · exact refuseIf_bind_eq_ok.mpr ⟨not_not.mpr (h.caps axis).1,
        refuseIf_eq_ok.mpr (not_not.mpr (h.caps axis).2)⟩
    have hall : ∀ {a b : Dict Int}, a.keys = b.keys → ¬ ∃ oid ∈ a.keys, oid ∉ b.keys := by
      rintro a b hkeys ⟨oid, hmem, hnot⟩
      exact hnot (hkeys ▸ hmem)
    have hkeys := hcand.trans hinc.symm
    have hfloorKeys := hcand.trans hfloor.symm
    rw [refuseIf_of_not (not_not.mpr h.after.symm), ok_bind,
      refuseIf_of_not (not_not.mpr h.before.symm), ok_bind,
      refuseIf_of_not (not_not.mpr hvalid.hardOk), ok_bind, refuseIf_of_not (hall hkeys), ok_bind,
      refuseIf_of_not (hall hkeys.symm), ok_bind,
      refuseIf_of_not (not_not.mpr ((regressedObjectives_eq hcand).trans h.regressed.symm)),
      ok_bind, refuseIf_of_not (not_not.mpr h.axes.symm), ok_bind,
      refuseIf_of_not (hall hfloorKeys), ok_bind, refuseIf_of_not (hall hfloorKeys.symm), ok_bind,
      refuseIf_of_not (not_not.mpr h.floors.symm), ok_bind,
      refuseIf_of_not (not_not.mpr h.block), ok_bind]
    by_cases hq : LawQualifies (declaredObjectives profileId) floor part.incumbentVector
      part.candidateVector
    · have hflag := h.admitted.mpr hq
      have hhard := hgates.mpr (h.gates hq)
      dsimp only
      rw [hqualifies hq, hhard, hflag, h.progressClass hflag, h.gain hflag, wantGain_eq hppm]
      rw [refuseIf_of_not (by simp), ok_bind, refuseIf_of_not (by simp), ok_bind]
      exact refuseIf_of_not (by simp) _
    · have hreject : part.admitted = false := by
        rw [← Bool.not_eq_true, h.admitted]
        exact hq
      dsimp only
      rw [hfails hq, hreject, hvalid.rejected hreject, Option.isSome_none, Bool.and_false]
      rfl

end Verified

/-! ### The whole block -/

/-- A verified floor is the suite's, vector by vector. -/
theorem verifyGenesisFloor_vectors {canonical : CanonicalSuite} {a : EvalArtifact}
    (h : verifyGenesisFloor canonical a = .ok ()) (label : SelectionLabel) :
    canonical.genesisFloorVector a.candidate.targetProfile label =
      .ok (a.genesisFloor.partitions label) := by
  cases hauthority : canonical.genesisFloorAuthority with
  | pending =>
      rw [verifyGenesisFloor, hauthority] at h
      exact absurd h throw_ne_ok
  | resolved source vectors =>
      rw [verifyGenesisFloor, hauthority] at h
      obtain ⟨-, h⟩ := refuseIf_bind_eq_ok.mp h
      obtain ⟨-, h⟩ := refuseIf_bind_eq_ok.mp h
      have hlabel := forM_eq_ok.mp h label (mem_selectionLabels label)
      rw [CanonicalSuite.genesisFloorVector, hauthority, not_not.mp (refuseIf_eq_ok.mp hlabel)]

/-- What the verifier uses of a dominance block that passed its validation. -/
structure ValidDominance (profileId : ProfileId) (stored : SelectionLabel → AbsoluteVector)
    (admitted : Bool) (dominance : DominanceBlock) : Prop where
  partitions : ∀ label, ValidPartition profileId (dominance.partitions label)
  incumbent : ∀ label, (dominance.partitions label).incumbentVector = stored label
  all : dominance.admitted = true ↔ ∀ label, (dominance.partitions label).admitted = true
  verdict : dominance.admitted = admitted

theorem validateDominanceBlock_valid {dominance : DominanceBlock} {profileId : ProfileId}
    {witness : DeterminismWitness} {admitted : Bool}
    (h : validateDominanceBlock dominance profileId witness admitted = .ok ()) :
    ValidDominance profileId witness.partitions admitted dominance := by
  obtain ⟨-, h⟩ := refuseIf_bind_eq_ok.mp h
  obtain ⟨_, hlabels, h⟩ := bind_eq_ok.mp h
  obtain ⟨hall, h⟩ := refuseIf_bind_eq_ok.mp h
  have hpartition := fun label =>
    validateDominancePartition_valid (forM_eq_ok.mp hlabels label (mem_selectionLabels label))
  refine ⟨fun label => (hpartition label).1, fun label => (hpartition label).2, ?_,
    not_not.mp (refuseIf_eq_ok.mp h)⟩
  rw [not_not.mp hall, List.all_eq_true]
  exact ⟨fun hadmitted label => hadmitted label (mem_selectionLabels label),
    fun hadmitted label _ => hadmitted label⟩

/-- The signed projection is the law's, when the flags of the confirm partition are. -/
theorem verifyProjection_eq_ok {dominance : DominanceBlock} {projection : AdmissionProjection}
    (hconfirm : dominance.admitted = true →
      (dominance.partitions .confirm).progressClass =
          some (lawClass (dominance.partitions .confirm).incumbentVector
            (dominance.partitions .confirm).candidateVector) ∧
        (dominance.partitions .confirm).admissionGainPpm =
          some (lawGain (dominance.partitions .confirm).incumbentVector
            (dominance.partitions .confirm).candidateVector)) :
    verifyProjection dominance projection = .ok () ↔ projection = lawProjection dominance := by
  unfold verifyProjection lawProjection
  cases hadmitted : dominance.admitted with
  | true =>
      obtain ⟨hclass, hgain⟩ := hconfirm hadmitted
      simp only [if_true, refuseIf_bind_eq_ok, refuseIf_eq_ok, not_not, hclass, hgain]
      rcases projection with ⟨cls, score, before⟩
      simp
  | false => simp

/-- **A validated artifact over the suite's floor is accepted just when its decision is the
law's.** -/
theorem verifyDominanceBlock_eq_ok {canonical : CanonicalSuite} {a : EvalArtifact}
    (hvalid : validateDominanceBlock a.dominance a.candidate.targetProfile a.determinismWitness
      a.verdict.admitted = .ok ())
    (hfloor : verifyGenesisFloor canonical a = .ok ()) :
    verifyDominanceBlock canonical a = .ok () ↔ LawBlock a := by
  have hblock := validateDominanceBlock_valid hvalid
  have hvectors := verifyGenesisFloor_vectors hfloor
  have hkeys := fun label => (CanonicalSuite.floorVector_of_ok (hvectors label)).objectives
  have hlabels : verifyDominanceBlock canonical a = .ok () ↔
      (∀ label, LawPartition (declaredObjectives a.candidate.targetProfile)
        (a.genesisFloor.partitions label) (a.dominance.partitions label)) ∧
      verifyProjection a.dominance a.admissionProjection = .ok () := by
    unfold verifyDominanceBlock
    simp only [hvectors, suiteCall, Except.mapError, ok_bind]
    constructor
    · intro h
      obtain ⟨_, hforM, hprojection⟩ := bind_eq_ok.mp h
      exact ⟨fun label => (verifyDominancePartition_eq_ok (hblock.partitions label)
        (hkeys label)).mp (forM_eq_ok.mp hforM label (mem_selectionLabels label)), hprojection⟩
    · rintro ⟨hlaw, hprojection⟩
      exact bind_eq_ok.mpr ⟨(), forM_eq_ok.mpr fun label _ =>
        (verifyDominancePartition_eq_ok (hblock.partitions label) (hkeys label)).mpr (hlaw label),
        hprojection⟩
  have hconfirm : (∀ label, LawPartition (declaredObjectives a.candidate.targetProfile)
        (a.genesisFloor.partitions label) (a.dominance.partitions label)) →
      (verifyProjection a.dominance a.admissionProjection = .ok () ↔
        a.admissionProjection = lawProjection a.dominance) := by
    intro hlaw
    refine verifyProjection_eq_ok fun hadmitted => ?_
    have hflag := hblock.all.mp hadmitted .confirm
    exact ⟨(hlaw .confirm).progressClass hflag, (hlaw .confirm).gain hflag⟩
  rw [hlabels]
  constructor
  · rintro ⟨hlaw, hprojection⟩
    refine ⟨hlaw, hblock.all.trans (forall_congr' fun label => (hlaw label).admitted), ?_⟩
    exact (hconfirm hlaw).mp hprojection
  · intro h
    exact ⟨h.partitions, (hconfirm h.partitions).mpr h.projection⟩

/-- A vector with this composite and this use of every resource, under the caps of the suite. -/
def measuredVector (compositeMicro usage : Int) : AbsoluteVector :=
  { sampleVector .convPref with compositeMicro, resource := fun _ => usage }

/-- A partition that takes one vector over the other for this class and this gain. -/
def samplePartition (cand inc : AbsoluteVector) (progress : String) (gain : Int) :
    DominancePartition where
  admissionGainPpm := some gain
  admitted := true
  candidateVector := cand
  compositeAfterPpm := cand.compositePpm
  compositeBeforePpm := inc.compositePpm
  compositeGainPpm := cand.compositePpm - inc.compositePpm
  floorRegressions := []
  hard :=
    { entries := hardGateVocabulary.map fun gate => (py gate, true)
      ascending := by decide +kernel }
  hardOk := true
  incumbentVector := inc
  progressClass := some (py progress)
  regressedObjectives := []
  regressedResourceAxes := []

/-- A side without work. -/
def idleSide : MeasuredSide where
  compositeMicro := 0
  computeMicro := 0
  corpusSupported := 0
  eventsScanned := 0
  hookComputeFuel := 0
  hookFuel := 0
  hostProfile := py "host"
  latencyMicro := 0
  logicalDurableStorageBytes := 0
  objectivesMicro := (sampleVector .convPref).objectivesMicro
  renderedCostMicro := 0
  storageBytes := 0
  storeEvents := 0
  storeOps := 0
  workFuel := 0

/-- A sample of the stored vectors of a parent, with the root that addresses it. -/
def sampleWitness (inc : AbsoluteVector) (kind : String) (source release : Root) :
    DeterminismWitness :=
  let unaddressed : DeterminismWitness := {
    lawId := py fixedSuiteLawId
    partitions := fun _ => inc
    profileId := .convPref
    releaseRoot := release
    sourceKind := py kind
    sourceRoot := source
    suiteRoot := zeroRoot
    witnessRoot := zeroRoot }
  { unaddressed with witnessRoot := sha256Hex (Json.obj unaddressed.body).dumps }

/-- An artifact that admits one vector over the other. -/
def sampleArtifact (cand inc : AbsoluteVector) (progress : String) (gain : Int) (kind : String)
    (source prior release : Root) : EvalArtifact where
  admissionProjection := ⟨some (py progress), some gain, 0⟩
  availability := ⟨[(py "report", ⟨0, py "sha256-bytes", zeroRoot⟩)], by simp⟩
  candidate := ⟨zeroRoot, prior, release, .convPref⟩
  counterResourceLawRoot := zeroRoot
  determinismWitness := sampleWitness inc kind source prior
  dominance := ⟨true, py dominanceEngineId, fun _ => samplePartition cand inc progress gain⟩
  epoch := 0
  format := py artifactFormat
  frontier := ⟨zeroRoot, zeroRoot, zeroRoot, zeroRoot, zeroRoot,
    ⟨prior, release, zeroRoot, .convPref⟩, 1, zeroRoot⟩
  genesisFloor := ⟨fun _ => sampleVector .convPref, py "reference", py "resolved", zeroRoot⟩
  measurements := ⟨fun _ => ⟨idleSide, idleSide⟩, micro, py "policy"⟩
  receipt := ⟨⟨[(py "law", zeroRoot)], by simp⟩, zeroRoot, py "policy", zeroRoot⟩
  replayInputs := ⟨zeroRoot, py "exec", zeroRoot, 0, .reference zeroRoot,
    ⟨zeroRoot, zeroRoot, 0, zeroRoot, fun _ => prior, zeroRoot⟩⟩
  resourceAccounting := ⟨.confirm, 0, 0, 0, 0⟩
  rigReceipt := none
  suite := {
    cases := fun label => [⟨zeroRoot, py label.name, .convPref, py "s", 0, 0⟩]
    counts := fun _ => 1
    format := py suiteFormat
    lawId := py fixedSuiteLawId
    profileId := .convPref
    scales := [py "s"]
    suiteRoot := zeroRoot
    suiteVersion := py "v1" }
  verdict := ⟨true, true, zeroRoot, py "ADMIT"⟩

/-- A rise of the composite by one part per million, gained as such. -/
theorem verifyDominanceBlock_eq_ok_quality :
    ∃ a, (verifyDominanceBlock sampleSuite a = .ok () ↔ LawBlock a) ∧
      verifyDominanceBlock sampleSuite a = .ok () :=
  ⟨sampleArtifact (measuredVector 5100 5) (measuredVector 5000 5) "quality" 1 "genesis" zeroRoot
      zeroRoot zeroRoot,
    verifyDominanceBlock_eq_ok (by decide +kernel) (by decide +kernel), by decide +kernel⟩

end CoreTex
