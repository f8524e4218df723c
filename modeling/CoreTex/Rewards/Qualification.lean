import CoreTex.Rewards.Threshold

/-!
# CoreTex.Rewards.Qualification

The qualification of a screener pass or a state advance (`rewards/work-units.ts`), and the law of
the work policy: where the screener threshold lies, how it moves, and what a state advance needs
and earns beside a screener pass.
-/

namespace CoreTex

open CoreTex.Lib

/-! ### Qualification -/

/-- `toSignedBigInt`. -/
def toSignedBigInt (value : Numeric) (label : String) : Except JsError Int :=
  match value with
  | .bigint n => .ok n
  | .number n =>
      if !isSafeInteger n then .error (rangeError s!"{label} must be a safe integer") else .ok n
  | .nonInteger => .error (rangeError s!"{label} must be a safe integer")
  | .string s =>
      -- `/^-?(0|[1-9][0-9]*)$/`
      let digits := if s.startsWith "-" then (s.drop 1).toString else s
      if !isDecimalString digits then
        .error (rangeError s!"{label} must be a signed decimal string")
      else .ok (if s.startsWith "-" then -decimalValue digits else decimalValue digits)

structure CoreTexWorkQualificationInput where
  outcome : Int
  qualifiedScreenerPassesSinceLastStateAdvance : Option Numeric
  policy : Option CoreTexWorkPolicy
  deterministicDeltaPpm : Numeric
  baselineScorePpm : Option Numeric
  recentNoiseFloorPpm : Option Numeric
  recentScreenerPasses : Option Numeric
  recentStateAdvances : Option Numeric
  targetStateAdvances : Option Numeric
  recentProbePassRatePpm : Option Numeric
  stateAdvanceThresholdPpm : Option Numeric
  localModelDeltaPpm : Option Numeric
  relevantNearCollisionPpm : Option Numeric
  parentMatchesLiveRoot : Bool
  liveStateAdvanced : Option Bool

inductive QualificationReason
  | ok
  | unknownOutcome
  | staleParent
  | deterministicDeltaTooLow
  | localModelRegression
  | relevantNearCollision
  | stateNotAdvanced
  deriving DecidableEq

structure CoreTexWorkQualification where
  qualified : Bool
  reason : QualificationReason
  workUnitsBps : Int
  requiredDeterministicDeltaPpm : Int
  deriving DecidableEq

/-- The result of a failed check. -/
def notQualified (reason : QualificationReason) (required : Int) : CoreTexWorkQualification :=
  ⟨false, reason, 0, required⟩

/-- `thresholdInput`: the measurements, beside the policy. -/
def CoreTexWorkQualificationInput.thresholdInput (input : CoreTexWorkQualificationInput)
    (policy : CoreTexWorkPolicy) : ComputeCoreTexScreenerThresholdInput where
  baselineScorePpm := input.baselineScorePpm
  recentNoiseFloorPpm := input.recentNoiseFloorPpm
  recentScreenerPasses := input.recentScreenerPasses
  recentStateAdvances := input.recentStateAdvances
  targetStateAdvances := input.targetStateAdvances
  recentProbePassRatePpm := input.recentProbePassRatePpm
  stateAdvanceThresholdPpm := input.stateAdvanceThresholdPpm
  policy := some policy

/-- The deterministic delta that an outcome needs. -/
def minDeterministicDelta (policy : CoreTexWorkPolicy) (isStateAdvance : Bool)
    (screenerThreshold stateAdvanceThreshold : Int) : Except JsError Int :=
  if isStateAdvance then do
    let least ← toBigInt policy.stateAdvance.minDeterministicDeltaPpm
      "stateAdvance.minDeterministicDeltaPpm"
    .ok (max (max least screenerThreshold) stateAdvanceThreshold)
  else .ok screenerThreshold

/-- The near-collision check: is the candidate too close to another one? -/
def nearCollisionTooHigh (policy : CoreTexWorkPolicy) (nearCollision : Option Numeric) :
    Except JsError Bool :=
  match nearCollision with
  | none => .ok false
  | some value => do
      let maxCollision ← toBigInt policy.screenerPass.maxRelevantNearCollisionPpm
        "screenerPass.maxRelevantNearCollisionPpm"
      let collision ← toBigInt value "relevantNearCollisionPpm"
      .ok (decide (collision > maxCollision))

/-- The checks after the required delta is known. -/
def qualifyAgainst (input : CoreTexWorkQualificationInput) (policy : CoreTexWorkPolicy)
    (isStateAdvance : Bool) (deterministicDelta localModelDelta minDeterministic : Int) :
    Except JsError CoreTexWorkQualification := do
  let minLocal ← toBigInt
    (if isStateAdvance then policy.stateAdvance.minLocalModelDeltaPpm
      else policy.screenerPass.minLocalModelDeltaPpm)
    (if isStateAdvance then "stateAdvance.minLocalModelDeltaPpm"
      else "screenerPass.minLocalModelDeltaPpm")
  if deterministicDelta < minDeterministic then
    .ok (notQualified .deterministicDeltaTooLow minDeterministic)
  else if localModelDelta < minLocal then
    .ok (notQualified .localModelRegression minDeterministic)
  else do
    let tooHigh ← nearCollisionTooHigh policy input.relevantNearCollisionPpm
    if tooHigh then .ok (notQualified .relevantNearCollision minDeterministic)
    else if isStateAdvance ∧ policy.stateAdvance.requireLiveStateAdvance ∧
        input.liveStateAdvanced ≠ some true then
      .ok (notQualified .stateNotAdvanced minDeterministic)
    else do
      let workUnitsBps ← computeCoreTexWorkUnitsBps input.outcome
        input.qualifiedScreenerPassesSinceLastStateAdvance input.policy
      .ok ⟨true, .ok, workUnitsBps, minDeterministic⟩

def evaluateCoreTexWorkQualification (input : CoreTexWorkQualificationInput) :
    Except JsError CoreTexWorkQualification := do
  let policy := input.policy.getD defaultCoretexWorkPolicy
  assertValidCoreTexWorkPolicy policy
  if input.outcome ≠ policy.screenerPass.outcome ∧
      input.outcome ≠ policy.stateAdvance.outcome then
    .ok (notQualified .unknownOutcome 0)
  else if input.parentMatchesLiveRoot = false then
    .ok (notQualified .staleParent 0)
  else do
    let deterministicDelta ← toSignedBigInt input.deterministicDeltaPpm "deterministicDeltaPpm"
    let localModelDelta ← toSignedBigInt (input.localModelDeltaPpm.getD (.bigint 0))
      "localModelDeltaPpm"
    let isStateAdvance := decide (input.outcome = policy.stateAdvance.outcome)
    let screenerThreshold ← computeCoreTexScreenerThresholdPpm (input.thresholdInput policy)
    let stateAdvanceThreshold ← toBigIntOrZero input.stateAdvanceThresholdPpm
      "stateAdvanceThresholdPpm"
    let minDeterministic ← minDeterministicDelta policy isStateAdvance screenerThreshold
      stateAdvanceThreshold
    qualifyAgainst input policy isStateAdvance deterministicDelta localModelDelta minDeterministic

/-! ### The required delta -/

/-- Whatever the further checks find, the delta that was required is reported. -/
theorem qualifyAgainst_required {input : CoreTexWorkQualificationInput}
    {policy : CoreTexWorkPolicy} {isStateAdvance : Bool}
    {deterministicDelta localModelDelta minDeterministic : Int} {q : CoreTexWorkQualification}
    (h : qualifyAgainst input policy isStateAdvance deterministicDelta localModelDelta
      minDeterministic = .ok q) : q.requiredDeterministicDeltaPpm = minDeterministic := by
  rw [qualifyAgainst, bind_eq_ok] at h
  obtain ⟨minLocal, -, h⟩ := h
  split at h
  · cases h
    rfl
  split at h
  · cases h
    rfl
  rw [bind_eq_ok] at h
  obtain ⟨tooHigh, -, h⟩ := h
  split at h
  · cases h
    rfl
  split at h
  · cases h
    rfl
  rw [bind_eq_ok] at h
  obtain ⟨workUnitsBps, -, h⟩ := h
  cases h
  rfl

/-- The required delta of a known outcome: nothing under a stale parent, else the minimum for the
outcome at the screener threshold. -/
theorem evaluateCoreTexWorkQualification_required {input : CoreTexWorkQualificationInput}
    {policy : CoreTexWorkPolicy} (hpolicy : input.policy.getD defaultCoretexWorkPolicy = policy)
    (houtcome : input.outcome = policy.screenerPass.outcome ∨
      input.outcome = policy.stateAdvance.outcome) {q : CoreTexWorkQualification}
    (h : evaluateCoreTexWorkQualification input = .ok q) :
    input.parentMatchesLiveRoot = false ∧ q.requiredDeterministicDeltaPpm = 0 ∨
      input.parentMatchesLiveRoot = true ∧ ∃ screenerThreshold stateAdvanceThreshold,
        computeCoreTexScreenerThresholdPpm (input.thresholdInput policy) =
          .ok screenerThreshold ∧
        toBigIntOrZero input.stateAdvanceThresholdPpm "stateAdvanceThresholdPpm" =
          .ok stateAdvanceThreshold ∧
        minDeterministicDelta policy (decide (input.outcome = policy.stateAdvance.outcome))
          screenerThreshold stateAdvanceThreshold = .ok q.requiredDeterministicDeltaPpm := by
  rw [evaluateCoreTexWorkQualification] at h
  dsimp only at h
  rw [hpolicy, bind_eq_ok] at h
  obtain ⟨_, -, h⟩ := h
  rw [if_neg (fun hand => houtcome.elim hand.1 hand.2)] at h
  cases hparent : input.parentMatchesLiveRoot with
  | false =>
      rw [hparent, if_pos rfl] at h
      cases h
      exact .inl ⟨rfl, rfl⟩
  | true =>
      rw [hparent, if_neg (by decide)] at h
      simp only [bind_eq_ok] at h
      obtain ⟨_, -, _, -, screenerThreshold, hscreener, stateAdvanceThreshold, hadvance,
        minDeterministic, hmin, h⟩ := h
      rw [qualifyAgainst_required h]
      exact .inr ⟨rfl, screenerThreshold, stateAdvanceThreshold, hscreener, hadvance, hmin⟩

/-- The same input for another outcome. -/
def CoreTexWorkQualificationInput.withOutcome (input : CoreTexWorkQualificationInput)
    (outcome : Int) : CoreTexWorkQualificationInput :=
  { input with outcome := outcome }

/-- For the same input a state advance needs no less than a screener pass. -/
theorem required_screener_le_stateAdvance {input : CoreTexWorkQualificationInput}
    {policy : CoreTexWorkPolicy} (hpolicy : input.policy.getD defaultCoretexWorkPolicy = policy)
    (hvalid : assertValidCoreTexWorkPolicy policy = .ok ()) {q q' : CoreTexWorkQualification}
    (hscreener : evaluateCoreTexWorkQualification (input.withOutcome outcomeCoretexScreenerPass) =
      .ok q)
    (hadvance : evaluateCoreTexWorkQualification (input.withOutcome outcomeCoretexStateAdvance) =
      .ok q') :
    q.requiredDeterministicDeltaPpm ≤ q'.requiredDeterministicDeltaPpm := by
  obtain ⟨houtcome, houtcome', -⟩ := assertValidCoreTexWorkPolicy_inv hvalid
  have hq := @evaluateCoreTexWorkQualification_required
    (input.withOutcome outcomeCoretexScreenerPass) policy hpolicy (.inl houtcome.symm)
    q hscreener
  have hq' := @evaluateCoreTexWorkQualification_required
    (input.withOutcome outcomeCoretexStateAdvance) policy hpolicy (.inr houtcome'.symm)
    q' hadvance
  dsimp only [CoreTexWorkQualificationInput.withOutcome] at hq hq'
  rcases hq with ⟨hstale, hzero⟩ | ⟨hlive, screenerThreshold, stateAdvanceThreshold, hthreshold,
    hstate, hmin⟩
  · rcases hq' with ⟨-, hzero'⟩ | ⟨hlive, -⟩
    · rw [hzero, hzero']
    · rw [hstale] at hlive
      cases hlive
  · rcases hq' with ⟨hstale, -⟩ | ⟨-, screenerThreshold', stateAdvanceThreshold', hthreshold',
      hstate', hmin'⟩
    · rw [hlive] at hstale
      cases hstale
    -- both outcomes read one screener threshold
    obtain rfl : screenerThreshold = screenerThreshold' :=
      Except.ok.inj (hthreshold.symm.trans hthreshold')
    rw [minDeterministicDelta, if_neg (by simp [houtcome', outcomeCoretexScreenerPass,
      outcomeCoretexStateAdvance])] at hmin
    rw [minDeterministicDelta, if_pos (by simp [houtcome']), bind_eq_ok] at hmin'
    obtain ⟨least, -, hmin'⟩ := hmin'
    rw [← Except.ok.inj hmin, ← Except.ok.inj hmin']
    exact (le_max_right _ _).trans (le_max_left _ _)

/-! ### Work units -/

theorem assertValidTiers_cons {tier : StateAdvanceWorkTier} {rest : List StateAdvanceWorkTier}
    {i : Nat} {prevMin prevBps : Int} {u : Unit}
    (h : assertValidTiers i prevMin prevBps (tier :: rest) = .ok u) :
    ∃ min bps, Spells tier.minQualifiedScreenerPassesSinceLastStateAdvance min ∧
      Spells tier.workUnitsBps bps ∧ 3 * workBpsDivisor ≤ bps ∧ prevBps ≤ bps ∧
      assertValidTiers (i + 1) min bps rest = .ok u := by
  rw [assertValidTiers, bind_eq_ok] at h
  obtain ⟨min, hmin, h⟩ := h
  rw [bind_eq_ok] at h
  obtain ⟨bps, hbps, h⟩ := h
  rw [refuseIf_bind_eq_ok, refuseIf_bind_eq_ok, refuseIf_bind_eq_ok] at h
  obtain ⟨-, hthree, hge, hrest⟩ := h
  exact ⟨min, bps, spells_of_toBigInt hmin, spells_of_toBigInt hbps, Int.not_lt.mp hthree,
    Int.not_lt.mp hge, hrest⟩

/-- What the selection loop returns from a tier on, for two counts. The tiers that are left ask
for more and pay no less than what is selected so far. -/
theorem selectTier_mono {tiers : List StateAdvanceWorkTier} {i j k : Nat}
    {prevMin prevBps selected selected' m n b b' : Int} {u : Unit}
    (hvalid : assertValidTiers i prevMin prevBps tiers = .ok u) (hmn : m ≤ n)
    (hselected : selected ≤ selected') (hprev : selected ≤ prevBps)
    (hm : selectTier m j selected tiers = .ok b) (hn : selectTier n k selected' tiers = .ok b') :
    b ≤ b' := by
  induction tiers generalizing i j k prevMin prevBps selected selected' with
  | nil =>
      cases hm
      cases hn
      exact hselected
  | cons tier rest ih =>
      obtain ⟨min, bps, hmin, hbps, -, hge, hvalid⟩ := assertValidTiers_cons hvalid
      rw [selectTier, hmin, ok_bind] at hm hn
      by_cases hreached : m ≥ min
      · rw [if_pos hreached, hbps, ok_bind] at hm
        rw [if_pos (hreached.trans hmn), hbps, ok_bind] at hn
        exact ih hvalid le_rfl le_rfl hm hn
      · rw [if_neg hreached] at hm
        have hnext : selected ≤ bps := by omega
        by_cases hreached' : n ≥ min
        · rw [if_pos hreached', hbps, ok_bind] at hn
          exact ih hvalid hnext hnext hm hn
        · rw [if_neg hreached'] at hn
          exact ih hvalid hselected hnext hm hn

/-- Every tier pays three times the unit. -/
theorem selectTier_ge {tiers : List StateAdvanceWorkTier} {i j : Nat}
    {prevMin prevBps selected count b : Int} {u : Unit}
    (hvalid : assertValidTiers i prevMin prevBps tiers = .ok u)
    (hselected : 3 * workBpsDivisor ≤ selected)
    (h : selectTier count j selected tiers = .ok b) : 3 * workBpsDivisor ≤ b := by
  induction tiers generalizing i j prevMin prevBps selected with
  | nil =>
      cases h
      exact hselected
  | cons tier rest ih =>
      obtain ⟨min, bps, hmin, hbps, hthree, -, hvalid⟩ := assertValidTiers_cons hvalid
      rw [selectTier, hmin, ok_bind] at h
      by_cases hreached : count ≥ min
      · rw [if_pos hreached, hbps, ok_bind] at h
        exact ih hvalid hthree h
      · rw [if_neg hreached] at h
        exact ih hvalid hselected h

/-- The tiers of a valid policy: the first starts at zero, and the rest go on from what it pays. -/
theorem assertValidCoreTexWorkPolicy_tiers {policy : CoreTexWorkPolicy} {u : Unit}
    (h : assertValidCoreTexWorkPolicy policy = .ok u) :
    ∃ first rest bps, policy.stateAdvance.tiers = first :: rest ∧
      Spells first.minQualifiedScreenerPassesSinceLastStateAdvance 0 ∧
      Spells first.workUnitsBps bps ∧ 3 * workBpsDivisor ≤ bps ∧
      ∃ u, assertValidTiers 1 0 bps rest = .ok u := by
  unfold assertValidCoreTexWorkPolicy at h
  simp only [bind_eq_ok, refuseIf_eq_ok, not_not] at h
  obtain ⟨_, -, _, -, _, -, _, -, _, -, _, -, _, -, _, -, _, -, _, -, _, -, _, -, _, -,
    _, -, _, -, _, -, _, -, _, -, _, -, _, -, _, -, _, -, _, -, _, -, _, -, _, -, _, -, _,
    -, h⟩ := h
  cases htiers : policy.stateAdvance.tiers with
  | nil =>
      rw [htiers] at h
      exact absurd h throw_ne_ok
  | cons first rest =>
      rw [htiers] at h
      simp only [bind_eq_ok, refuseIf_eq_ok, not_not] at h
      obtain ⟨u, htiersValid, firstMin, hfirst, hzero⟩ := h
      obtain ⟨min, bps, hmin, hbps, hthree, -, hrest⟩ := assertValidTiers_cons htiersValid
      subst hzero
      have hfirst := spells_of_toBigInt hfirst
      obtain rfl := hmin.unique hfirst
      exact ⟨first, rest, bps, rfl, hfirst, hbps, hthree, u, hrest⟩

/-- The units of a state advance, by the tiers after the first. -/
theorem computeCoreTexWorkUnitsBps_stateAdvance {policy : CoreTexWorkPolicy}
    (hvalid : assertValidCoreTexWorkPolicy policy = .ok ()) {first : StateAdvanceWorkTier}
    {rest : List StateAdvanceWorkTier} {bps : Int}
    (htiers : policy.stateAdvance.tiers = first :: rest)
    (hmin : Spells first.minQualifiedScreenerPassesSinceLastStateAdvance 0)
    (hbps : Spells first.workUnitsBps bps) {passes : Option Numeric} {count : Int}
    (hcount : SpellsInput passes count) :
    computeCoreTexWorkUnitsBps outcomeCoretexStateAdvance passes (some policy) =
      selectTier count 1 bps rest := by
  obtain ⟨houtcome, houtcome', -⟩ := assertValidCoreTexWorkPolicy_inv hvalid
  unfold computeCoreTexWorkUnitsBps
  dsimp only [Option.getD_some]
  rw [hvalid, ok_bind, houtcome, if_neg (by decide), houtcome', refuseIf_of_not (by decide),
    ok_bind, hcount, ok_bind, htiers]
  dsimp only
  rw [hbps, ok_bind, selectTier, hmin, ok_bind, if_pos hcount.nonneg, hbps, ok_bind]

/-! ### The law of a work policy -/

/-- The threshold law, for every valid policy, with the numbers `c` that its calibration spells,
and every input, with the numbers `v` that it spells. -/
structure ThresholdLaw (policy : CoreTexWorkPolicy) (c : CalibrationNumbers) : Prop where
  le_maxThreshold : ∀ input v t, input.policy.getD defaultCoretexWorkPolicy = policy →
    input.Reads v → computeCoreTexScreenerThresholdPpm input = .ok t → t ≤ c.maxThreshold
  le_stateAdvanceThreshold : ∀ input v t, input.policy.getD defaultCoretexWorkPolicy = policy →
    input.Reads v → computeCoreTexScreenerThresholdPpm input = .ok t →
    0 < v.stateAdvanceThreshold → t ≤ v.stateAdvanceThreshold
  ge_floor : ∀ input v t, input.policy.getD defaultCoretexWorkPolicy = policy →
    input.Reads v → computeCoreTexScreenerThresholdPpm input = .ok t →
    min (c.ceiling v) (max c.minDelta (c.stateAdvanceFloor v)) ≤ t
  mono : ∀ input input' v v' t t', input.policy.getD defaultCoretexWorkPolicy = policy →
    input'.policy.getD defaultCoretexWorkPolicy = policy → input.Reads v → input'.Reads v' →
    computeCoreTexScreenerThresholdPpm input = .ok t →
    computeCoreTexScreenerThresholdPpm input' = .ok t' → v.Eases v' → t ≤ t'
  easing : ∀ (input : ComputeCoreTexScreenerThresholdInput) v,
    input.policy.getD defaultCoretexWorkPolicy = policy → input.Reads v →
    c.headroom v - c.easedHeadroom v ≤
      portionUp (c.headroom v) c.plateauEasingMaxBps workBpsDivisor
  required : ∀ (input : CoreTexWorkQualificationInput) q q',
    input.policy.getD defaultCoretexWorkPolicy = policy →
    evaluateCoreTexWorkQualification (input.withOutcome outcomeCoretexScreenerPass) = .ok q →
    evaluateCoreTexWorkQualification (input.withOutcome outcomeCoretexStateAdvance) = .ok q' →
    q.requiredDeterministicDeltaPpm ≤ q'.requiredDeterministicDeltaPpm
  units_mono : ∀ passes passes' count count' b b', SpellsInput passes count →
    SpellsInput passes' count' → count ≤ count' →
    computeCoreTexWorkUnitsBps outcomeCoretexStateAdvance passes (some policy) = .ok b →
    computeCoreTexWorkUnitsBps outcomeCoretexStateAdvance passes' (some policy) = .ok b' → b ≤ b'
  units_ge : ∀ passes passes' count b b', SpellsInput passes count →
    computeCoreTexWorkUnitsBps outcomeCoretexStateAdvance passes (some policy) = .ok b →
    computeCoreTexWorkUnitsBps outcomeCoretexScreenerPass passes' (some policy) = .ok b' →
    3 * b' ≤ b

/-- **Every valid policy obeys the threshold law.** -/
theorem thresholdLaw_of_valid {policy : CoreTexWorkPolicy}
    (hvalid : assertValidCoreTexWorkPolicy policy = .ok ()) :
    ∃ c : CalibrationNumbers, policy.screenerPass.calibration.Reads c ∧ ThresholdLaw policy c := by
  obtain ⟨c, hreads, hc, hunits⟩ := assertValidCoreTexWorkPolicy_reads hvalid
  obtain ⟨houtcome, -⟩ := assertValidCoreTexWorkPolicy_inv hvalid
  obtain ⟨first, rest, bps, htiers, hmin, hbps, hthree, _, hrest⟩ :=
    assertValidCoreTexWorkPolicy_tiers hvalid
  have hthreshold : ∀ input v t, input.policy.getD defaultCoretexWorkPolicy = policy →
      input.Reads v → computeCoreTexScreenerThresholdPpm input = .ok t →
      t = c.screenerThreshold v := by
    intro input v t hpolicy hv h
    exact computeCoreTexScreenerThresholdPpm_reads (hpolicy ▸ hreads) hv h
  refine ⟨c, hreads, ?_⟩
  constructor
  · intro input v t hpolicy hv h
    rw [hthreshold input v t hpolicy hv h]
    exact CalibrationNumbers.screenerThreshold_le_maxThreshold
  · intro input v t hpolicy hv h hpos
    rw [hthreshold input v t hpolicy hv h]
    exact CalibrationNumbers.screenerThreshold_le_stateAdvanceThreshold hpos
  · intro input v t hpolicy hv h
    rw [hthreshold input v t hpolicy hv h]
    exact hc.le_screenerThreshold
  · intro input input' v v' t t' hpolicy hpolicy' hv hv' h h' heases
    rw [hthreshold input v t hpolicy hv h, hthreshold input' v' t' hpolicy' hv' h']
    exact hc.screenerThreshold_mono heases hv'.nonneg
  · intro input v _ _
    exact hc.headroom_sub_easedHeadroom_le
  · intro input q q' hpolicy hq hq'
    exact required_screener_le_stateAdvance hpolicy hvalid hq hq'
  · intro passes passes' count count' b b' hcount hcount' hle hb hb'
    rw [computeCoreTexWorkUnitsBps_stateAdvance hvalid htiers hmin hbps hcount] at hb
    rw [computeCoreTexWorkUnitsBps_stateAdvance hvalid htiers hmin hbps hcount'] at hb'
    exact selectTier_mono hrest hle le_rfl le_rfl hb hb'
  · intro passes passes' count b b' hcount hb hb'
    rw [computeCoreTexWorkUnitsBps_stateAdvance hvalid htiers hmin hbps hcount] at hb
    unfold computeCoreTexWorkUnitsBps at hb'
    dsimp only [Option.getD_some] at hb'
    rw [hvalid, ok_bind, houtcome, if_pos rfl, hunits] at hb'
    rw [← Except.ok.inj hb']
    exact selectTier_ge hrest hthree hb

/-- The default policy obeys the law. -/
theorem thresholdLaw_of_valid_default : ∃ c : CalibrationNumbers,
    defaultCoretexWorkPolicy.screenerPass.calibration.Reads c ∧
      ThresholdLaw defaultCoretexWorkPolicy c :=
  thresholdLaw_of_valid defaultCoretexWorkPolicy_valid

/-- An input with one part per million of headroom, all of its target missing and supported. -/
def onePpmHeadroom : ComputeCoreTexScreenerThresholdInput where
  baselineScorePpm := some (.bigint 998000)
  recentNoiseFloorPpm := none
  recentScreenerPasses := some (.bigint 1)
  recentStateAdvances := none
  targetStateAdvances := some (.bigint 1)
  recentProbePassRatePpm := none
  stateAdvanceThresholdPpm := some (.bigint 100)
  policy := none

/-- Rounding lets an easing of one half take the whole of a headroom term of one. -/
theorem not_easing_le_exactly : ∃ (c : CalibrationNumbers) (v : ThresholdNumbers) (t : Int),
    defaultCoretexWorkPolicy.screenerPass.calibration.Reads c ∧ onePpmHeadroom.Reads v ∧
      computeCoreTexScreenerThresholdPpm onePpmHeadroom = .ok t ∧
      ¬ (c.headroom v - c.easedHeadroom v) * workBpsDivisor ≤
        c.headroom v * c.plateauEasingMaxBps := by
  refine ⟨⟨1000000, 50, 5, 20000, 5000, 5000, 20000, 50000, 150000⟩,
    ⟨998000, 0, 1, 0, 1, 0, 100⟩, 50, ?_, ?_, by decide +kernel, by decide⟩
  · constructor <;> intro label <;> rfl
  · constructor <;> intro label <;> rfl

end CoreTex
