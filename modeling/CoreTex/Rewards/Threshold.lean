import CoreTex.Lib.Portion
import CoreTex.Rewards.WorkUnits

/-!
# CoreTex.Rewards.Threshold

The screener threshold (`rewards/work-units.ts`): the least score improvement that a screener
pass needs, from the calibration of a work policy and the measurements of an epoch.

The formula is a composition of portions, minima and maxima over the numbers that the policy and
the input spell (`screenerThreshold`), and each of its parts moves one way with each of them.
`computeCoreTexScreenerThresholdPpm_reads` ties the function to the formula.
-/

namespace CoreTex

open CoreTex.Lib

/-! ### The function -/

def clamp (value lo hi : Int) : Int :=
  min (max value lo) hi

def ceilDiv (numerator denominator : Int) : Except JsError Int := do
  refuseIf (denominator ≤ 0) (rangeError "ceilDiv denominator must be positive")
  .ok ((numerator + denominator - 1).tdiv denominator)

structure ComputeCoreTexScreenerThresholdInput where
  baselineScorePpm : Option Numeric
  recentNoiseFloorPpm : Option Numeric
  recentScreenerPasses : Option Numeric
  recentStateAdvances : Option Numeric
  targetStateAdvances : Option Numeric
  recentProbePassRatePpm : Option Numeric
  stateAdvanceThresholdPpm : Option Numeric
  policy : Option CoreTexWorkPolicy

/-- `toBigInt(value ?? 0n, label)`. -/
def toBigIntOrZero (value : Option Numeric) (label : String) : Except JsError Int :=
  toBigInt (value.getD (.bigint 0)) label

/-- The plateau easing: the share of the target that is still missing and that screener passes
support. -/
def plateauEasingBps (plateauEasingMaxBps targetStateAdvances recentStateAdvances
    recentScreenerPasses : Int) : Int :=
  let stateAdvanceGap := targetStateAdvances - min recentStateAdvances targetStateAdvances
  let supportedGap := min recentScreenerPasses stateAdvanceGap
  min plateauEasingMaxBps (portion plateauEasingMaxBps supportedGap targetStateAdvances)

/-- The block under `if (targetStateAdvances > 0n)`. -/
def adjustedHeadroomDelta (input : ComputeCoreTexScreenerThresholdInput)
    (headroomDelta plateauEasingMaxBps targetStateAdvances : Int) : Except JsError Int :=
  if targetStateAdvances > 0 then do
    let recentStateAdvances ← toBigIntOrZero input.recentStateAdvances "recentStateAdvances"
    let recentScreenerPasses ← toBigIntOrZero input.recentScreenerPasses "recentScreenerPasses"
    let easingBps := plateauEasingBps plateauEasingMaxBps targetStateAdvances recentStateAdvances
      recentScreenerPasses
    .ok (portion headroomDelta (workBpsDivisor - easingBps) workBpsDivisor)
  else .ok headroomDelta

/-- The least threshold, as a portion of the state-advance threshold. -/
def stateAdvanceFloorDelta (stateAdvanceThreshold stateAdvanceFloorBps : Int) :
    Except JsError Int :=
  if stateAdvanceThreshold > 0 ∧ stateAdvanceFloorBps > 0 then
    ceilDiv (stateAdvanceThreshold * stateAdvanceFloorBps) workBpsDivisor
  else .ok 0

def computeCoreTexScreenerThresholdPpm (input : ComputeCoreTexScreenerThresholdInput) :
    Except JsError Int := do
  let policy := input.policy.getD defaultCoretexWorkPolicy
  assertValidCoreTexWorkPolicy policy
  let calibration := policy.screenerPass.calibration
  let scale ← toBigInt calibration.scoreScalePpm "screenerPass.calibration.scoreScalePpm"
  let baselineScore ← toBigIntOrZero input.baselineScorePpm "baselineScorePpm"
  let remaining := scale - clamp baselineScore 0 scale
  let minDelta ← toBigInt calibration.minDeltaPpm "screenerPass.calibration.minDeltaPpm"
  let remainingHeadroomBps ← toBigInt calibration.remainingHeadroomBps
    "screenerPass.calibration.remainingHeadroomBps"
  let headroomDelta := portion remaining remainingHeadroomBps workBpsDivisor
  let recentNoiseFloor ← toBigIntOrZero input.recentNoiseFloorPpm "recentNoiseFloorPpm"
  let noiseFloorMultiplierBps ← toBigInt calibration.noiseFloorMultiplierBps
    "screenerPass.calibration.noiseFloorMultiplierBps"
  let noiseDelta := portion recentNoiseFloor noiseFloorMultiplierBps workBpsDivisor
  let stateAdvanceFloorBps ← toBigIntOrZero calibration.stateAdvanceThresholdFloorBps
    "screenerPass.calibration.stateAdvanceThresholdFloorBps"
  refuseIf (stateAdvanceFloorBps > 0 ∧ input.stateAdvanceThresholdPpm = none) (rangeError
    "stateAdvanceThresholdPpm is required when stateAdvanceThresholdFloorBps is enabled")
  let stateAdvanceThreshold ← toBigIntOrZero input.stateAdvanceThresholdPpm
    "stateAdvanceThresholdPpm"
  refuseIf (stateAdvanceFloorBps > 0 ∧ stateAdvanceThreshold ≤ 0) (rangeError
    "stateAdvanceThresholdPpm must be positive when stateAdvanceThresholdFloorBps is enabled")
  let stateAdvanceFloor ← stateAdvanceFloorDelta stateAdvanceThreshold stateAdvanceFloorBps
  let plateauEasingMaxBps ← toBigInt calibration.plateauEasingMaxBps
    "screenerPass.calibration.plateauEasingMaxBps"
  let targetStateAdvances ← toBigIntOrZero input.targetStateAdvances "targetStateAdvances"
  let adjustedHeadroom ← adjustedHeadroomDelta input headroomDelta plateauEasingMaxBps
    targetStateAdvances
  let recentProbePassRate ← toBigIntOrZero input.recentProbePassRatePpm "recentProbePassRatePpm"
  let probePassRate := clamp recentProbePassRate 0 scale
  let maxAntiGamingPenaltyBps ← toBigInt calibration.maxAntiGamingPenaltyBps
    "screenerPass.calibration.maxAntiGamingPenaltyBps"
  let antiGamingProbeMultiplierBps ← toBigInt calibration.antiGamingProbeMultiplierBps
    "screenerPass.calibration.antiGamingProbeMultiplierBps"
  let antiGamingPenaltyBps := min maxAntiGamingPenaltyBps
    (portion probePassRate antiGamingProbeMultiplierBps scale)
  let maxThreshold ← toBigInt calibration.maxThresholdPpm
    "screenerPass.calibration.maxThresholdPpm"
  let rawThreshold := max (max minDelta stateAdvanceFloor) (max adjustedHeadroom noiseDelta)
  let penalizedThreshold := portion rawThreshold (workBpsDivisor + antiGamingPenaltyBps)
    workBpsDivisor
  let dynamicCeiling :=
    if stateAdvanceThreshold > 0 then min maxThreshold stateAdvanceThreshold else maxThreshold
  .ok (min penalizedThreshold dynamicCeiling)

/-! ### The numbers behind it -/

/-- The value spells this number. -/
def Spells (value : Numeric) (n : Int) : Prop :=
  ∀ label, toBigInt value label = .ok n

/-- An optional input spells this number: zero when it is absent. -/
def SpellsInput (value : Option Numeric) (n : Int) : Prop :=
  Spells (value.getD (.bigint 0)) n

/-- The numbers of a calibration. -/
structure CalibrationNumbers where
  scoreScale : Int
  minDelta : Int
  remainingHeadroomBps : Int
  noiseFloorMultiplierBps : Int
  plateauEasingMaxBps : Int
  stateAdvanceFloorBps : Int
  antiGamingProbeMultiplierBps : Int
  maxAntiGamingPenaltyBps : Int
  maxThreshold : Int

/-- The calibration spells these numbers. -/
structure ScreenerCalibration.Reads (calibration : ScreenerCalibration) (c : CalibrationNumbers) :
    Prop where
  scoreScale : Spells calibration.scoreScalePpm c.scoreScale
  minDelta : Spells calibration.minDeltaPpm c.minDelta
  remainingHeadroomBps : Spells calibration.remainingHeadroomBps c.remainingHeadroomBps
  noiseFloorMultiplierBps : Spells calibration.noiseFloorMultiplierBps c.noiseFloorMultiplierBps
  plateauEasingMaxBps : Spells calibration.plateauEasingMaxBps c.plateauEasingMaxBps
  stateAdvanceFloorBps : SpellsInput calibration.stateAdvanceThresholdFloorBps
    c.stateAdvanceFloorBps
  antiGamingProbeMultiplierBps : Spells calibration.antiGamingProbeMultiplierBps
    c.antiGamingProbeMultiplierBps
  maxAntiGamingPenaltyBps : Spells calibration.maxAntiGamingPenaltyBps c.maxAntiGamingPenaltyBps
  maxThreshold : Spells calibration.maxThresholdPpm c.maxThreshold

/-- What the validation of a policy leaves of its calibration. -/
structure CalibrationNumbers.Valid (c : CalibrationNumbers) : Prop where
  scoreScale : c.scoreScale = 1000000
  minDelta : 10 ≤ c.minDelta
  maxThreshold : c.minDelta ≤ c.maxThreshold
  remainingHeadroomBps : 0 ≤ c.remainingHeadroomBps
  noiseFloorMultiplierBps : workBpsDivisor ≤ c.noiseFloorMultiplierBps
  plateauEasingMaxBps_nonneg : 0 ≤ c.plateauEasingMaxBps
  plateauEasingMaxBps : c.plateauEasingMaxBps ≤ workBpsDivisor
  stateAdvanceFloorBps_nonneg : 0 ≤ c.stateAdvanceFloorBps
  antiGamingProbeMultiplierBps : 0 ≤ c.antiGamingProbeMultiplierBps
  maxAntiGamingPenaltyBps : 0 ≤ c.maxAntiGamingPenaltyBps

/-- The numbers of an input. -/
structure ThresholdNumbers where
  baselineScore : Int
  recentNoiseFloor : Int
  recentScreenerPasses : Int
  recentStateAdvances : Int
  targetStateAdvances : Int
  recentProbePassRate : Int
  stateAdvanceThreshold : Int

/-- The input spells these numbers. -/
structure ComputeCoreTexScreenerThresholdInput.Reads
    (input : ComputeCoreTexScreenerThresholdInput) (v : ThresholdNumbers) : Prop where
  baselineScore : SpellsInput input.baselineScorePpm v.baselineScore
  recentNoiseFloor : SpellsInput input.recentNoiseFloorPpm v.recentNoiseFloor
  recentScreenerPasses : SpellsInput input.recentScreenerPasses v.recentScreenerPasses
  recentStateAdvances : SpellsInput input.recentStateAdvances v.recentStateAdvances
  targetStateAdvances : SpellsInput input.targetStateAdvances v.targetStateAdvances
  recentProbePassRate : SpellsInput input.recentProbePassRatePpm v.recentProbePassRate
  stateAdvanceThreshold : SpellsInput input.stateAdvanceThresholdPpm v.stateAdvanceThreshold

theorem Spells.nonneg {value : Numeric} {n : Int} (h : Spells value n) : 0 ≤ n := by
  have h := h ""
  unfold toBigInt at h
  cases value with
  | string s =>
      dsimp only at h
      split at h
      · cases h
      · cases h
        exact Int.natCast_nonneg _
  | bigint m =>
      dsimp only at h
      split at h
      · cases h
      · cases h
        omega
  | number m =>
      dsimp only at h
      split at h
      · cases h
      · rename_i hm
        cases h
        simp only [Bool.or_eq_true, decide_eq_true_eq, not_or] at hm
        omega
  | nonInteger => cases h

theorem spells_of_toBigInt {value : Numeric} {label : String} {n : Int}
    (h : toBigInt value label = .ok n) : Spells value n :=
  toBigInt_label h

theorem Spells.unique {value : Numeric} {m n : Int} (hm : Spells value m) (hn : Spells value n) :
    m = n :=
  Except.ok.inj ((hm "").symm.trans (hn ""))

/-! ### The formula -/

namespace CalibrationNumbers

variable (c : CalibrationNumbers) (v : ThresholdNumbers)

/-- The headroom term: a portion of what the baseline leaves of the scale. -/
def headroom : Int :=
  portion (c.scoreScale - clamp v.baselineScore 0 c.scoreScale) c.remainingHeadroomBps
    workBpsDivisor

def easingBps : Int :=
  if v.targetStateAdvances > 0 then
    plateauEasingBps c.plateauEasingMaxBps v.targetStateAdvances v.recentStateAdvances
      v.recentScreenerPasses
  else 0

/-- The headroom term after the plateau easing. -/
def easedHeadroom : Int :=
  if v.targetStateAdvances > 0 then
    portion (c.headroom v) (workBpsDivisor - c.easingBps v) workBpsDivisor
  else c.headroom v

def noiseDelta : Int :=
  portion v.recentNoiseFloor c.noiseFloorMultiplierBps workBpsDivisor

/-- The state-advance floor. -/
def stateAdvanceFloor : Int :=
  if v.stateAdvanceThreshold > 0 ∧ c.stateAdvanceFloorBps > 0 then
    portionUp v.stateAdvanceThreshold c.stateAdvanceFloorBps workBpsDivisor
  else 0

def antiGamingPenaltyBps : Int :=
  min c.maxAntiGamingPenaltyBps (portion (clamp v.recentProbePassRate 0 c.scoreScale)
    c.antiGamingProbeMultiplierBps c.scoreScale)

/-- The dynamic ceiling. -/
def ceiling : Int :=
  if v.stateAdvanceThreshold > 0 then min c.maxThreshold v.stateAdvanceThreshold
  else c.maxThreshold

def rawThreshold : Int :=
  max (max c.minDelta (c.stateAdvanceFloor v)) (max (c.easedHeadroom v) (c.noiseDelta v))

def screenerThreshold : Int :=
  min (portion (c.rawThreshold v) (workBpsDivisor + c.antiGamingPenaltyBps v) workBpsDivisor)
    (c.ceiling v)

end CalibrationNumbers

theorem ceilDiv_workBpsDivisor (numerator : Int) :
    ceilDiv numerator workBpsDivisor = .ok ((numerator + workBpsDivisor - 1).tdiv workBpsDivisor) :=
  rfl

variable {calibration : ScreenerCalibration} {c : CalibrationNumbers}
  {input : ComputeCoreTexScreenerThresholdInput} {v : ThresholdNumbers}

/-- The function returns the formula at the numbers that the policy and the input spell. -/
theorem computeCoreTexScreenerThresholdPpm_reads {t : Int}
    (hc : (input.policy.getD defaultCoretexWorkPolicy).screenerPass.calibration.Reads c)
    (hv : input.Reads v) (h : computeCoreTexScreenerThresholdPpm input = .ok t) :
    t = c.screenerThreshold v := by
  have hadjusted : ∀ headroomDelta, adjustedHeadroomDelta input headroomDelta
      c.plateauEasingMaxBps v.targetStateAdvances = .ok (if v.targetStateAdvances > 0 then
        portion headroomDelta (workBpsDivisor - c.easingBps v) workBpsDivisor
        else headroomDelta) := by
    intro headroomDelta
    by_cases htarget : v.targetStateAdvances > 0
    · rw [adjustedHeadroomDelta, if_pos htarget, if_pos htarget, toBigIntOrZero, toBigIntOrZero,
        hv.recentStateAdvances, ok_bind, hv.recentScreenerPasses, ok_bind,
        CalibrationNumbers.easingBps, if_pos htarget]
    · rw [adjustedHeadroomDelta, if_neg htarget, if_neg htarget]
  have hfloor : stateAdvanceFloorDelta v.stateAdvanceThreshold c.stateAdvanceFloorBps =
      .ok (c.stateAdvanceFloor v) := by
    rw [stateAdvanceFloorDelta, CalibrationNumbers.stateAdvanceFloor]
    split
    · exact ceilDiv_workBpsDivisor _
    · rfl
  unfold computeCoreTexScreenerThresholdPpm at h
  dsimp only [toBigIntOrZero] at h
  rw [bind_eq_ok] at h
  obtain ⟨_, -, h⟩ := h
  rw [hc.scoreScale, ok_bind, hv.baselineScore, ok_bind, hc.minDelta, ok_bind,
    hc.remainingHeadroomBps, ok_bind, hv.recentNoiseFloor, ok_bind, hc.noiseFloorMultiplierBps,
    ok_bind, hc.stateAdvanceFloorBps, ok_bind, refuseIf_bind_eq_ok, hv.stateAdvanceThreshold,
    ok_bind, refuseIf_bind_eq_ok, hfloor, ok_bind, hc.plateauEasingMaxBps, ok_bind,
    hv.targetStateAdvances, ok_bind, hadjusted, ok_bind, hv.recentProbePassRate, ok_bind,
    hc.maxAntiGamingPenaltyBps, ok_bind, hc.antiGamingProbeMultiplierBps, ok_bind,
    hc.maxThreshold, ok_bind] at h
  exact (Except.ok.inj h.2.2).symm

/-! ### Validity -/

theorem assertValidCoreTexWorkPolicy_reads {policy : CoreTexWorkPolicy} {u : Unit}
    (h : assertValidCoreTexWorkPolicy policy = .ok u) :
    ∃ c : CalibrationNumbers, policy.screenerPass.calibration.Reads c ∧ c.Valid ∧
      Spells policy.screenerPass.workUnitsBps workBpsDivisor := by
  unfold assertValidCoreTexWorkPolicy at h
  simp only [bind_eq_ok, refuseIf_eq_ok, not_not] at h
  obtain ⟨_, -, _, -, _, -, _, -, _, -, _, -, _, -, scale, hscale, minDelta, hminDelta,
    maxThreshold, hmaxThreshold, easing, heasing, floor, hfloor, penalty, hpenalty, _, hscaleEq,
    _, hminGe, _, hmaxGe, headroom, hheadroom, _, -, noise, hnoise, _, hnoiseGe, _, heasingLe, _,
    -, probe, hprobe, _, -, _, -, _, -, units, hunits, _, hunitsEq, -⟩ := h
  have hscaleReads := spells_of_toBigInt hscale
  have hfloorReads := spells_of_toBigInt hfloor
  refine ⟨⟨scale, minDelta, headroom, noise, easing, floor, probe, penalty, maxThreshold⟩, ?_, ?_,
    ?_⟩
  · exact ⟨hscaleReads, spells_of_toBigInt hminDelta, spells_of_toBigInt hheadroom,
      spells_of_toBigInt hnoise, spells_of_toBigInt heasing, hfloorReads,
      spells_of_toBigInt hprobe, spells_of_toBigInt hpenalty, spells_of_toBigInt hmaxThreshold⟩
  · exact
      { scoreScale := hscaleEq
        minDelta := Int.not_lt.mp hminGe
        maxThreshold := Int.not_lt.mp hmaxGe
        remainingHeadroomBps := (spells_of_toBigInt hheadroom).nonneg
        noiseFloorMultiplierBps := Int.not_lt.mp hnoiseGe
        plateauEasingMaxBps_nonneg := (spells_of_toBigInt heasing).nonneg
        plateauEasingMaxBps := Int.not_lt.mp heasingLe
        stateAdvanceFloorBps_nonneg := hfloorReads.nonneg
        antiGamingProbeMultiplierBps := (spells_of_toBigInt hprobe).nonneg
        maxAntiGamingPenaltyBps := (spells_of_toBigInt hpenalty).nonneg }
  · exact hunitsEq ▸ spells_of_toBigInt hunits

/-! ### Bounds -/

/-- What a non-negative input gives the formula. -/
structure ThresholdNumbers.Nonneg (v : ThresholdNumbers) : Prop where
  recentNoiseFloor : 0 ≤ v.recentNoiseFloor
  recentScreenerPasses : 0 ≤ v.recentScreenerPasses
  recentProbePassRate : 0 ≤ v.recentProbePassRate

theorem ComputeCoreTexScreenerThresholdInput.Reads.nonneg (hv : input.Reads v) : v.Nonneg :=
  ⟨hv.recentNoiseFloor.nonneg, hv.recentScreenerPasses.nonneg, hv.recentProbePassRate.nonneg⟩

theorem workBpsDivisor_pos : 0 < workBpsDivisor := by
  decide

theorem clamp_nonneg {value hi : Int} (hhi : 0 ≤ hi) : 0 ≤ clamp value 0 hi :=
  le_min (le_max_right _ _) hhi

theorem clamp_le_clamp {value value' lo hi : Int} (h : value ≤ value') :
    clamp value lo hi ≤ clamp value' lo hi :=
  min_le_min_right hi (max_le_max_right lo h)

namespace CalibrationNumbers.Valid

variable (hc : c.Valid)

include hc

theorem scoreScale_pos : 0 < c.scoreScale := by
  rw [hc.scoreScale]
  decide

theorem headroom_nonneg : 0 ≤ c.headroom v :=
  portion_nonneg (Int.sub_nonneg.mpr (min_le_right _ _)) hc.remainingHeadroomBps
    workBpsDivisor_pos.le

theorem rawThreshold_nonneg : 0 ≤ c.rawThreshold v := by
  have hminDelta := hc.minDelta
  have hraw : c.minDelta ≤ c.rawThreshold v := (le_max_left _ _).trans (le_max_left _ _)
  omega

theorem antiGamingPenaltyBps_nonneg : 0 ≤ c.antiGamingPenaltyBps v :=
  le_min hc.maxAntiGamingPenaltyBps (portion_nonneg (clamp_nonneg hc.scoreScale_pos.le)
    hc.antiGamingProbeMultiplierBps hc.scoreScale_pos.le)

/-- The threshold is at least its floor, under the ceiling. -/
theorem le_screenerThreshold :
    min (c.ceiling v) (max c.minDelta (c.stateAdvanceFloor v)) ≤ c.screenerThreshold v := by
  have hpenalty := hc.antiGamingPenaltyBps_nonneg (v := v)
  have hpenalized : c.rawThreshold v ≤ portion (c.rawThreshold v)
      (workBpsDivisor + c.antiGamingPenaltyBps v) workBpsDivisor :=
    le_portion workBpsDivisor_pos hc.rawThreshold_nonneg (by omega)
  have hraw : max c.minDelta (c.stateAdvanceFloor v) ≤ c.rawThreshold v := le_max_left _ _
  exact le_min ((min_le_right _ _).trans (hraw.trans hpenalized)) (min_le_left _ _)

theorem easingBps_le : c.easingBps v ≤ c.plateauEasingMaxBps := by
  rw [easingBps]
  split
  · exact min_le_left _ _
  · exact hc.plateauEasingMaxBps_nonneg

/-- The easing removes its largest portion of the headroom term at most, rounded up. -/
theorem headroom_sub_easedHeadroom_le : c.headroom v - c.easedHeadroom v ≤
    portionUp (c.headroom v) c.plateauEasingMaxBps workBpsDivisor := by
  have hheadroom := hc.headroom_nonneg (v := v)
  rw [easedHeadroom]
  split
  · exact sub_portion_le workBpsDivisor_pos hheadroom hc.easingBps_le
      hc.plateauEasingMaxBps
  · rw [Int.sub_self]
    exact portionUp_nonneg workBpsDivisor_pos hheadroom hc.plateauEasingMaxBps_nonneg

end CalibrationNumbers.Valid

theorem CalibrationNumbers.screenerThreshold_le_maxThreshold :
    c.screenerThreshold v ≤ c.maxThreshold := by
  refine (min_le_right _ _).trans ?_
  rw [ceiling]
  split
  · exact min_le_left _ _
  · exact le_rfl

theorem CalibrationNumbers.screenerThreshold_le_stateAdvanceThreshold
    (h : 0 < v.stateAdvanceThreshold) : c.screenerThreshold v ≤ v.stateAdvanceThreshold := by
  refine (min_le_right _ _).trans ?_
  rw [ceiling, if_pos h]
  exact min_le_right _ _

/-! ### Monotonicity -/

/-- The measurements `v'` ask for no less than `v`: more noise, more probe passes, more state
advances, a larger positive state-advance threshold, a lower baseline and fewer screener passes. -/
structure ThresholdNumbers.Eases (v v' : ThresholdNumbers) : Prop where
  baselineScore : v'.baselineScore ≤ v.baselineScore
  recentNoiseFloor : v.recentNoiseFloor ≤ v'.recentNoiseFloor
  recentScreenerPasses : v'.recentScreenerPasses ≤ v.recentScreenerPasses
  recentStateAdvances : v.recentStateAdvances ≤ v'.recentStateAdvances
  targetStateAdvances : v.targetStateAdvances = v'.targetStateAdvances
  recentProbePassRate : v.recentProbePassRate ≤ v'.recentProbePassRate
  stateAdvanceThreshold : v.stateAdvanceThreshold = v'.stateAdvanceThreshold ∨
    0 < v.stateAdvanceThreshold ∧ v.stateAdvanceThreshold ≤ v'.stateAdvanceThreshold

/-- The easing grows with the passes and shrinks with the advances. -/
theorem plateauEasingBps_mono {most target advances advances' passes passes' : Int}
    (hmost : 0 ≤ most) (htarget : 0 < target) (hadvances : advances ≤ advances')
    (hpasses : passes' ≤ passes) (hpasses' : 0 ≤ passes') :
    plateauEasingBps most target advances' passes' ≤
      plateauEasingBps most target advances passes := by
  have hsupported' : 0 ≤ min passes' (target - min advances' target) :=
    le_min hpasses' (Int.sub_nonneg.mpr (min_le_right _ _))
  have hsupported : min passes' (target - min advances' target) ≤
      min passes (target - min advances target) := by
    omega
  exact min_le_min_left most
    (portion_le_portion htarget le_rfl hmost hsupported' hsupported)

namespace CalibrationNumbers.Valid

variable {v' : ThresholdNumbers} (hc : c.Valid) (h : v.Eases v') (hv' : v'.Nonneg)

include hc h

theorem headroom_mono : c.headroom v ≤ c.headroom v' := by
  have hclamp : clamp v'.baselineScore 0 c.scoreScale ≤ clamp v.baselineScore 0 c.scoreScale :=
    clamp_le_clamp h.baselineScore
  refine portion_le_portion workBpsDivisor_pos ?_ ?_ hc.remainingHeadroomBps le_rfl
  · omega
  · exact Int.sub_nonneg.mpr (min_le_right _ _)

omit hc in
theorem stateAdvanceFloor_mono : c.stateAdvanceFloor v ≤ c.stateAdvanceFloor v' := by
  rcases h.stateAdvanceThreshold with heq | ⟨hpos, hle⟩
  · rw [stateAdvanceFloor, stateAdvanceFloor, heq]
  · have hpos' : v'.stateAdvanceThreshold > 0 := by omega
    by_cases hfloor : c.stateAdvanceFloorBps > 0
    · rw [stateAdvanceFloor, stateAdvanceFloor, if_pos ⟨hpos, hfloor⟩, if_pos ⟨hpos', hfloor⟩]
      exact portionUp_le_portionUp workBpsDivisor_pos hle hpos'.le hfloor.le le_rfl
    · rw [stateAdvanceFloor, stateAdvanceFloor, if_neg (fun hand => hfloor hand.2),
        if_neg (fun hand => hfloor hand.2)]

theorem antiGamingPenaltyBps_mono : c.antiGamingPenaltyBps v ≤ c.antiGamingPenaltyBps v' := by
  have hscale := hc.scoreScale_pos
  exact min_le_min_left _ (portion_le_portion hscale (clamp_le_clamp h.recentProbePassRate)
    (clamp_nonneg hscale.le) hc.antiGamingProbeMultiplierBps le_rfl)

omit hc in
theorem ceiling_mono : c.ceiling v ≤ c.ceiling v' := by
  rcases h.stateAdvanceThreshold with heq | ⟨hpos, hle⟩
  · rw [ceiling, ceiling, heq]
  · rw [ceiling, ceiling, if_pos hpos, if_pos (show v'.stateAdvanceThreshold > 0 by omega)]
    exact min_le_min_left _ hle

include hv'

theorem easedHeadroom_mono : c.easedHeadroom v ≤ c.easedHeadroom v' := by
  have hheadroom := hc.headroom_mono h
  by_cases htarget : v.targetStateAdvances > 0
  · have htarget' : v'.targetStateAdvances > 0 := h.targetStateAdvances ▸ htarget
    have heasing : c.easingBps v' ≤ c.easingBps v := by
      rw [easingBps, easingBps, if_pos htarget, if_pos htarget', h.targetStateAdvances]
      exact plateauEasingBps_mono hc.plateauEasingMaxBps_nonneg htarget' h.recentStateAdvances
        h.recentScreenerPasses hv'.recentScreenerPasses
    have hmost := hc.easingBps_le (v := v)
    have hdivisor := hc.plateauEasingMaxBps
    rw [easedHeadroom, easedHeadroom, if_pos htarget, if_pos htarget']
    exact portion_le_portion workBpsDivisor_pos hheadroom hc.headroom_nonneg (by omega) (by omega)
  · have htarget' : ¬ v'.targetStateAdvances > 0 := h.targetStateAdvances ▸ htarget
    rw [easedHeadroom, easedHeadroom, if_neg htarget, if_neg htarget']
    exact hheadroom

theorem rawThreshold_mono : c.rawThreshold v ≤ c.rawThreshold v' := by
  have hnoiseMultiplier : 0 ≤ c.noiseFloorMultiplierBps :=
    workBpsDivisor_pos.le.trans hc.noiseFloorMultiplierBps
  have hnoise : c.noiseDelta v ≤ c.noiseDelta v' :=
    portion_le_portion workBpsDivisor_pos h.recentNoiseFloor hv'.recentNoiseFloor
      hnoiseMultiplier le_rfl
  exact max_le_max (max_le_max_left _ (stateAdvanceFloor_mono h))
    (max_le_max (hc.easedHeadroom_mono h hv') hnoise)

/-- The threshold grows with the noise floor, the probe pass rate, the state advances and the
state-advance threshold, and shrinks with the baseline and the screener passes. -/
theorem screenerThreshold_mono : c.screenerThreshold v ≤ c.screenerThreshold v' := by
  have hpenalty := hc.antiGamingPenaltyBps_nonneg (v := v)
  have hpenalties := hc.antiGamingPenaltyBps_mono h
  have hdivisor := workBpsDivisor_pos
  exact min_le_min (portion_le_portion workBpsDivisor_pos (hc.rawThreshold_mono h hv')
    hc.rawThreshold_nonneg (by omega) (by omega)) (ceiling_mono h)

end CalibrationNumbers.Valid

end CoreTex
