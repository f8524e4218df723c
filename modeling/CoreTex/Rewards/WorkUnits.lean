import CoreTex.Lib.Except
import CoreTex.State.Types

/-!
# CoreTex.Rewards.WorkUnits

The work-credit policy (`rewards/work-units.ts`): its validation and the work units of an
outcome. Only the policy fields that the modelled functions read are kept.

`computeCoreTexWorkUnitsBps_ok` is what the live lane relies on: under a valid policy a
state advance with a non-negative count always has its units.
-/

namespace CoreTex

open CoreTex.Lib

/-! ### Numbers as they are written -/

/-- `string | bigint | number`. A number is an integer or one that is not (a fraction,
infinite or not a number). -/
inductive Numeric
  | string (s : String)
  | bigint (n : Int)
  | number (n : Int)
  | nonInteger
  deriving DecidableEq, Repr

/-- `Number.isSafeInteger`. -/
def isSafeInteger (n : Int) : Bool :=
  -(2 ^ 53 - 1) ≤ n && n ≤ 2 ^ 53 - 1

/-- `/^(0|[1-9][0-9]*)$/`. -/
def isDecimalString (s : String) : Bool :=
  match s.toList with
  | [] => false
  | c :: cs => (c = '0' && cs.isEmpty) || (c ≠ '0' && (c :: cs).all Char.isDigit)

/-- `BigInt(value)` of a decimal string. -/
def decimalValue (s : String) : Int :=
  ((s.toList.foldl (fun acc c => acc * 10 + (c.toNat - 48)) 0 : Nat) : Int)

/-- The non-negative integer a value spells. -/
def toBigInt (value : Numeric) (label : String) : Except JsError Int :=
  match value with
  | .bigint n =>
      if n < 0 then .error (rangeError s!"{label} must be non-negative") else .ok n
  | .number n =>
      if !isSafeInteger n || n < 0 then
        .error (rangeError s!"{label} must be a non-negative safe integer")
      else .ok n
  | .nonInteger => .error (rangeError s!"{label} must be a non-negative safe integer")
  | .string s =>
      if !isDecimalString s then
        .error (rangeError s!"{label} must be a non-negative decimal string")
      else .ok (decimalValue s)

/-- The label only appears in the error. -/
theorem toBigInt_label {value : Numeric} {label : String} {n : Int}
    (h : toBigInt value label = .ok n) (label' : String) : toBigInt value label' = .ok n := by
  unfold toBigInt at h ⊢
  cases value with
  | string s =>
      dsimp only at h ⊢
      split at h
      next => exact nomatch h
      next hs => rw [if_neg hs, h]
  | bigint m =>
      dsimp only at h ⊢
      split at h
      next => exact nomatch h
      next hm => rw [if_neg hm, h]
  | number m =>
      dsimp only at h ⊢
      split at h
      next => exact nomatch h
      next hm => rw [if_neg hm, h]
  | nonInteger => exact nomatch h

/-! ### The policy -/

structure StateAdvanceWorkTier where
  minQualifiedScreenerPassesSinceLastStateAdvance : Numeric
  workUnitsBps : Numeric

structure ScreenerCalibration where
  scoreScalePpm : Numeric
  minDeltaPpm : Numeric
  remainingHeadroomBps : Numeric
  noiseFloorMultiplierBps : Numeric
  plateauEasingMaxBps : Numeric
  stateAdvanceThresholdFloorBps : Option Numeric
  antiGamingProbeMultiplierBps : Numeric
  maxAntiGamingPenaltyBps : Numeric
  maxThresholdPpm : Numeric

structure ScreenerPassPolicy where
  outcome : Int
  minLocalModelDeltaPpm : Numeric
  maxRelevantNearCollisionPpm : Numeric
  workUnitsBps : Numeric
  calibration : ScreenerCalibration

structure StateAdvancePolicy where
  outcome : Int
  minDeterministicDeltaPpm : Numeric
  minLocalModelDeltaPpm : Numeric
  requireLiveStateAdvance : Bool
  tiers : List StateAdvanceWorkTier

structure CoreTexWorkPolicy where
  name : String
  version : Int
  rulesVersion : Int
  lane : Int
  bpsDivisor : Numeric
  screenerPass : ScreenerPassPolicy
  stateAdvance : StateAdvancePolicy

def workBpsDivisor : Int := 10000
def laneCoretex : Int := 2
def outcomeCoretexScreenerPass : Int := 1
def outcomeCoretexStateAdvance : Int := 2
def cortexRulesVersion : Int := 0xC0

/-- `DEFAULT_CORETEX_WORK_POLICY`. -/
def defaultCoretexWorkPolicy : CoreTexWorkPolicy where
  name := "botcoin-coretex-work-policy"
  version := 3
  rulesVersion := cortexRulesVersion
  lane := laneCoretex
  bpsDivisor := .string "10000"
  screenerPass :=
    { outcome := outcomeCoretexScreenerPass
      minLocalModelDeltaPpm := .string "0"
      maxRelevantNearCollisionPpm := .string "250000"
      workUnitsBps := .string "10000"
      calibration :=
        { scoreScalePpm := .string "1000000"
          minDeltaPpm := .string "50"
          remainingHeadroomBps := .string "5"
          noiseFloorMultiplierBps := .string "20000"
          plateauEasingMaxBps := .string "5000"
          stateAdvanceThresholdFloorBps := some (.string "5000")
          antiGamingProbeMultiplierBps := .string "20000"
          maxAntiGamingPenaltyBps := .string "50000"
          maxThresholdPpm := .string "150000" } }
  stateAdvance :=
    { outcome := outcomeCoretexStateAdvance
      minDeterministicDeltaPpm := .string "1"
      minLocalModelDeltaPpm := .string "0"
      requireLiveStateAdvance := true
      tiers :=
        [⟨.string "0", .string "30000"⟩, ⟨.string "25", .string "40000"⟩,
         ⟨.string "100", .string "60000"⟩, ⟨.string "250", .string "90000"⟩,
         ⟨.string "500", .string "120000"⟩] }

/-- The tier loop of the validation, from tier `i` on. -/
def assertValidTiers : Nat → Int → Int → List StateAdvanceWorkTier → Except JsError Unit
  | _, _, _, [] => pure ()
  | i, prevMin, prevBps, tier :: rest => do
      let min ← toBigInt tier.minQualifiedScreenerPassesSinceLastStateAdvance
        s!"stateAdvance.tiers[{i}].minQualifiedScreenerPassesSinceLastStateAdvance"
      let bps ← toBigInt tier.workUnitsBps s!"stateAdvance.tiers[{i}].workUnitsBps"
      refuseIf (min ≤ prevMin)
        (rangeError "stateAdvance.tiers must have strictly increasing min counts")
      refuseIf (bps < 3 * workBpsDivisor) (rangeError "state advance must be at least 3x")
      refuseIf (bps < prevBps) (rangeError "stateAdvance.tiers bps must be nondecreasing")
      assertValidTiers (i + 1) min bps rest

def assertValidCoreTexWorkPolicy (policy : CoreTexWorkPolicy) : Except JsError Unit := do
  refuseIf (policy.name.length = 0) (rangeError "policy.name is required")
  refuseIf (policy.version ≤ 0) (rangeError "policy.version must be positive")
  refuseIf (policy.rulesVersion ≠ cortexRulesVersion)
    (rangeError "policy.rulesVersion must be 0xC0")
  refuseIf (policy.lane ≠ laneCoretex) (rangeError "policy.lane must be CoreTex")
  let bpsDivisor ← toBigInt policy.bpsDivisor "bpsDivisor"
  refuseIf (bpsDivisor ≠ workBpsDivisor) (rangeError "policy.bpsDivisor must be 10000")
  refuseIf (policy.screenerPass.outcome ≠ outcomeCoretexScreenerPass)
    (rangeError "policy.screenerPass.outcome must be 1")
  let calibration := policy.screenerPass.calibration
  let scoreScale ← toBigInt calibration.scoreScalePpm "screenerPass.calibration.scoreScalePpm"
  let minDelta ← toBigInt calibration.minDeltaPpm "screenerPass.calibration.minDeltaPpm"
  let maxThreshold ← toBigInt calibration.maxThresholdPpm
    "screenerPass.calibration.maxThresholdPpm"
  let plateauEasingMaxBps ← toBigInt calibration.plateauEasingMaxBps
    "screenerPass.calibration.plateauEasingMaxBps"
  let stateAdvanceThresholdFloorBps ← toBigInt
    (calibration.stateAdvanceThresholdFloorBps.getD (.bigint 0))
    "screenerPass.calibration.stateAdvanceThresholdFloorBps"
  let maxAntiGamingPenaltyBps ← toBigInt calibration.maxAntiGamingPenaltyBps
    "screenerPass.calibration.maxAntiGamingPenaltyBps"
  refuseIf (scoreScale ≠ 1000000) (rangeError "scoreScalePpm must be 1000000")
  refuseIf (minDelta < 10) (rangeError "screener minimum delta is too low")
  refuseIf (maxThreshold < minDelta) (rangeError "screener max threshold must be >= min delta")
  let remainingHeadroomBps ← toBigInt calibration.remainingHeadroomBps
    "screenerPass.calibration.remainingHeadroomBps"
  refuseIf (remainingHeadroomBps = 0) (rangeError "remainingHeadroomBps must be positive")
  let noiseFloorMultiplierBps ← toBigInt calibration.noiseFloorMultiplierBps
    "screenerPass.calibration.noiseFloorMultiplierBps"
  refuseIf (noiseFloorMultiplierBps < workBpsDivisor)
    (rangeError "noiseFloorMultiplierBps must be at least 1x")
  refuseIf (plateauEasingMaxBps > workBpsDivisor)
    (rangeError "plateauEasingMaxBps must be <= 10000")
  refuseIf (stateAdvanceThresholdFloorBps > workBpsDivisor)
    (rangeError "stateAdvanceThresholdFloorBps must be <= 10000")
  let antiGamingProbeMultiplierBps ← toBigInt calibration.antiGamingProbeMultiplierBps
    "screenerPass.calibration.antiGamingProbeMultiplierBps"
  refuseIf (antiGamingProbeMultiplierBps = 0)
    (rangeError "antiGamingProbeMultiplierBps must be positive")
  refuseIf (maxAntiGamingPenaltyBps > 10 * workBpsDivisor)
    (rangeError "maxAntiGamingPenaltyBps must be <= 100000")
  refuseIf (policy.stateAdvance.outcome ≠ outcomeCoretexStateAdvance)
    (rangeError "policy.stateAdvance.outcome must be 2")
  let screenerBps ← toBigInt policy.screenerPass.workUnitsBps "screenerPass.workUnitsBps"
  refuseIf (screenerBps ≠ workBpsDivisor) (rangeError "screener pass must stay exactly 1x")
  match policy.stateAdvance.tiers with
  | [] => throw (rangeError "stateAdvance.tiers must not be empty")
  | first :: rest =>
    assertValidTiers 0 (-1) 0 (first :: rest)
    let firstMin ← toBigInt first.minQualifiedScreenerPassesSinceLastStateAdvance
      "stateAdvance.tiers[0].min"
    refuseIf (firstMin ≠ 0) (rangeError "first stateAdvance tier must start at 0")

/-! ### Work units -/

/-- The selection loop over the tiers: the last tier whose minimum the count reaches. -/
def selectTier (count : Int) : Nat → Int → List StateAdvanceWorkTier → Except JsError Int
  | _, selected, [] => pure selected
  | i, selected, tier :: rest => do
      let min ← toBigInt tier.minQualifiedScreenerPassesSinceLastStateAdvance
        s!"stateAdvance.tiers[{i}].minQualifiedScreenerPassesSinceLastStateAdvance"
      if count ≥ min then
        let bps ← toBigInt tier.workUnitsBps s!"stateAdvance.tiers[{i}].workUnitsBps"
        selectTier count (i + 1) bps rest
      else selectTier count (i + 1) selected rest

def computeCoreTexWorkUnitsBps (outcome : Int)
    (qualifiedScreenerPassesSinceLastStateAdvance : Option Numeric)
    (policy : Option CoreTexWorkPolicy) : Except JsError Int := do
  let policy := policy.getD defaultCoretexWorkPolicy
  assertValidCoreTexWorkPolicy policy
  if outcome = policy.screenerPass.outcome then
    toBigInt policy.screenerPass.workUnitsBps "screenerPass.workUnitsBps"
  else
    refuseIf (outcome ≠ policy.stateAdvance.outcome)
      (rangeError s!"unknown CoreTex outcome {outcome}")
    let count ← toBigInt (qualifiedScreenerPassesSinceLastStateAdvance.getD (.bigint 0))
      "qualifiedScreenerPassesSinceLastStateAdvance"
    match policy.stateAdvance.tiers with
    | [] => throw (typeError "Cannot read properties of undefined (reading 'workUnitsBps')")
    | first :: rest =>
      let selected ← toBigInt first.workUnitsBps "stateAdvance.tiers[0].workUnitsBps"
      selectTier count 0 selected (first :: rest)

/-! ### A valid policy always pays a state advance -/

/-- Each tier of a validated list spells its two numbers. -/
theorem assertValidTiers_inv {i : Nat} {prevMin prevBps : Int} {tiers : List StateAdvanceWorkTier}
    {u : Unit} (h : assertValidTiers i prevMin prevBps tiers = .ok u) :
    ∀ tier ∈ tiers, ∀ label,
      (∃ min, toBigInt tier.minQualifiedScreenerPassesSinceLastStateAdvance label = .ok min) ∧
        ∃ bps, toBigInt tier.workUnitsBps label = .ok bps := by
  induction tiers generalizing i prevMin prevBps with
  | nil => exact fun _ h => absurd h List.not_mem_nil
  | cons tier rest ih =>
      rw [assertValidTiers, bind_eq_ok] at h
      obtain ⟨min, hmin, h⟩ := h
      rw [bind_eq_ok] at h
      obtain ⟨bps, hbps, h⟩ := h
      rw [refuseIf_bind_eq_ok, refuseIf_bind_eq_ok, refuseIf_bind_eq_ok] at h
      obtain ⟨-, -, -, h⟩ := h
      refine List.forall_mem_cons.mpr ⟨fun label => ⟨?_, ?_⟩, ih h⟩
      · exact ⟨min, toBigInt_label hmin label⟩
      · exact ⟨bps, toBigInt_label hbps label⟩

theorem selectTier_ok (count : Int) {tiers : List StateAdvanceWorkTier}
    (h : ∀ tier ∈ tiers, ∀ label,
      (∃ min, toBigInt tier.minQualifiedScreenerPassesSinceLastStateAdvance label = .ok min) ∧
        ∃ bps, toBigInt tier.workUnitsBps label = .ok bps) (i : Nat) (selected : Int) :
    ∃ bps, selectTier count i selected tiers = .ok bps := by
  induction tiers generalizing i selected with
  | nil => exact ⟨selected, rfl⟩
  | cons tier rest ih =>
      rw [List.forall_mem_cons] at h
      obtain ⟨min, hmin⟩ := (h.1 _).1
      obtain ⟨bps, hbps⟩ := (h.1 _).2
      rw [selectTier, hmin, ok_bind]
      by_cases hcount : count ≥ min
      · rw [if_pos hcount, hbps, ok_bind]
        exact ih h.2 (i + 1) bps
      · rw [if_neg hcount]
        exact ih h.2 (i + 1) selected

/-- What the live lane uses of a valid policy: the outcomes and readable tiers. -/
theorem assertValidCoreTexWorkPolicy_inv {policy : CoreTexWorkPolicy} {u : Unit}
    (h : assertValidCoreTexWorkPolicy policy = .ok u) :
    policy.screenerPass.outcome = outcomeCoretexScreenerPass ∧
      policy.stateAdvance.outcome = outcomeCoretexStateAdvance ∧
      policy.stateAdvance.tiers ≠ [] ∧
      ∃ u, assertValidTiers 0 (-1) 0 policy.stateAdvance.tiers = .ok u := by
  unfold assertValidCoreTexWorkPolicy at h
  simp only [bind_eq_ok, refuseIf_eq_ok, not_not] at h
  obtain ⟨_, -, _, -, _, -, _, -, _, -, _, -, _, hscreener, _, -, _, -, _, -, _, -, _, -, _, -,
    _, -, _, -, _, -, _, -, _, -, _, -, _, -, _, -, _, -, _, -, _, -, _, -, _, hadvance, _, -, _,
    -, h⟩ := h
  cases htiers : policy.stateAdvance.tiers with
  | nil =>
      rw [htiers] at h
      exact absurd h throw_ne_ok
  | cons first rest =>
      rw [htiers] at h
      simp only [bind_eq_ok] at h
      obtain ⟨u, hu, -⟩ := h
      exact ⟨hscreener, hadvance, List.cons_ne_nil _ _, u, hu⟩

/-- **A valid policy pays every state advance** with a non-negative count. -/
theorem computeCoreTexWorkUnitsBps_ok {policy : Option CoreTexWorkPolicy} {u : Unit}
    (h : assertValidCoreTexWorkPolicy (policy.getD defaultCoretexWorkPolicy) = .ok u) {count : Int}
    (hcount : 0 ≤ count) :
    ∃ bps, computeCoreTexWorkUnitsBps outcomeCoretexStateAdvance (some (.bigint count)) policy =
      .ok bps := by
  obtain ⟨hscreener, hadvance, hne, u', hu'⟩ := assertValidCoreTexWorkPolicy_inv h
  have hread := assertValidTiers_inv hu'
  unfold computeCoreTexWorkUnitsBps
  dsimp only
  rw [h, ok_bind, hscreener, if_neg (by decide), hadvance, refuseIf_of_not (by decide), ok_bind]
  have hread_count : ∀ label, toBigInt (.bigint count) label = .ok count := fun label => by
    rw [toBigInt, if_neg (Int.not_lt.mpr hcount)]
  rw [Option.getD_some, hread_count, ok_bind]
  cases htiers : (policy.getD defaultCoretexWorkPolicy).stateAdvance.tiers with
  | nil => exact absurd htiers hne
  | cons first rest =>
      rw [htiers] at hread
      obtain ⟨bps, hbps⟩ := (hread first List.mem_cons_self "stateAdvance.tiers[0].workUnitsBps").2
      dsimp only
      rw [hbps, ok_bind]
      exact selectTier_ok count hread 0 bps

/-- The default policy is valid. -/
theorem defaultCoretexWorkPolicy_valid :
    assertValidCoreTexWorkPolicy defaultCoretexWorkPolicy = .ok () := by
  decide +kernel

end CoreTex
