import CoreTex.State.PatchApply

/-!
# CoreTex.Reducer.AcceptCore

The accept step both reducer lanes share (`reducer/accept-core.ts`): evaluate the
marginal gain, compare it with the threshold, apply the patch onto the current state and
translate its error code. Each lane has its own rejection codes.
-/

namespace CoreTex

open CoreTex.Lib

/-- Re-evaluates a patch on top of a state; a pure function. -/
abbrev MarginalEvaluator := CortexState → Patch → Int

/-- The codes a lane gives to the kernel's refusals. -/
structure AcceptStepCodes (C : Type) where
  notImprovement : C
  wrongParent : C
  reservedBit : C
  invalidTarget : C

/-- An accepted step. -/
structure AcceptStep where
  state : CortexState
  marginalGain : Int

/-- The lane's code for an error of the apply function. -/
def AcceptStepCodes.ofPatchError {C : Type} (codes : AcceptStepCodes C) : PatchErrorCode → C
  | .E01 => codes.wrongParent
  | .E04 => codes.reservedBit
  | .E05 => codes.notImprovement
  | .E02 => codes.invalidTarget
  | .E03 => codes.invalidTarget

def evaluateAndApplyOntoCurrent {C : Type} (current : CortexState) (patch : Patch)
    (marginalEvaluator : MarginalEvaluator) (threshold : Int)
    (strictImprovement policyAtomsMode : Bool) (codes : AcceptStepCodes C) :
    Except C AcceptStep := do
  let marginalGain := marginalEvaluator current patch
  let improves : Bool :=
    if strictImprovement then marginalGain > threshold else marginalGain ≥ threshold
  refuseIf (!improves) codes.notImprovement
  match applyPatchOntoCurrent current patch policyAtomsMode with
  | .error err => throw (codes.ofPatchError err.code)
  | .ok state => return { state, marginalGain }

/-- An accepted step applied the patch, and its gain is the evaluator's. -/
theorem evaluateAndApplyOntoCurrent_inv {C : Type} {current : CortexState} {patch : Patch}
    {marginalEvaluator : MarginalEvaluator} {threshold : Int}
    {strictImprovement policyAtomsMode : Bool} {codes : AcceptStepCodes C} {step : AcceptStep}
    (h : evaluateAndApplyOntoCurrent current patch marginalEvaluator threshold strictImprovement
      policyAtomsMode codes = .ok step) :
    applyPatchOntoCurrent current patch policyAtomsMode = .ok step.state ∧
      step.marginalGain = marginalEvaluator current patch := by
  unfold evaluateAndApplyOntoCurrent at h
  dsimp only at h
  rw [refuseIf_bind_eq_ok] at h
  obtain ⟨-, h⟩ := h
  cases happly : applyPatchOntoCurrent current patch policyAtomsMode with
  | error err =>
      rw [happly] at h
      exact absurd h throw_ne_ok
  | ok state =>
      rw [happly] at h
      dsimp only at h
      rw [pure_eq_ok] at h
      subst h
      exact ⟨rfl, rfl⟩

end CoreTex
