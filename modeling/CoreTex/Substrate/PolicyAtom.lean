import CoreTex.State.Types
import Mathlib.Data.Int.Bitwise

/-!
# CoreTex.Substrate.PolicyAtom

The typed policy-atom grammar of the reclaimed word ranges
(`substrate/retrieval-decoder.ts`): one word per atom, three regions, and a reserved
region that must be zero.

Decoding a region reads each of its words on its own, so a region has no failures
exactly when each of its words is empty or decodes (`decodePolicyAtomRegion_failures`).
-/

namespace CoreTex

open CoreTex.Lib

inductive PolicyAtomFamily
  | evidenceBundle | conflictLifecycle | abstention
  deriving DecidableEq, Repr

/-- The family's name as the source spells it. -/
def PolicyAtomFamily.text : PolicyAtomFamily → String
  | .evidenceBundle => "evidence_bundle"
  | .conflictLifecycle => "conflict_lifecycle"
  | .abstention => "abstention"

inductive PolicyAction
  | include_ | boost | suppress | bundle | abstain
  deriving DecidableEq, Repr

inductive PolicyScope
  | entity | owner | relationPath | temporalChain | conflictSet | aspect
  deriving DecidableEq, Repr

structure PolicyAtom where
  atomIndex : Nat
  family : PolicyAtomFamily
  selector : Int
  evidenceFeature : Int
  action : PolicyAction
  scope : PolicyScope
  targetSlot : Int
  budget : Int
  flags : Int
  validFromEpoch : Int
  expiryEpoch : Int
  deriving DecidableEq, Repr

/-- `VALID_SELECTOR`: relation path, conflict set, missing evidence, answer density. -/
def validSelector : List Int := [0x1, 0x2, 0x3, 0x4]

/-- `VALID_EVIDENCE_FEATURE`: the seven public feature codes. -/
def validEvidenceFeature : List Int := [0x1, 0x2, 0x3, 0x4, 0x5, 0x6, 0x7]

def policyTargetNone : Int := 0xffff

def policyAnchorSlotLimit : Int := 256

/-- `POLICY_ACTION_BY_BITS`. -/
def policyActionByBits (bits : Int) : Option PolicyAction :=
  if bits = 0x1 then some .include_
  else if bits = 0x2 then some .boost
  else if bits = 0x3 then some .suppress
  else if bits = 0x4 then some .bundle
  else if bits = 0x5 then some .abstain
  else none

/-- `POLICY_SCOPE_BY_BITS`. -/
def policyScopeByBits (bits : Int) : Option PolicyScope :=
  if bits = 0x1 then some .entity
  else if bits = 0x2 then some .owner
  else if bits = 0x3 then some .relationPath
  else if bits = 0x4 then some .temporalChain
  else if bits = 0x5 then some .conflictSet
  else if bits = 0x6 then some .aspect
  else none

structure PolicyRegionSpec where
  start : Nat
  count : Nat
  allowed : List PolicyAction

/-- `POLICY_REGIONS`. -/
def policyRegions : PolicyAtomFamily → PolicyRegionSpec
  | .evidenceBundle =>
      ⟨Ranges.policyEvidenceStart, Ranges.policyEvidenceEnd - Ranges.policyEvidenceStart + 1,
        [.include_, .boost, .suppress, .bundle]⟩
  | .conflictLifecycle =>
      ⟨Ranges.policyConflictStart, Ranges.policyConflictEnd - Ranges.policyConflictStart + 1,
        [.boost, .suppress]⟩
  | .abstention =>
      ⟨Ranges.policyAbstentionStart, Ranges.policyAbstentionEnd - Ranges.policyAbstentionStart + 1,
        [.abstain]⟩

/-- `(word >> shift) & mask`, the mask having `width` ones. -/
def field (word : Int) (shift width : Nat) : Int :=
  Int.land (word >>> shift) (2 ^ width - 1)

/-- One non-empty word of a region: the atom it packs, or none where the source counts a
failure. -/
def decodePolicyAtom (family : PolicyAtomFamily) (k : Nat) (w0 : Int) : Option PolicyAtom := do
  let selector := field w0 248 8
  let evidenceFeature := field w0 240 8
  let action? := policyActionByBits (field w0 236 4)
  let scope? := policyScopeByBits (field w0 232 4)
  let targetSlot := field w0 216 16
  let budget := field w0 200 16
  let flags := field w0 192 8
  let validFromEpoch := field w0 152 40
  let expiryEpoch := field w0 112 40
  guard (field w0 0 112 = 0)
  let action ← action?
  let scope ← scope?
  guard (action ∈ (policyRegions family).allowed)
  guard (selector ∈ validSelector ∧ evidenceFeature ∈ validEvidenceFeature)
  if action = .abstain then
    guard ¬(targetSlot ≠ policyTargetNone ∧ targetSlot ≥ policyAnchorSlotLimit)
  else
    guard ¬(targetSlot = policyTargetNone ∨ targetSlot ≥ policyAnchorSlotLimit)
  guard ¬(validFromEpoch > 0 ∧ expiryEpoch > 0 ∧ validFromEpoch > expiryEpoch)
  return { atomIndex := k, family, selector, evidenceFeature, action, scope, targetSlot, budget,
           flags, validFromEpoch, expiryEpoch }

/-- The atoms of a region and how many words were tried and failed. -/
structure PolicyAtomRegion where
  atoms : List PolicyAtom
  attempts : Nat
  failures : Nat
  deriving Repr

/-- The body of the loop over a region's words. -/
def decodePolicyAtomStep (state : CortexState) (family : PolicyAtomFamily)
    (out : PolicyAtomRegion) (k : Nat) : PolicyAtomRegion :=
  let w0 := state.word ((policyRegions family).start + k)
  if w0 = 0 then out
  else
    match decodePolicyAtom family k w0 with
    | none => { out with attempts := out.attempts + 1, failures := out.failures + 1 }
    | some atom => { out with attempts := out.attempts + 1, atoms := out.atoms ++ [atom] }

/-- Decode one region, one word per atom. -/
def decodePolicyAtomRegion (state : CortexState) (family : PolicyAtomFamily) : PolicyAtomRegion :=
  (List.range (policyRegions family).count).foldl (decodePolicyAtomStep state family) ⟨[], 0, 0⟩

/-- Count the non-zero words of the reserved region. -/
def policyReservedNonZeroWords (state : CortexState) : Nat :=
  ((List.range' Ranges.policyReservedStart
    (Ranges.policyReservedEnd - Ranges.policyReservedStart + 1)).filter
      fun w => state.word w ≠ 0).length

/-! ### A region fails word by word -/

/-- A word of a region is clean when it is empty or packs a valid atom. -/
def PolicyWordClean (family : PolicyAtomFamily) (k : Nat) (w : Int) : Prop :=
  w = 0 ∨ (decodePolicyAtom family k w).isSome

theorem decodePolicyAtomStep_failures (state : CortexState) (family : PolicyAtomFamily)
    (out : PolicyAtomRegion) (k : Nat) :
    (decodePolicyAtomStep state family out k).failures = 0 ↔
      out.failures = 0 ∧ PolicyWordClean family k (state.word ((policyRegions family).start + k)) := by
  unfold decodePolicyAtomStep PolicyWordClean
  dsimp only
  split
  next h => simp [h]
  next h =>
    cases hd : decodePolicyAtom family k (state.word ((policyRegions family).start + k)) with
    | none => simp [h]
    | some atom => simp

/-- A region decodes without failure exactly when each of its words is clean. -/
theorem decodePolicyAtomRegion_failures (state : CortexState) (family : PolicyAtomFamily) :
    (decodePolicyAtomRegion state family).failures = 0 ↔
      ∀ k < (policyRegions family).count,
        PolicyWordClean family k (state.word ((policyRegions family).start + k)) := by
  have hgo : ∀ (ks : List Nat) (out : PolicyAtomRegion),
      (ks.foldl (decodePolicyAtomStep state family) out).failures = 0 ↔
        out.failures = 0 ∧ ∀ k ∈ ks,
          PolicyWordClean family k (state.word ((policyRegions family).start + k)) := by
    intro ks
    induction ks with
    | nil => simp
    | cons k ks ih =>
        intro out
        rw [List.foldl_cons, ih, decodePolicyAtomStep_failures, List.forall_mem_cons, and_assoc]
  rw [decodePolicyAtomRegion, hgo]
  simp

theorem policyReservedNonZeroWords_eq_zero (state : CortexState) :
    policyReservedNonZeroWords state = 0 ↔
      ∀ w, Ranges.policyReservedStart ≤ w → w ≤ Ranges.policyReservedEnd → state.word w = 0 := by
  rw [policyReservedNonZeroWords, List.length_eq_zero_iff, List.filter_eq_nil_iff]
  simp only [List.mem_range'_1, ne_eq, decide_eq_true_eq, not_not, Ranges.policyReservedStart,
    Ranges.policyReservedEnd]
  constructor
  · intro h w hlo hhi
    exact h w ⟨hlo, by omega⟩
  · intro h w hw
    exact h w hw.1 (by omega)

end CoreTex
