import CoreTex.Substrate.PolicyAtom

/-!
# CoreTex.State.Validate

Reserved-bit and policy-region enforcement (`state/validate.ts`).

Both checks look at one word at a time. `WordValid` is the condition on a single word,
and `stateValid_iff` says that a state passes the two checks exactly when each of its
words is valid; so a write can only break a state at the words it touches.
-/

namespace CoreTex

open CoreTex.Lib

/-! ### Reserved masks -/

/-- `UINT256_MAX`. -/
def uint256Max : Int := 2 ^ 256 - 1

/-- A mask covering bits `hi` down to `lo`. -/
def flagsMask (hiInclusive loInclusive : Nat) : Int :=
  if hiInclusive < loInclusive then 0
  else (2 ^ (hiInclusive - loInclusive + 1) - 1) * 2 ^ loInclusive

def headerReservedMask (wordIdx : Nat) : Int :=
  match wordIdx with
  | 0 => Int.lor (2 ^ 192 - 1) (flagsMask 207 193)
  | 1 => 2 ^ 128 - 1
  | 2 | 3 | 4 | 5 | 6 | 7 => 0
  | 8 => 2 ^ 64 - 1
  | 9 | 10 => 0
  | _ => uint256Max

/-- The bits of word `wordIdx` that must be zero. The memory-index, retrieval-key,
relation and codebook ranges reserve none: their slot masks are all zero. -/
def reservedMask (wordIdx : Nat) : Int :=
  if wordIdx ≥ Ranges.reservedStart ∧ wordIdx ≤ Ranges.reservedEnd then uint256Max
  else if wordIdx ≥ Ranges.headerStart ∧ wordIdx ≤ Ranges.headerEnd then headerReservedMask wordIdx
  else if wordIdx ≥ Ranges.memoryIndexStart ∧ wordIdx ≤ Ranges.memoryIndexEnd then 0
  else if wordIdx ≥ Ranges.retrievalKeysStart ∧ wordIdx ≤ Ranges.retrievalKeysEnd then 0
  else if wordIdx ≥ Ranges.relationsStart ∧ wordIdx ≤ Ranges.relationsEnd then 0
  else if wordIdx ≥ Ranges.temporalStart ∧ wordIdx ≤ Ranges.temporalEnd then 2 ^ 152 - 1
  else if wordIdx ≥ Ranges.codebookStart ∧ wordIdx ≤ Ranges.codebookEnd then 0
  else 0

/-- Does word `i` set a bit its mask reserves? -/
def setsReservedBit (i : Nat) (w : Int) : Bool :=
  reservedMask i ≠ 0 && Int.land w (reservedMask i) ≠ 0

/-- True if any reserved bit in the state is non-zero. -/
def hasNonZeroReservedBits (state : CortexState) : Bool :=
  (List.range Ranges.wordCount).any fun i => setsReservedBit i (state.word i)

/-! ### Policy regions -/

/-- The families in the order the validator visits them. -/
def policyFamilies : List PolicyAtomFamily := [.evidenceBundle, .conflictLifecycle, .abstention]

/-- The first violation of the policy grammar, or none when the regions are clean. -/
def validatePolicyRegions (state : CortexState) : Option PatchError :=
  let invalid := policyFamilies.findSome? fun fam =>
    let failures := (decodePolicyAtomRegion state fam).failures
    let text := fam.text
    if failures > 0 then
      some ⟨.E02, s!"WRONG_TYPE_FIELD: {failures} invalid PolicyAtom(s) in {text} region"⟩
    else none
  match invalid with
  | some err => some err
  | none =>
    let reservedNonZero := policyReservedNonZeroWords state
    if reservedNonZero > 0 then
      some ⟨.E04, s!"RESERVED_BIT_SET: {reservedNonZero} non-zero word(s) in reserved r5 policy region (896–991)"⟩
    else none

/-! ### Word by word -/

/-- The policy grammar at word `i`: clean where `i` lies in an atom region, zero where it
lies in the reserved region. -/
def PolicyWordValid (i : Nat) (w : Int) : Prop :=
  (∀ fam k, k < (policyRegions fam).count → i = (policyRegions fam).start + k →
    PolicyWordClean fam k w) ∧
  (Ranges.policyReservedStart ≤ i → i ≤ Ranges.policyReservedEnd → w = 0)

/-- What the two state checks ask of word `i`. -/
def WordValid (policyAtomsMode : Bool) (i : Nat) (w : Int) : Prop :=
  setsReservedBit i w = false ∧ (policyAtomsMode = true → PolicyWordValid i w)

theorem hasNonZeroReservedBits_eq_false (state : CortexState) :
    hasNonZeroReservedBits state = false ↔
      ∀ i < Ranges.wordCount, setsReservedBit i (state.word i) = false := by
  simp [hasNonZeroReservedBits]

theorem validatePolicyRegions_eq_none (state : CortexState) :
    validatePolicyRegions state = none ↔
      (∀ fam, (decodePolicyAtomRegion state fam).failures = 0) ∧
        policyReservedNonZeroWords state = 0 := by
  have hall : ∀ P : PolicyAtomFamily → Prop,
      (∀ fam, P fam) ↔ P .evidenceBundle ∧ P .conflictLifecycle ∧ P .abstention := fun P =>
    ⟨fun h => ⟨h _, h _, h _⟩, fun h fam => by cases fam <;> simp [h]⟩
  rw [hall]
  unfold validatePolicyRegions policyFamilies
  dsimp only [List.findSome?_cons, List.findSome?_nil]
  by_cases he : (decodePolicyAtomRegion state .evidenceBundle).failures = 0
  · by_cases hc : (decodePolicyAtomRegion state .conflictLifecycle).failures = 0
    · by_cases ha : (decodePolicyAtomRegion state .abstention).failures = 0
      · simp [he, hc, ha]
      · simp [he, hc, ha, Nat.pos_of_ne_zero ha]
    · simp [he, hc, Nat.pos_of_ne_zero hc]
  · simp [he, Nat.pos_of_ne_zero he]

/-- The policy regions are clean exactly when each word of the state is. -/
theorem validatePolicyRegions_iff (state : CortexState) :
    validatePolicyRegions state = none ↔
      ∀ i < Ranges.wordCount, PolicyWordValid i (state.word i) := by
  rw [validatePolicyRegions_eq_none, policyReservedNonZeroWords_eq_zero]
  simp only [decodePolicyAtomRegion_failures]
  constructor
  · rintro ⟨hclean, hzero⟩ i _
    refine ⟨?_, hzero i⟩
    rintro fam k hk rfl
    exact hclean fam k hk
  · intro h
    have hbound : ∀ fam, (policyRegions fam).start + (policyRegions fam).count ≤ Ranges.wordCount := by
      intro fam
      cases fam <;> decide
    refine ⟨fun fam k hk => (h _ ?_).1 fam k hk rfl, fun w hlo hhi => (h w ?_).2 hlo hhi⟩
    · exact Nat.lt_of_lt_of_le (Nat.add_lt_add_left hk _) (hbound fam)
    · exact Nat.lt_of_le_of_lt hhi (by decide)

/-- **A state is valid word by word.** -/
theorem stateValid_iff (policyAtomsMode : Bool) (state : CortexState) :
    (hasNonZeroReservedBits state = false ∧
        (policyAtomsMode = true → validatePolicyRegions state = none)) ↔
      ∀ i < Ranges.wordCount, WordValid policyAtomsMode i (state.word i) := by
  rw [hasNonZeroReservedBits_eq_false, validatePolicyRegions_iff]
  constructor
  · rintro ⟨hbits, hpolicy⟩ i hi
    exact ⟨hbits i hi, fun hm => hpolicy hm i hi⟩
  · intro h
    exact ⟨fun i hi => (h i hi).1, fun hm i hi => (h i hi).2 hm⟩

end CoreTex
