import CoreTex.State.PatchApply
import Mathlib.Data.List.Perm.Subperm

/-!
# CoreTex.State.PatchRun

The two apply functions agree, and what a run of accepted patches keeps.

`PatchEffect` says once what one accepted patch can do to a state, and everything about a
run is read off it: the header, the reserved words and the policy regions by induction on
the steps.
-/

namespace CoreTex

open CoreTex.Lib

variable {policyAtomsMode : Bool} {s t : CortexState} {p : Patch}

/-! ### One patch semantics -/

section Merkle

variable (keccak256 : Bytes → Digest)

/-- On a patch that names the state's root the two functions give the same result: they
make the same checks, and the two that stand in another order refuse alike. -/
theorem applyPatch_eq_applyPatchOntoCurrent
    (hroot : p.parentStateRoot = (merkleizeState keccak256 s).bytes) :
    applyPatch keccak256 s p policyAtomsMode = applyPatchOntoCurrent s p policyAtomsMode := by
  have hnot : ¬ p.parentStateRoot ≠ (merkleizeState keccak256 s).bytes := not_not.mpr hroot
  unfold applyPatch applyPatchOntoCurrent
  dsimp only
  rw [refuseIf_of_not hnot, ok_bind]
  by_cases hheader : (policyAtomsMode && patchTouchesHeader p) = true
  · by_cases hcanon : (policyAtomsMode && !policyWriteIsCanonicalForState s p) = true
    · rw [refuseIf_of hheader, refuseIf_of hcanon]
    · rw [refuseIf_of hheader, refuseIf_of_not hcanon]
      rfl
  · rw [refuseIf_of_not hheader]
    rfl

end Merkle

/-! ### What one patch does -/

/-- The positions a patch writes are its first indices. -/
theorem Patch.map_fst_writes (p : Patch) :
    p.writes.map Prod.fst = (p.indices.take p.wordCount.toNat).map Int.toNat := by
  rw [Patch.writes, Patch.cells, List.filterMap_map, List.map_filterMap]
  generalize p.wordCount.toNat = n
  induction n with
  | zero => rfl
  | succ n ih =>
      rw [List.range_succ, List.filterMap_append, ih, List.take_add_one, List.map_append]
      cases h : p.indices[n]? <;> simp [h]

theorem Patch.nodup_map_fst_writes {u : Unit}
    (htype : validatePatchType p.patchType p.indices = .ok u) :
    (p.writes.map Prod.fst).Nodup := by
  obtain ⟨hbounds, hnodup⟩ := validatePatchType_inv htype
  rw [p.map_fst_writes]
  refine List.Nodup.map_on ?_ (hnodup.sublist (List.take_sublist _ _))
  intro i hi j hj hij
  have := (hbounds i (List.mem_of_mem_take hi)).1
  have := (hbounds j (List.mem_of_mem_take hj)).1
  omega

/-- The words in which two states differ. -/
def changedWords (s t : CortexState) : List Nat :=
  (List.range Ranges.wordCount).filter fun i => s.word i ≠ t.word i

theorem mem_changedWords {i : Nat} :
    i ∈ changedWords s t ↔ i < Ranges.wordCount ∧ s.word i ≠ t.word i := by
  simp [changedWords]

/-- The words a `MIXED` patch has to change beside a policy word. -/
def IsCompanionWord (i : Nat) : Prop :=
  (Ranges.memoryIndexStart ≤ i ∧ i ≤ Ranges.memoryIndexEnd) ∨
    (Ranges.relationsStart ≤ i ∧ i ≤ Ranges.relationsEnd) ∨
      (Ranges.temporalStart ≤ i ∧ i ≤ Ranges.temporalEnd)

/-- What an accepted patch can do to a state. -/
structure PatchEffect (policyAtomsMode : Bool) (p : Patch) (s t : CortexState) : Prop where
  valid : StateValid policyAtomsMode t
  changed_mem : ∀ i ∈ changedWords s t, (i : Int) ∈ p.indices
  changed_length : (changedWords s t).length ≤ 4
  changed_pos : p.WellFormed → 1 ≤ (changedWords s t).length
  reserved : ∀ i, Ranges.reservedStart ≤ i → t.word i = s.word i
  header : policyAtomsMode = true → ∀ i ≤ Ranges.headerEnd, t.word i = s.word i
  policy : policyAtomsMode = true → ∀ i ∈ changedWords s t,
    Ranges.policyEvidenceStart ≤ i → i ≤ Ranges.policyAbstentionEnd →
      p.patchType = PatchType.policyUpdate ∨
        p.patchType = PatchType.mixed ∧ ∃ j ∈ changedWords s t, IsCompanionWord j

section Effect

variable (h : applyPatchOntoCurrent s p policyAtomsMode = .ok t)
include h

/-- A cell that has an index is written. -/
theorem word_of_mem_cells {idx w : Int} (hmem : (some idx, w) ∈ p.cells) :
    0 ≤ idx ∧ idx < (Ranges.reservedStart : Int) ∧ t.word idx.toNat = w := by
  obtain ⟨hadmits, rfl, -⟩ := applyPatchOntoCurrent_iff.mp h
  obtain ⟨u, htype⟩ := hadmits.type_ok
  obtain ⟨hlo, hhi⟩ := (validatePatchType_inv htype).1 idx (Patch.index_mem_of_mem_cells hmem)
  refine ⟨hlo, hhi, s.word_write_of_mem (Patch.nodup_map_fst_writes htype) ?_ ?_⟩
  · exact List.mem_filterMap.mpr ⟨_, hmem, rfl⟩
  · simp only [Ranges.reservedStart, Ranges.wordCount] at *
    omega

/-- A word that changed is the word of a cell. -/
theorem cell_of_word_ne {i : Nat} (hne : s.word i ≠ t.word i) :
    ∃ idx w, (some idx, w) ∈ p.cells ∧ idx = (i : Int) := by
  obtain ⟨-, hwrite, -⟩ := applyPatchOntoCurrent_iff.mp h
  by_cases hmem : i ∈ p.writes.map Prod.fst
  · obtain ⟨⟨j, w⟩, hw, rfl⟩ := List.mem_map.mp hmem
    obtain ⟨⟨idx?, w'⟩, hcell, heq⟩ := List.mem_filterMap.mp hw
    cases idx? with
    | none => exact absurd heq (by simp)
    | some idx =>
        simp only [Option.map_some, Option.some.injEq, Prod.mk.injEq] at heq
        obtain ⟨rfl, rfl⟩ := heq
        obtain ⟨hlo, -, -⟩ := word_of_mem_cells h hcell
        exact ⟨idx, w', hcell, (Int.toNat_of_nonneg hlo).symm⟩
  · rw [hwrite, s.word_write_of_not_mem hmem] at hne
    exact absurd rfl hne

/-- A cell whose word differs from the current one changes its word. -/
theorem mem_changedWords_of_cell {idx w : Int} (hmem : (some idx, w) ∈ p.cells)
    (hchange : cellChanges s (some idx, w) = true) : idx.toNat ∈ changedWords s t := by
  obtain ⟨hlo, hhi, hword⟩ := word_of_mem_cells h hmem
  rw [cellChanges, CortexState.wordAt, if_pos hlo, decide_eq_true_eq] at hchange
  rw [mem_changedWords, hword]
  refine ⟨?_, hchange⟩
  simp only [Ranges.reservedStart, Ranges.wordCount] at *
  omega

theorem length_changedWords_le : (changedWords s t).length ≤ 4 := by
  obtain ⟨hadmits, -, -⟩ := applyPatchOntoCurrent_iff.mp h
  have hsub : changedWords s t ⊆ p.writes.map Prod.fst := by
    intro i hi
    obtain ⟨idx, w, hcell, rfl⟩ := cell_of_word_ne h (mem_changedWords.mp hi).2
    exact List.mem_map.mpr ⟨(i, w), List.mem_filterMap.mpr ⟨_, hcell, rfl⟩, rfl⟩
  have hnodup : (changedWords s t).Nodup := List.nodup_range.filter _
  have hcount : p.wordCount.toNat ≤ 4 := by
    have := hadmits.wordCount_mem
    omega
  calc (changedWords s t).length
      ≤ (p.writes.map Prod.fst).length := (List.subperm_of_subset hnodup hsub).length_le
    _ = p.writes.length := List.length_map _
    _ ≤ p.cells.length := List.length_filterMap_le _ _
    _ = p.wordCount.toNat := by rw [Patch.cells, List.length_map, List.length_range]
    _ ≤ 4 := hcount

/-- A well-formed patch that is not a no-op changes a word. -/
theorem length_changedWords_pos (hwf : p.WellFormed) : 1 ≤ (changedWords s t).length := by
  obtain ⟨hadmits, -, -⟩ := applyPatchOntoCurrent_iff.mp h
  obtain ⟨⟨idx?, w⟩, hcell, hchange⟩ := List.any_eq_true.mp hadmits.changes
  have hsome := hcell
  rw [hwf.cells_eq] at hsome
  obtain ⟨c, -, heq⟩ := List.mem_map.mp hsome
  rw [Prod.mk.injEq] at heq
  obtain ⟨rfl, rfl⟩ := heq
  exact List.length_pos_of_mem (mem_changedWords_of_cell h hcell hchange)

/-- Under the policy grammar a changed policy word comes with the type or the companion
word it needs. -/
theorem policy_changedWords (hmode : policyAtomsMode = true) {i : Nat}
    (hi : i ∈ changedWords s t) (hlo : Ranges.policyEvidenceStart ≤ i)
    (hhi : i ≤ Ranges.policyAbstentionEnd) :
    p.patchType = PatchType.policyUpdate ∨
      p.patchType = PatchType.mixed ∧ ∃ j ∈ changedWords s t, IsCompanionWord j := by
  obtain ⟨hadmits, -, -⟩ := applyPatchOntoCurrent_iff.mp h
  obtain ⟨idx, w, hcell, rfl⟩ := cell_of_word_ne h (mem_changedWords.mp hi).2
  have htouches : (p.cells.any fun c => isPolicyIndex c.1) = true := by
    refine List.any_eq_true.mpr ⟨_, hcell, ?_⟩
    show inRange _ _ _ = true
    rw [inRange_eq_true]
    omega
  have hcanon := hadmits.canonical hmode
  unfold policyWriteIsCanonicalForState policyWriteIsCanonical at hcanon
  simp only [htouches, Bool.not_true, Bool.false_eq_true, if_false, Bool.false_or] at hcanon
  by_cases hpolicy : p.patchType = PatchType.policyUpdate
  · exact .inl hpolicy
  by_cases hmixed : p.patchType = PatchType.mixed
  · refine .inr ⟨hmixed, ?_⟩
    have hchanged : (p.cells.any fun c =>
        isPolicyMixedCompanionIndex c.1 && cellChanges s c) = true := by
      by_contra hnone
      simp [hmixed, hnone] at hcanon
    obtain ⟨⟨idx?, w'⟩, hcell', hboth⟩ := List.any_eq_true.mp hchanged
    rw [Bool.and_eq_true] at hboth
    obtain ⟨hcompanion, hchange⟩ := hboth
    cases idx? with
    | none => exact absurd hcompanion Bool.false_ne_true
    | some j =>
        refine ⟨_, mem_changedWords_of_cell h hcell' hchange, ?_⟩
        simp only [isPolicyMixedCompanionIndex, cellInRange, Bool.or_eq_true,
          inRange_eq_true] at hcompanion
        rw [IsCompanionWord]
        omega
  · simp [hpolicy, hmixed] at hcanon

/-- **One accepted patch.** -/
theorem applyPatchOntoCurrent_effect : PatchEffect policyAtomsMode p s t where
  valid := applyPatchOntoCurrent_valid h
  changed_mem i hi := by
    obtain ⟨idx, w, hcell, rfl⟩ := cell_of_word_ne h (mem_changedWords.mp hi).2
    exact Patch.index_mem_of_mem_cells hcell
  changed_length := length_changedWords_le h
  changed_pos := length_changedWords_pos h
  reserved i hi := by
    by_contra hne
    obtain ⟨idx, w, hcell, rfl⟩ := cell_of_word_ne h (Ne.symm hne)
    have := (word_of_mem_cells h hcell).2.1
    omega
  header hmode i hi := by
    by_contra hne
    obtain ⟨idx, w, hcell, rfl⟩ := cell_of_word_ne h (Ne.symm hne)
    obtain ⟨hadmits, -, -⟩ := applyPatchOntoCurrent_iff.mp h
    have htouches : patchTouchesHeader p = true := by
      refine List.any_eq_true.mpr ⟨_, hcell, ?_⟩
      show inRange _ _ _ = true
      rw [inRange_eq_true]
      simp only [Ranges.headerStart, Ranges.headerEnd] at *
      omega
    rw [hadmits.header_untouched hmode] at htouches
    exact absurd htouches (by decide)
  policy hmode i hi := policy_changedWords h hmode hi

end Effect

/-! ### Runs -/

section Run

variable (keccak256 : Bytes → Digest) (policyAtomsMode : Bool)

/-- One of the two functions accepts the patch and gives this state. -/
def Accepts (s : CortexState) (p : Patch) (t : CortexState) : Prop :=
  applyPatch keccak256 s p policyAtomsMode = .ok t ∨
    applyPatchOntoCurrent s p policyAtomsMode = .ok t

/-- A run of accepted patches: each step with the states before and after it. -/
inductive AcceptedRun (s₀ : CortexState) :
    List (CortexState × Patch × CortexState) → CortexState → Prop
  | start : AcceptedRun s₀ [] s₀
  | step {steps s p t} : AcceptedRun s₀ steps s → Accepts keccak256 policyAtomsMode s p t →
      AcceptedRun s₀ (steps ++ [(s, p, t)]) t

/-- What a run from `s₀` keeps. -/
structure RunKeeps (s₀ s : CortexState) : Prop where
  noReservedBits : hasNonZeroReservedBits s = false
  reserved : ∀ i, Ranges.reservedStart ≤ i → s.word i = s₀.word i
  header : policyAtomsMode = true → ∀ i ≤ Ranges.headerEnd, s.word i = s₀.word i
  policyReserved : policyAtomsMode = true → ∀ i, Ranges.policyReservedStart ≤ i →
    i ≤ Ranges.policyReservedEnd → s.word i = 0
  atoms : policyAtomsMode = true → ∀ fam k, k < (policyRegions fam).count →
    s.word ((policyRegions fam).start + k) ≠ 0 →
      (decodePolicyAtom fam k (s.word ((policyRegions fam).start + k))).isSome

variable {keccak256 policyAtomsMode} {s₀ : CortexState}

theorem Accepts.effect (h : Accepts keccak256 policyAtomsMode s p t) :
    PatchEffect policyAtomsMode p s t := by
  rcases h with h | h
  · have hroot : p.parentStateRoot = (merkleizeState keccak256 s).bytes := by
      unfold applyPatch at h
      dsimp only at h
      rw [refuseIf_bind_eq_ok, refuseIf_bind_eq_ok, not_not] at h
      exact h.2.1
    rw [applyPatch_eq_applyPatchOntoCurrent keccak256 hroot] at h
    exact applyPatchOntoCurrent_effect h
  · exact applyPatchOntoCurrent_effect h

/-- A valid state that has the header and the reserved words of `s₀`. -/
theorem RunKeeps.of_valid (hvalid : StateValid policyAtomsMode s)
    (hreserved : ∀ i, Ranges.reservedStart ≤ i → s.word i = s₀.word i)
    (hheader : policyAtomsMode = true → ∀ i ≤ Ranges.headerEnd, s.word i = s₀.word i) :
    RunKeeps policyAtomsMode s₀ s := by
  obtain ⟨hbits, hpolicy⟩ := (stateValid_iff policyAtomsMode s).mpr hvalid
  refine ⟨hbits, hreserved, hheader, fun hmode => ?_, fun hmode => ?_⟩
  · have h := (validatePolicyRegions_eq_none s).mp (hpolicy hmode)
    exact (policyReservedNonZeroWords_eq_zero s).mp h.2
  · intro fam k hk hne
    have h := (validatePolicyRegions_eq_none s).mp (hpolicy hmode)
    rcases (decodePolicyAtomRegion_failures s fam).mp (h.1 fam) k hk with hzero | hsome
    · exact absurd hzero hne
    · exact hsome

/-- Each step of a run has the effect of an accepted patch, and the run keeps what the
start had. -/
theorem AcceptedRun.keeps {steps : List (CortexState × Patch × CortexState)}
    (hvalid : StateValid policyAtomsMode s₀) (h : AcceptedRun keccak256 policyAtomsMode s₀ steps s) :
    RunKeeps policyAtomsMode s₀ s ∧
      ∀ step ∈ steps, PatchEffect policyAtomsMode step.2.1 step.1 step.2.2 := by
  induction h with
  | start => exact ⟨.of_valid hvalid (fun _ _ => rfl) (fun _ _ _ => rfl), by simp⟩
  | step hrun haccepts ih =>
      obtain ⟨hkeeps, hsteps⟩ := ih
      have heffect := haccepts.effect
      refine ⟨.of_valid heffect.valid ?_ ?_, ?_⟩
      · intro i hi
        rw [heffect.reserved i hi, hkeeps.reserved i hi]
      · intro hmode i hi
        rw [heffect.header hmode i hi, hkeeps.header hmode i hi]
      · intro step hstep
        rcases List.mem_append.mp hstep with hstep | hstep
        · exact hsteps step hstep
        · rw [List.mem_singleton.mp hstep]
          exact heffect

end Run

end CoreTex
