import CoreTex.State.Patch

/-!
# CoreTex.State.PatchApply

What applying a patch does and when it succeeds.

`PatchAdmits` collects the checks made before any word is written; each of them reads the
patch and the words it targets, nothing else (`PatchAdmits.congr`). Applying a patch
succeeds exactly when it is admitted and the written state is valid word by word
(`applyPatchOntoCurrent_iff`), and over a valid state that is a condition on the patch's
own words alone (`applyPatchOntoCurrent_of_valid`).
-/

namespace CoreTex

open CoreTex.Lib

/-! ### The words a patch writes -/

/-- The word writes of a patch; an `undefined` index writes none. -/
def Patch.writes (p : Patch) : List (Nat × Int) :=
  p.cells.filterMap fun c => c.1.map fun idx => (idx.toNat, c.2)

theorem checkIndices_inv {seen indices : List Int} {u : Unit}
    (h : checkIndices seen indices = .ok u) :
    (∀ idx ∈ indices, 0 ≤ idx ∧ idx < (Ranges.reservedStart : Int)) ∧ indices.Nodup ∧
      ∀ idx ∈ indices, idx ∉ seen := by
  induction indices generalizing seen with
  | nil => simp
  | cons idx rest ih =>
      rw [checkIndices] at h
      by_cases hrange : idx < 0 ∨ idx ≥ (Ranges.wordCount : Int)
      · rw [if_pos hrange] at h
        exact absurd h throw_ne_ok
      rw [if_neg hrange] at h
      by_cases hres : inRange Ranges.reservedStart Ranges.reservedEnd idx = true
      · rw [if_pos hres] at h
        exact absurd h throw_ne_ok
      rw [if_neg hres] at h
      by_cases hseen : idx ∈ seen
      · rw [if_pos hseen] at h
        exact absurd h throw_ne_ok
      rw [if_neg hseen] at h
      obtain ⟨hbounds, hnodup, hfresh⟩ := ih h
      have hidx : 0 ≤ idx ∧ idx < (Ranges.reservedStart : Int) := by
        simp only [inRange_eq_true, Ranges.reservedStart, Ranges.reservedEnd,
          Ranges.wordCount] at *
        omega
      refine ⟨List.forall_mem_cons.mpr ⟨hidx, hbounds⟩, ?_, ?_⟩
      · refine List.nodup_cons.mpr ⟨fun hmem => ?_, hnodup⟩
        exact hfresh idx hmem List.mem_cons_self
      · refine List.forall_mem_cons.mpr ⟨hseen, fun i hi hmem => ?_⟩
        exact hfresh i hi (List.mem_cons_of_mem _ hmem)

/-- The indices of an accepted patch type: inside the state, below the reserved range and
distinct. -/
theorem validatePatchType_inv {patchType : Int} {indices : List Int} {u : Unit}
    (h : validatePatchType patchType indices = .ok u) :
    (∀ idx ∈ indices, 0 ≤ idx ∧ idx < (Ranges.reservedStart : Int)) ∧ indices.Nodup := by
  rw [validatePatchType, bind_eq_ok] at h
  obtain ⟨_, hcheck, -⟩ := h
  obtain ⟨hbounds, hnodup, -⟩ := checkIndices_inv hcheck
  exact ⟨hbounds, hnodup⟩

/-- A cell's index, where it has one, is an index of the patch. -/
theorem Patch.index_mem_of_mem_cells {p : Patch} {idx : Int} {w : Int}
    (h : (some idx, w) ∈ p.cells) : idx ∈ p.indices := by
  obtain ⟨i, -, hi⟩ := List.mem_map.mp h
  rw [Prod.mk.injEq] at hi
  exact List.mem_of_getElem? hi.1

/-- Over valid indices the write loop succeeds and performs the writes. -/
theorem writeCells_eq (state : CortexState) {cells : List (Option Int × Int)}
    (h : ∀ idx w, (some idx, w) ∈ cells → 0 ≤ idx ∧ idx < (Ranges.reservedStart : Int)) :
    writeCells state cells = .ok (state.write
      (cells.filterMap fun c => c.1.map fun idx => (idx.toNat, c.2))) := by
  induction cells generalizing state with
  | nil => rfl
  | cons c cells ih =>
      have htail : ∀ idx w, (some idx, w) ∈ cells → 0 ≤ idx ∧ idx < (Ranges.reservedStart : Int) :=
        fun idx w hm => h idx w (List.mem_cons_of_mem _ hm)
      obtain ⟨idx?, w⟩ := c
      cases idx? with
      | none => exact ih state htail
      | some idx =>
          obtain ⟨h0, h1⟩ := h idx w List.mem_cons_self
          have hres : ¬ inRange Ranges.reservedStart Ranges.reservedEnd idx = true := by
            rw [inRange_eq_true]
            omega
          have hout : ¬ (idx < 0 ∨ idx ≥ (Ranges.wordCount : Int)) := by
            simp only [Ranges.reservedStart, Ranges.wordCount] at *
            omega
          rw [writeCells, if_neg hres, if_neg hout, ih _ htail]
          rfl

/-! ### What is checked before the writes -/

/-- The checks of `applyPatchOntoCurrent` that come before any word is written. -/
structure PatchAdmits (policyAtomsMode : Bool) (current : CortexState) (p : Patch) : Prop where
  wordCount_mem : 1 ≤ p.wordCount ∧ p.wordCount ≤ 4
  type_ok : ∃ u, validatePatchType p.patchType p.indices = .ok u
  header_untouched : policyAtomsMode = true → patchTouchesHeader p = false
  canonical : policyAtomsMode = true → policyWriteIsCanonicalForState current p = true
  changes : p.cells.any (cellChanges current) = true

variable {policyAtomsMode : Bool} {current : CortexState} {p : Patch}

theorem PatchAdmits.writeCells_eq (h : PatchAdmits policyAtomsMode current p) :
    writeCells current p.cells = .ok (current.write p.writes) := by
  obtain ⟨u, hu⟩ := h.type_ok
  refine CoreTex.writeCells_eq current fun idx w hmem => ?_
  exact (validatePatchType_inv hu).1 idx (Patch.index_mem_of_mem_cells hmem)

/-- The state checks after the writes pass exactly when each word is valid. -/
theorem resultState_check (policyAtomsMode : Bool) (resultState t : CortexState) :
    (do refuseIf (hasNonZeroReservedBits resultState) (patchError .E04)
        if policyAtomsMode then
          match validatePolicyRegions resultState with
          | some policyErr => throw policyErr
          | none => return resultState
        else return resultState : PatchResult) = .ok t ↔
      t = resultState ∧ ∀ i < Ranges.wordCount, WordValid policyAtomsMode i (resultState.word i) := by
  rw [refuseIf_bind_eq_ok, ← stateValid_iff, Bool.not_eq_true]
  cases policyAtomsMode with
  | false =>
      simp only [Bool.false_eq_true, if_false, pure_eq_ok, false_implies, and_true]
      rw [and_comm, eq_comm]
  | true =>
      simp only [if_true, true_implies]
      cases hp : validatePolicyRegions resultState with
      | some err => simp
      | none =>
          simp only [pure_eq_ok, and_true]
          rw [and_comm, eq_comm]

/-- **Applying a patch**, success and result: the patch is admitted, the result is the
state with its words written, and each word of the result is valid. -/
theorem applyPatchOntoCurrent_iff {t : CortexState} :
    applyPatchOntoCurrent current p policyAtomsMode = .ok t ↔
      PatchAdmits policyAtomsMode current p ∧ t = current.write p.writes ∧
        ∀ i < Ranges.wordCount, WordValid policyAtomsMode i ((current.write p.writes).word i) := by
  unfold applyPatchOntoCurrent applyCells
  simp only [refuseIf_bind_eq_ok, Bool.not_eq_true', Bool.not_eq_false, Bool.and_eq_true, not_and,
    Bool.not_eq_true]
  constructor
  · rintro ⟨hcount, htype, hheader, hcanon, hchanges, h⟩
    have hadmits : PatchAdmits policyAtomsMode current p :=
      ⟨by omega, isOk_iff.mp htype, hheader, hcanon, hchanges⟩
    rw [hadmits.writeCells_eq, ok_bind] at h
    exact ⟨hadmits, (resultState_check policyAtomsMode _ t).mp h⟩
  · rintro ⟨hadmits, h⟩
    have hcount := hadmits.wordCount_mem
    refine ⟨by omega, isOk_iff.mpr hadmits.type_ok, hadmits.header_untouched,
      hadmits.canonical, hadmits.changes, ?_⟩
    rw [hadmits.writeCells_eq, ok_bind]
    exact (resultState_check policyAtomsMode _ t).mpr h

/-! ### Success depends on the patch's own words -/

/-- Two states that agree at every index the patch targets. -/
def AgreeAt (p : Patch) (s t : CortexState) : Prop :=
  ∀ c ∈ p.cells, s.wordAt c.1 = t.wordAt c.1

theorem any_congr_left {α : Type} {l : List α} {f g : α → Bool} (h : ∀ a ∈ l, f a = g a) :
    l.any f = l.any g := by
  induction l with
  | nil => rfl
  | cons a l ih =>
      rw [List.any_cons, List.any_cons, h a List.mem_cons_self,
        ih fun b hb => h b (List.mem_cons_of_mem _ hb)]

theorem AgreeAt.cellChanges {s t : CortexState} (h : AgreeAt p s t) :
    ∀ c ∈ p.cells, cellChanges s c = cellChanges t c := by
  intro c hc
  rw [CoreTex.cellChanges, CoreTex.cellChanges, h c hc]

theorem AgreeAt.policyWriteIsCanonicalForState {s t : CortexState} (h : AgreeAt p s t) :
    policyWriteIsCanonicalForState s p = policyWriteIsCanonicalForState t p := by
  have hcompanion : p.cells.any (fun c => isPolicyMixedCompanionIndex c.1 && CoreTex.cellChanges s c) =
      p.cells.any (fun c => isPolicyMixedCompanionIndex c.1 && CoreTex.cellChanges t c) :=
    any_congr_left fun c hc => by rw [h.cellChanges c hc]
  unfold CoreTex.policyWriteIsCanonicalForState
  rw [hcompanion]

/-- Admission reads the current words at the patch's own indices only. -/
theorem PatchAdmits.congr {s t : CortexState} (h : AgreeAt p s t)
    (hs : PatchAdmits policyAtomsMode s p) : PatchAdmits policyAtomsMode t p where
  wordCount_mem := hs.wordCount_mem
  type_ok := hs.type_ok
  header_untouched := hs.header_untouched
  canonical hm := h.policyWriteIsCanonicalForState ▸ hs.canonical hm
  changes := (any_congr_left h.cellChanges) ▸ hs.changes

/-- Every word of the state is valid. -/
def StateValid (policyAtomsMode : Bool) (s : CortexState) : Prop :=
  ∀ i < Ranges.wordCount, WordValid policyAtomsMode i (s.word i)

/-- Over a valid state a patch that is admitted and writes valid words applies. -/
theorem applyPatchOntoCurrent_of_valid (hvalid : StateValid policyAtomsMode current)
    (hadmits : PatchAdmits policyAtomsMode current p) (hnodup : (p.writes.map Prod.fst).Nodup)
    (hwords : ∀ w ∈ p.writes, WordValid policyAtomsMode w.1 w.2) :
    applyPatchOntoCurrent current p policyAtomsMode = .ok (current.write p.writes) := by
  refine applyPatchOntoCurrent_iff.mpr ⟨hadmits, rfl, fun i hi => ?_⟩
  by_cases hmem : i ∈ p.writes.map Prod.fst
  · obtain ⟨⟨j, v⟩, hw, rfl⟩ := List.mem_map.mp hmem
    rw [current.word_write_of_mem hnodup hw hi]
    exact hwords _ hw
  · rw [current.word_write_of_not_mem hmem]
    exact hvalid i hi

/-- A successful application leaves a valid state. -/
theorem applyPatchOntoCurrent_valid {t : CortexState}
    (h : applyPatchOntoCurrent current p policyAtomsMode = .ok t) :
    StateValid policyAtomsMode t := by
  obtain ⟨-, rfl, hvalid⟩ := applyPatchOntoCurrent_iff.mp h
  exact hvalid

/-! ### The two apply functions -/

section Merkle

variable (keccak256 : Bytes → Digest)

/-- On a patch that names the state's root the two apply functions give the same state
or both refuse. -/
theorem applyPatch_eq_ok_iff {t : CortexState}
    (hroot : p.parentStateRoot = (merkleizeState keccak256 current).bytes) :
    applyPatch keccak256 current p policyAtomsMode = .ok t ↔
      applyPatchOntoCurrent current p policyAtomsMode = .ok t := by
  unfold applyPatch applyPatchOntoCurrent
  simp only [refuseIf_bind_eq_ok, hroot, ne_eq, not_true_eq_false, not_false_eq_true, true_and]
  constructor
  · rintro ⟨hcount, htype, hcanon, hheader, h⟩
    exact ⟨hcount, htype, hheader, hcanon, h⟩
  · rintro ⟨hcount, htype, hheader, hcanon, h⟩
    exact ⟨hcount, htype, hcanon, hheader, h⟩

end Merkle

/-! ### Writes of a well-formed patch -/

/-- The positions a well-formed patch writes are its indices. -/
theorem Patch.WellFormed.writes_eq (h : p.WellFormed) :
    p.writes = (p.indices.zip p.newWords).map fun c => (c.1.toNat, c.2) := by
  rw [Patch.writes, h.cells_eq, List.filterMap_map]
  exact List.filterMap_eq_map' ▸ rfl

theorem Patch.WellFormed.map_fst_writes (h : p.WellFormed) :
    p.writes.map Prod.fst = p.indices.map Int.toNat := by
  have hlen : p.indices.length = p.newWords.length := by
    have := h.length_indices
    have := h.length_newWords
    omega
  rw [h.writes_eq, List.map_map]
  have : (Prod.fst ∘ fun c : Int × Int => (c.1.toNat, c.2)) = Int.toNat ∘ Prod.fst := rfl
  rw [this, ← List.map_map, List.map_fst_zip (by omega)]

/-- Distinct non-negative indices stay distinct as positions. -/
theorem Patch.WellFormed.nodup_writes (h : p.WellFormed) {u : Unit}
    (htype : validatePatchType p.patchType p.indices = .ok u) :
    (p.writes.map Prod.fst).Nodup := by
  obtain ⟨hbounds, hnodup⟩ := validatePatchType_inv htype
  rw [h.map_fst_writes]
  refine List.Nodup.map_on ?_ hnodup
  intro i hi j hj hij
  have := (hbounds i hi).1
  have := (hbounds j hj).1
  omega

end CoreTex
