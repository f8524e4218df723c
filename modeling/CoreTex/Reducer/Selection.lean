import CoreTex.Reducer.Reducer
import Mathlib.Data.List.Pairwise

/-!
# CoreTex.Reducer.Selection

The invariant of the greedy reducer.

A `Selection` over a parent state is a list of patches with disjoint targets, each of
which the parent itself admits and which write valid words only. The greedy loop keeps
its accepted patches a selection (`ReduceInv.step`, `reduceLoop_inv`): the guard on
overlapping targets makes a patch see, at its own words, the parent and nothing else.
Over a valid parent a selection can be applied in any order (`Selection.compatible`).
-/

namespace CoreTex

open CoreTex.Lib

/-! ### Applying many patches -/

/-- The state with the writes of the patches performed in order. -/
def applyAll (s : CortexState) (ps : List Patch) : CortexState :=
  ps.foldl (fun s p => s.write p.writes) s

@[simp] theorem applyAll_nil (s : CortexState) : applyAll s [] = s := rfl

@[simp] theorem applyAll_append_singleton (s : CortexState) (ps : List Patch) (p : Patch) :
    applyAll s (ps ++ [p]) = (applyAll s ps).write p.writes := by
  simp [applyAll]

/-- Patches that may be accepted together on `parent`. -/
structure Selection (policyAtomsMode : Bool) (parent : CortexState) (ps : List Patch) : Prop where
  wellFormed : ∀ p ∈ ps, p.WellFormed
  admits : ∀ p ∈ ps, PatchAdmits policyAtomsMode parent p
  words_valid : ∀ p ∈ ps, ∀ w ∈ p.writes, WordValid policyAtomsMode w.1 w.2
  disjoint : ps.Pairwise fun p q => ∀ i ∈ p.indices, i ∉ q.indices

variable {policyAtomsMode : Bool} {parent : CortexState}

theorem PatchAdmits.nonneg {p : Patch} (h : PatchAdmits policyAtomsMode parent p) :
    ∀ i ∈ p.indices, 0 ≤ i := by
  obtain ⟨u, hu⟩ := h.type_ok
  intro i hi
  exact ((validatePatchType_inv hu).1 i hi).1

/-- A patch does not move a word another index names. -/
theorem wordAt_write_of_not_mem {q : Patch} (hwf : q.WellFormed) (hq : ∀ i ∈ q.indices, 0 ≤ i)
    {s : CortexState} {idx : Int} (hidx : idx ∉ q.indices) :
    (s.write q.writes).wordAt (some idx) = s.wordAt (some idx) := by
  unfold CortexState.wordAt
  dsimp only
  by_cases h0 : 0 ≤ idx
  · rw [if_pos h0, if_pos h0, s.word_write_of_not_mem]
    rw [hwf.map_fst_writes, List.mem_map]
    rintro ⟨j, hj, hij⟩
    have hj0 := hq j hj
    have : j = idx := by omega
    exact hidx (this ▸ hj)
  · rw [if_neg h0, if_neg h0]

/-- A patch disjoint from others sees, at its own words, the state below them. -/
theorem agreeAt_applyAll {p : Patch} {qs : List Patch}
    (hwf : ∀ q ∈ qs, q.WellFormed) (hq : ∀ q ∈ qs, ∀ i ∈ q.indices, 0 ≤ i)
    (hdisj : ∀ q ∈ qs, ∀ i ∈ p.indices, i ∉ q.indices) (s : CortexState) :
    AgreeAt p s (applyAll s qs) := by
  rintro ⟨idx?, w⟩ hc
  cases idx? with
  | none => rfl
  | some idx =>
      have hidx := Patch.index_mem_of_mem_cells hc
      clear hc
      induction qs generalizing s with
      | nil => rfl
      | cons q qs ih =>
          have hstep := wordAt_write_of_not_mem (hwf q List.mem_cons_self)
            (hq q List.mem_cons_self) (s := s) (hdisj q List.mem_cons_self idx hidx)
          have hrest := ih (s := s.write q.writes)
            (fun r hr => hwf r (List.mem_cons_of_mem _ hr))
            (fun r hr => hq r (List.mem_cons_of_mem _ hr))
            (fun r hr => hdisj r (List.mem_cons_of_mem _ hr))
          exact hstep.symm.trans hrest

/-- Writing valid words into a valid state leaves it valid. -/
theorem stateValid_write {s : CortexState} (hs : StateValid policyAtomsMode s) {p : Patch}
    (hnodup : (p.writes.map Prod.fst).Nodup)
    (hwords : ∀ w ∈ p.writes, WordValid policyAtomsMode w.1 w.2) :
    StateValid policyAtomsMode (s.write p.writes) := by
  intro i hi
  by_cases hmem : i ∈ p.writes.map Prod.fst
  · obtain ⟨⟨j, v⟩, hw, rfl⟩ := List.mem_map.mp hmem
    rw [s.word_write_of_mem hnodup hw hi]
    exact hwords _ hw
  · rw [s.word_write_of_not_mem hmem]
    exact hs i hi

theorem PatchAdmits.nodup_writes {p : Patch} (h : PatchAdmits policyAtomsMode parent p)
    (hwf : p.WellFormed) : (p.writes.map Prod.fst).Nodup := by
  obtain ⟨u, hu⟩ := h.type_ok
  exact hwf.nodup_writes hu

/-- Any part of a selection, in any order, leaves a valid parent valid. -/
theorem Selection.stateValid_applyAll {ps qs : List Patch} (h : Selection policyAtomsMode parent ps)
    (hqs : qs ⊆ ps) (hvalid : StateValid policyAtomsMode parent) :
    StateValid policyAtomsMode (applyAll parent qs) := by
  induction qs using List.reverseRecOn with
  | nil => exact hvalid
  | append_singleton qs q ih =>
      have hq : q ∈ ps := hqs (List.mem_append_right _ (List.mem_singleton_self q))
      rw [applyAll_append_singleton]
      exact stateValid_write (ih fun r hr => hqs (List.mem_append_left _ hr))
        ((h.admits q hq).nodup_writes (h.wellFormed q hq)) (h.words_valid q hq)

/-- Two different patches of a selection target different words. -/
theorem Selection.disjoint_of_ne {ps : List Patch} (h : Selection policyAtomsMode parent ps)
    {p q : Patch} (hp : p ∈ ps) (hq : q ∈ ps) (hne : p ≠ q) : ∀ i ∈ p.indices, i ∉ q.indices := by
  have hsymm : Std.Symm fun p q : Patch => ∀ i ∈ p.indices, i ∉ q.indices :=
    ⟨fun p q hpq i hi hi' => hpq i hi' hi⟩
  exact h.disjoint.forall hp hq hne

/-- The index list of an admitted well-formed patch is inhabited. -/
theorem PatchAdmits.indices_ne_nil {p : Patch} (h : PatchAdmits policyAtomsMode parent p)
    (hwf : p.WellFormed) : p.indices ≠ [] := by
  intro hnil
  have := hwf.length_indices
  rw [hnil] at this
  have := h.wordCount_mem
  simp only [List.length_nil] at *
  omega

/-! ### The greedy loop keeps a selection -/

/-- What holds of the greedy loop after the items `seen`. -/
structure ReduceInv (policyAtomsMode : Bool) (parent : CortexState)
    (seen : List ReducerInputPatch) (loop : ReduceLoop) : Prop where
  selection : Selection policyAtomsMode parent (loop.accepted.map AcceptedPatch.patch)
  targets_eq : loop.acceptedTargets = (loop.accepted.map AcceptedPatch.patch).flatMap Patch.indices
  current_eq : loop.current = applyAll parent (loop.accepted.map AcceptedPatch.patch)
  source : ∀ a ∈ loop.accepted, ∃ item ∈ seen, item.patch = a.patch ∧ item.patchBytes = a.patchBytes

theorem ReduceInv.reject {seen : List ReducerInputPatch} {loop : ReduceLoop}
    (h : ReduceInv policyAtomsMode parent seen loop) (item : ReducerInputPatch)
    (reason : RejectionCode) :
    ReduceInv policyAtomsMode parent (seen ++ [item]) (loop.reject item reason) where
  selection := h.selection
  targets_eq := h.targets_eq
  current_eq := h.current_eq
  source a ha := by
    obtain ⟨i, hi, heq⟩ := h.source a ha
    exact ⟨i, List.mem_append_left _ hi, heq⟩

/-- A patch that was applied onto the running state is admitted by the parent, and the
words it wrote are valid. -/
theorem Selection.append {ps : List Patch} (h : Selection policyAtomsMode parent ps) {p : Patch}
    (hwf : p.WellFormed) (hdisj : ∀ q ∈ ps, ∀ i ∈ p.indices, i ∉ q.indices) {t : CortexState}
    (happly : applyPatchOntoCurrent (applyAll parent ps) p policyAtomsMode = .ok t) :
    Selection policyAtomsMode parent (ps ++ [p]) := by
  obtain ⟨hadmits, -, hvalid⟩ := applyPatchOntoCurrent_iff.mp happly
  have hagree := agreeAt_applyAll h.wellFormed (fun q hq => (h.admits q hq).nonneg) hdisj parent
  have hparent : PatchAdmits policyAtomsMode parent p :=
    hadmits.congr fun c hc => (hagree c hc).symm
  have hwords : ∀ w ∈ p.writes, WordValid policyAtomsMode w.1 w.2 := by
    rintro ⟨i, v⟩ hw
    have hi : i < Ranges.wordCount := by
      have hmem : i ∈ p.writes.map Prod.fst := List.mem_map_of_mem hw
      rw [hwf.map_fst_writes] at hmem
      obtain ⟨j, hj, rfl⟩ := List.mem_map.mp hmem
      obtain ⟨u, hu⟩ := hparent.type_ok
      have := (validatePatchType_inv hu).1 j hj
      simp only [Ranges.reservedStart, Ranges.wordCount] at *
      omega
    have := hvalid i hi
    rwa [CortexState.word_write_of_mem _ (hparent.nodup_writes hwf) hw hi] at this
  refine ⟨?_, ?_, ?_, ?_⟩
  · exact fun q hq => (List.mem_append.mp hq).elim (h.wellFormed q) fun hq => by
      rw [List.mem_singleton] at hq
      exact hq ▸ hwf
  · exact fun q hq => (List.mem_append.mp hq).elim (h.admits q) fun hq => by
      rw [List.mem_singleton] at hq
      exact hq ▸ hparent
  · exact fun q hq => (List.mem_append.mp hq).elim (h.words_valid q) fun hq => by
      rw [List.mem_singleton] at hq
      exact hq ▸ hwords
  · refine List.pairwise_append.mpr ⟨h.disjoint, List.pairwise_singleton _ _, ?_⟩
    intro q hq r hr i hi hir
    rw [List.mem_singleton] at hr
    exact hdisj q hq i (hr ▸ hir) hi

/-- One turn of the greedy loop keeps the invariant. -/
theorem ReduceInv.step {seen : List ReducerInputPatch} {loop : ReduceLoop}
    (h : ReduceInv policyAtomsMode parent seen loop) (threshold : Int) {item : ReducerInputPatch}
    (hwf : item.patch.WellFormed) :
    ReduceInv policyAtomsMode parent (seen ++ [item])
      (reduceStep threshold policyAtomsMode loop item) := by
  unfold reduceStep
  split
  next => exact h.reject item _
  next hover =>
    cases heval : evaluateAndApplyOntoCurrent loop.current item.patch item.marginalEvaluator
        threshold false policyAtomsMode reduceCodes with
    | error reason => exact h.reject item reason
    | ok step =>
        obtain ⟨happly, -⟩ := evaluateAndApplyOntoCurrent_inv heval
        rw [h.current_eq] at happly
        have hdisj : ∀ q ∈ loop.accepted.map AcceptedPatch.patch, ∀ i ∈ item.patch.indices,
            i ∉ q.indices := by
          intro q hq i hi hiq
          refine hover (List.any_eq_true.mpr ⟨i, hi, ?_⟩)
          rw [decide_eq_true_eq, h.targets_eq]
          exact List.mem_flatMap.mpr ⟨q, hq, hiq⟩
        refine ⟨?_, ?_, ?_, ?_⟩
        · rw [List.map_append]
          exact h.selection.append hwf hdisj happly
        · simp [h.targets_eq]
        · obtain ⟨-, hstate, -⟩ := applyPatchOntoCurrent_iff.mp happly
          simp [hstate]
        · intro a ha
          rcases List.mem_append.mp ha with ha | ha
          · obtain ⟨i, hi, heq⟩ := h.source a ha
            exact ⟨i, List.mem_append_left _ hi, heq⟩
          · obtain rfl := List.mem_singleton.mp ha
            exact ⟨item, List.mem_append_right _ (List.mem_singleton_self item), rfl, rfl⟩

/-- **The greedy loop keeps a selection**, over a whole run. -/
theorem reduceLoop_inv (threshold : Int) (rejected : List RejectedPatch)
    {ordered : List ReducerInputPatch} (hwf : ∀ item ∈ ordered, item.patch.WellFormed) :
    ReduceInv policyAtomsMode parent ordered
      (reduceLoop parent threshold policyAtomsMode rejected ordered) := by
  induction ordered using List.reverseRecOn with
  | nil =>
      refine ⟨⟨?_, ?_, ?_, List.Pairwise.nil⟩, rfl, rfl, ?_⟩ <;>
        exact fun _ h => absurd h List.not_mem_nil
  | append_singleton ordered item ih =>
      rw [reduceLoop, List.foldl_append]
      exact (ih fun i hi => hwf i (List.mem_append_left _ hi)).step threshold
        (hwf item (List.mem_append_right _ (List.mem_singleton_self item)))

/-! ### A selection can be replayed in any order -/

/-- A patch with its hash, as a replay carries it. -/
abbrev HashedPatch := Patch × String

/-- The step of a replay. -/
def replayApply (policyAtomsMode : Bool) (s : CortexState) (x : HashedPatch) :
    Option CortexState :=
  (applyPatchOntoCurrent s x.1 policyAtomsMode).toOption

theorem foldl_write_eq_applyAll (s : CortexState) (xs : List HashedPatch) :
    xs.foldl (fun s x => s.write x.1.writes) s = applyAll s (xs.map Prod.fst) := by
  rw [applyAll, List.foldl_map]

/-- **A selection is compatible**: over a valid parent its patches can be taken in any
order, each onto any of the others. -/
theorem Selection.compatible {family : List HashedPatch}
    (h : Selection policyAtomsMode parent (family.map Prod.fst))
    (hhash : ∀ x ∈ family, ∀ y ∈ family, x.1 = y.1 → x = y)
    (hvalid : StateValid policyAtomsMode parent) :
    Compatible (fun x : HashedPatch => x.1.indices) (replayApply policyAtomsMode)
      (fun s x => s.write x.1.writes) parent family where
  foot_ne_nil x hx :=
    (h.admits x.1 (List.mem_map_of_mem hx)).indices_ne_nil (h.wellFormed x.1 (List.mem_map_of_mem hx))
  disjoint x hx y hy hne :=
    h.disjoint_of_ne (List.mem_map_of_mem hx) (List.mem_map_of_mem hy)
      fun heq => hne (hhash x hx y hy heq)
  step_eq taken htaken x hx hnot := by
    have hxf : x.1 ∈ family.map Prod.fst := List.mem_map_of_mem hx
    have htakenf : taken.map Prod.fst ⊆ family.map Prod.fst := List.map_subset _ htaken
    have hdisj : ∀ q ∈ taken.map Prod.fst, ∀ i ∈ x.1.indices, i ∉ q.indices := by
      intro q hq
      obtain ⟨y, hy, rfl⟩ := List.mem_map.mp hq
      refine h.disjoint_of_ne hxf (htakenf hq) fun heq => hnot ?_
      exact hhash x hx y (htaken hy) heq ▸ hy
    have hagree := agreeAt_applyAll (fun q hq => h.wellFormed q (htakenf hq))
      (fun q hq => (h.admits q (htakenf hq)).nonneg) hdisj parent
    have hadmits := (h.admits x.1 hxf).congr hagree
    rw [foldl_write_eq_applyAll, replayApply,
      applyPatchOntoCurrent_of_valid (h.stateValid_applyAll htakenf hvalid) hadmits
        (hadmits.nodup_writes (h.wellFormed x.1 hxf)) (h.words_valid x.1 hxf)]
    rfl

end CoreTex
