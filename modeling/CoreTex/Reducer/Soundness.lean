import CoreTex.Reducer.OrderIndependence
import CoreTex.Reducer.Selection
import CoreTex.State.PatchRun

/-!
# CoreTex.Reducer.Soundness

What `reduce` gives back, over any input.

A `Fate` is an ordered item with what became of it. `Traced` is the invariant of the greedy loop:
it ties the loop to the fates of the items it has seen, and says that the loop over the taken items
alone ends in the same place. `reduce_sound` reads the result of a whole run off it.
-/

namespace CoreTex

open CoreTex.Lib

/-! ### Entries of the result -/

/-- What an item, an accepted patch and a rejected patch have in common. -/
abbrev Entry := Patch × Bytes

def ReducerInputPatch.entry (item : ReducerInputPatch) : Entry :=
  (item.patch, item.patchBytes)

def AcceptedPatch.entry (a : AcceptedPatch) : Entry :=
  (a.patch, a.patchBytes)

def RejectedPatch.entry (r : RejectedPatch) : Entry :=
  (r.patch, r.patchBytes)

/-- Two patches write a common target. -/
def SharesTarget (p q : Patch) : Prop :=
  ∃ i ∈ p.indices, i ∈ q.indices

/-- An item and the code it was rejected with, none when it was accepted. -/
abbrev Fate := ReducerInputPatch × Option RejectionCode

/-- The items that were accepted. -/
def taken (fates : List Fate) : List ReducerInputPatch :=
  (fates.filter fun f => f.2.isNone).map Prod.fst

/-- The rejections. -/
def refused (fates : List Fate) : List RejectedPatch :=
  fates.filterMap fun f => f.2.map fun reason => ⟨f.1.patch, f.1.patchBytes, reason⟩

/-- Apply patches one after the other, stopping at the first that is refused. -/
def applyEach (policyAtomsMode : Bool) (s : CortexState) (ps : List Patch) : PatchResult :=
  ps.foldlM (fun s p => applyPatchOntoCurrent s p policyAtomsMode) s

variable {policyAtomsMode : Bool}

@[simp] theorem taken_nil : taken [] = [] := rfl

@[simp] theorem taken_accepted (fates : List Fate) (item : ReducerInputPatch) :
    taken (fates ++ [(item, none)]) = taken fates ++ [item] := by
  simp [taken]

@[simp] theorem taken_rejected (fates : List Fate) (item : ReducerInputPatch)
    (reason : RejectionCode) : taken (fates ++ [(item, some reason)]) = taken fates := by
  simp [taken]

@[simp] theorem refused_accepted (fates : List Fate) (item : ReducerInputPatch) :
    refused (fates ++ [(item, none)]) = refused fates := by
  simp [refused]

@[simp] theorem refused_rejected (fates : List Fate) (item : ReducerInputPatch)
    (reason : RejectionCode) : refused (fates ++ [(item, some reason)]) =
      refused fates ++ [⟨item.patch, item.patchBytes, reason⟩] := by
  simp [refused]

@[simp] theorem applyEach_nil (s : CortexState) : applyEach policyAtomsMode s [] = .ok s := rfl

theorem applyEach_append {s t : CortexState} {ps qs : List Patch}
    (h : applyEach policyAtomsMode s ps = .ok t) :
    applyEach policyAtomsMode s (ps ++ qs) = applyEach policyAtomsMode t qs := by
  rw [applyEach, List.foldlM_append, ← applyEach, h, ok_bind]
  rfl

/-- A word that a run of patches changed is a target of one of them. -/
theorem applyEach_word {s t : CortexState} {ps : List Patch}
    (h : applyEach policyAtomsMode s ps = .ok t) {i : Nat} (hne : t.word i ≠ s.word i) :
    ∃ p ∈ ps, (i : Int) ∈ p.indices := by
  induction ps generalizing s with
  | nil =>
      cases h
      exact absurd rfl hne
  | cons p ps ih =>
      rw [applyEach, List.foldlM_cons, bind_eq_ok] at h
      obtain ⟨u, hu, h⟩ := h
      by_cases hstep : s.word i = u.word i
      · obtain ⟨q, hq, hi⟩ := ih h (hstep ▸ hne)
        exact ⟨q, List.mem_cons_of_mem _ hq, hi⟩
      · obtain ⟨idx, w, hcell, rfl⟩ := cell_of_word_ne hu hstep
        exact ⟨p, List.mem_cons_self, Patch.index_mem_of_mem_cells hcell⟩

/-- Nothing is lost between the taken and the refused. -/
theorem taken_refused_perm (fates : List Fate) :
    ((taken fates).map ReducerInputPatch.entry ++ (refused fates).map RejectedPatch.entry).Perm
      (fates.map fun f => f.1.entry) := by
  induction fates using List.reverseRecOn with
  | nil => rfl
  | append_singleton fates f ih =>
      obtain ⟨item, reason?⟩ := f
      cases reason? with
      | none =>
          rw [taken_accepted, refused_accepted, List.map_append, List.map_append]
          refine List.Perm.trans ?_ (ih.append_right _)
          rw [List.append_assoc, List.append_assoc]
          exact List.perm_append_comm.append_left _
      | some reason =>
          rw [taken_rejected, refused_rejected, List.map_append, List.map_append,
            ← List.append_assoc]
          exact ih.append_right _

/-! ### One turn of the loop -/

/-- The kernel never says that targets overlap. -/
theorem evaluateAndApplyOntoCurrent_ne_overlap {current : CortexState} {patch : Patch}
    {marginalEvaluator : MarginalEvaluator} {threshold : Int} {reason : RejectionCode}
    (h : evaluateAndApplyOntoCurrent current patch marginalEvaluator threshold false
      policyAtomsMode reduceCodes = .error reason) : reason ≠ .R01_TARGET_OVERLAP := by
  unfold evaluateAndApplyOntoCurrent at h
  dsimp only at h
  rcases refuseIf_bind_eq_error.mp h with ⟨-, rfl⟩ | ⟨-, h⟩
  · decide
  · cases happly : applyPatchOntoCurrent current patch policyAtomsMode with
    | ok state =>
        rw [happly] at h
        cases h
    | error err =>
        rw [happly] at h
        cases h
        cases err.code <;> decide

/-- The batch lane accepts a gain that reaches the threshold. -/
theorem evaluateAndApplyOntoCurrent_threshold {C : Type} {current : CortexState} {patch : Patch}
    {marginalEvaluator : MarginalEvaluator} {threshold : Int} {codes : AcceptStepCodes C}
    {step : AcceptStep} (h : evaluateAndApplyOntoCurrent current patch marginalEvaluator threshold
      false policyAtomsMode codes = .ok step) : threshold ≤ step.marginalGain := by
  rw [(evaluateAndApplyOntoCurrent_inv h).2]
  unfold evaluateAndApplyOntoCurrent at h
  dsimp only at h
  rw [refuseIf_bind_eq_ok] at h
  simpa using h.1

/-- The item meets a target already taken. -/
def ReduceLoop.Overlaps (loop : ReduceLoop) (item : ReducerInputPatch) : Prop :=
  ∃ i ∈ item.patch.indices, i ∈ loop.acceptedTargets

theorem any_acceptedTargets {loop : ReduceLoop} {item : ReducerInputPatch} :
    item.patch.indices.any (· ∈ loop.acceptedTargets) = true ↔ loop.Overlaps item := by
  simp [ReduceLoop.Overlaps]

/-- A turn that accepts. -/
theorem reduceStep_accept {threshold : Int} {loop : ReduceLoop} {item : ReducerInputPatch}
    {step : AcceptStep} (hover : ¬ loop.Overlaps item)
    (heval : evaluateAndApplyOntoCurrent loop.current item.patch item.marginalEvaluator threshold
      false policyAtomsMode reduceCodes = .ok step) :
    reduceStep threshold policyAtomsMode loop item =
      { current := step.state
        accepted := loop.accepted ++
          [⟨item.patch, item.patchBytes, step.marginalGain, loop.accepted.length⟩]
        acceptedTargets := loop.acceptedTargets ++ item.patch.indices
        rejected := loop.rejected } := by
  rw [reduceStep, if_neg (mt any_acceptedTargets.mp hover), heval]

/-- The three ends of a turn. -/
theorem reduceStep_cases (threshold : Int) (loop : ReduceLoop) (item : ReducerInputPatch) :
    (loop.Overlaps item ∧
      reduceStep threshold policyAtomsMode loop item = loop.reject item .R01_TARGET_OVERLAP) ∨
    (¬ loop.Overlaps item ∧ ∃ reason ≠ RejectionCode.R01_TARGET_OVERLAP,
      reduceStep threshold policyAtomsMode loop item = loop.reject item reason) ∨
    (¬ loop.Overlaps item ∧ ∃ t, threshold ≤ item.marginalEvaluator loop.current item.patch ∧
      applyPatchOntoCurrent loop.current item.patch policyAtomsMode = .ok t ∧
      ∀ rejected, reduceStep threshold policyAtomsMode { loop with rejected } item =
        { current := t
          accepted := loop.accepted ++ [⟨item.patch, item.patchBytes,
            item.marginalEvaluator loop.current item.patch, loop.accepted.length⟩]
          acceptedTargets := loop.acceptedTargets ++ item.patch.indices
          rejected }) := by
  by_cases hover : loop.Overlaps item
  · exact .inl ⟨hover, by rw [reduceStep, if_pos (any_acceptedTargets.mpr hover)]⟩
  · cases heval : evaluateAndApplyOntoCurrent loop.current item.patch item.marginalEvaluator
        threshold false policyAtomsMode reduceCodes with
    | error reason =>
        refine .inr (.inl ⟨hover, reason, evaluateAndApplyOntoCurrent_ne_overlap heval, ?_⟩)
        rw [reduceStep, if_neg (mt any_acceptedTargets.mp hover), heval]
    | ok step =>
        obtain ⟨happly, hgain⟩ := evaluateAndApplyOntoCurrent_inv heval
        refine .inr (.inr ⟨hover, step.state, ?_, happly, fun rejected => ?_⟩)
        · rw [← hgain]
          exact evaluateAndApplyOntoCurrent_threshold heval
        · rw [← hgain]
          exact @reduceStep_accept policyAtomsMode threshold { loop with rejected } item step hover heval

/-! ### The trace of the loop -/

/-- What the greedy loop has done once its items met these fates. -/
structure Traced (policyAtomsMode : Bool) (threshold : Int) (parent : CortexState)
    (before : List RejectedPatch) (fates : List Fate) (loop : ReduceLoop) : Prop where
  entries : loop.accepted.map AcceptedPatch.entry = (taken fates).map ReducerInputPatch.entry
  rejected : loop.rejected = before ++ refused fates
  targets : loop.acceptedTargets = (taken fates).flatMap fun item => item.patch.indices
  applied : applyEach policyAtomsMode parent ((taken fates).map ReducerInputPatch.patch) =
    .ok loop.current
  numbered : ∀ (k : Nat) (a : AcceptedPatch), loop.accepted[k]? = some a → a.acceptanceIndex = k
  gains : ∀ (k : Nat) (item : ReducerInputPatch) (a : AcceptedPatch), (taken fates)[k]? = some item →
    loop.accepted[k]? = some a → ∃ s,
      applyEach policyAtomsMode parent (((taken fates).take k).map ReducerInputPatch.patch) = .ok s ∧
      a.marginalGain = item.marginalEvaluator s item.patch ∧ threshold ≤ a.marginalGain
  overlap : ∀ earlier f later, fates = earlier ++ f :: later →
    (f.2 = some .R01_TARGET_OVERLAP ↔ ∃ other ∈ taken earlier, SharesTarget f.1.patch other.patch)
  disjoint : (taken fates).Pairwise fun a b => ¬ SharesTarget a.patch b.patch
  again : reduceLoop parent threshold policyAtomsMode [] (taken fates) = { loop with rejected := [] }

variable {threshold : Int} {parent : CortexState} {before : List RejectedPatch}
  {fates : List Fate} {loop : ReduceLoop}

theorem Traced.length_taken (h : Traced policyAtomsMode threshold parent before fates loop) :
    (taken fates).length = loop.accepted.length := by
  have := congrArg List.length h.entries
  rwa [List.length_map, List.length_map, eq_comm] at this

theorem Traced.overlaps_iff (h : Traced policyAtomsMode threshold parent before fates loop)
    (item : ReducerInputPatch) :
    loop.Overlaps item ↔ ∃ other ∈ taken fates, SharesTarget item.patch other.patch := by
  rw [ReduceLoop.Overlaps, h.targets]
  simp only [List.mem_flatMap, SharesTarget]
  constructor
  · rintro ⟨i, hi, other, hother, hio⟩
    exact ⟨other, hother, i, hi, hio⟩
  · rintro ⟨other, hother, i, hi, hio⟩
    exact ⟨i, hi, other, hother, hio⟩

/-- The overlap rule for one more item. -/
theorem overlap_append {item : ReducerInputPatch} {reason? : Option RejectionCode}
    (h : ∀ earlier f later, fates = earlier ++ f :: later →
      (f.2 = some .R01_TARGET_OVERLAP ↔
        ∃ other ∈ taken earlier, SharesTarget f.1.patch other.patch))
    (hitem : reason? = some .R01_TARGET_OVERLAP ↔
      ∃ other ∈ taken fates, SharesTarget item.patch other.patch) :
    ∀ earlier f later, fates ++ [(item, reason?)] = earlier ++ f :: later →
      (f.2 = some .R01_TARGET_OVERLAP ↔
        ∃ other ∈ taken earlier, SharesTarget f.1.patch other.patch) := by
  intro earlier f later heq
  rcases List.eq_nil_or_concat' later with rfl | ⟨later, last, rfl⟩
  · obtain ⟨rfl, hf⟩ := List.append_inj' heq rfl
    cases hf
    exact hitem
  · rw [← List.cons_append, ← List.append_assoc] at heq
    exact h earlier f later (List.append_inj' heq rfl).1

/-- A rejection leaves all but the rejections as it is. -/
theorem Traced.reject (h : Traced policyAtomsMode threshold parent before fates loop)
    {item : ReducerInputPatch} {reason : RejectionCode}
    (hitem : reason = .R01_TARGET_OVERLAP ↔ loop.Overlaps item) :
    Traced policyAtomsMode threshold parent before (fates ++ [(item, some reason)])
      (loop.reject item reason) := by
  have htaken := taken_rejected fates item reason
  refine ⟨?_, ?_, ?_, ?_, h.numbered, ?_, overlap_append h.overlap ?_, ?_, ?_⟩
  · rw [htaken]
    exact h.entries
  · rw [refused_rejected, ← List.append_assoc, ← h.rejected]
    rfl
  · rw [htaken]
    exact h.targets
  · rw [htaken]
    exact h.applied
  · rw [htaken]
    exact h.gains
  · rw [← h.overlaps_iff, Option.some.injEq]
    exact hitem
  · rw [htaken]
    exact h.disjoint
  · rw [htaken]
    exact h.again

/-- An accepted item is measured and applied where the taken ones lead. -/
theorem Traced.accept (h : Traced policyAtomsMode threshold parent before fates loop)
    {item : ReducerInputPatch} {t : CortexState} (hover : ¬ loop.Overlaps item)
    (hgain : threshold ≤ item.marginalEvaluator loop.current item.patch)
    (happly : applyPatchOntoCurrent loop.current item.patch policyAtomsMode = .ok t)
    (hstep : ∀ rejected, reduceStep threshold policyAtomsMode { loop with rejected } item =
      { current := t
        accepted := loop.accepted ++ [⟨item.patch, item.patchBytes,
          item.marginalEvaluator loop.current item.patch, loop.accepted.length⟩]
        acceptedTargets := loop.acceptedTargets ++ item.patch.indices
        rejected }) :
    Traced policyAtomsMode threshold parent before (fates ++ [(item, none)])
      (reduceStep threshold policyAtomsMode loop item) := by
  have hloop := hstep loop.rejected
  rw [hloop]
  refine ⟨?_, ?_, ?_, ?_, ?_, ?_, overlap_append h.overlap ?_, ?_, ?_⟩
  · rw [taken_accepted, List.map_append, List.map_append, h.entries]
    rfl
  · rw [refused_accepted]
    exact h.rejected
  · rw [taken_accepted, List.flatMap_append, ← h.targets, List.flatMap_singleton]
  · rw [taken_accepted, List.map_append, applyEach_append h.applied, applyEach, List.map_singleton,
      List.foldlM_cons, happly, ok_bind]
    rfl
  · intro k a ha
    by_cases hk : k < loop.accepted.length
    · rw [List.getElem?_append_left hk] at ha
      exact h.numbered k a ha
    · obtain rfl : k = loop.accepted.length := by
        have := (List.getElem?_eq_some_iff.mp ha).1
        rw [List.length_append, List.length_singleton] at this
        omega
      rw [List.getElem?_concat_length] at ha
      cases ha
      rfl
  · intro k other a hother ha
    rw [taken_accepted] at hother ⊢
    by_cases hk : k < loop.accepted.length
    · rw [List.getElem?_append_left (h.length_taken ▸ hk)] at hother
      rw [List.getElem?_append_left hk] at ha
      rw [List.take_append_of_le_length (by rw [h.length_taken]; omega)]
      exact h.gains k other a hother ha
    · obtain rfl : k = loop.accepted.length := by
        have := (List.getElem?_eq_some_iff.mp ha).1
        rw [List.length_append, List.length_singleton] at this
        omega
      rw [List.getElem?_concat_length] at ha
      rw [← h.length_taken, List.getElem?_concat_length] at hother
      cases ha
      cases hother
      rw [← h.length_taken, List.take_left]
      exact ⟨_, h.applied, rfl, hgain⟩
  · simpa [h.overlaps_iff] using hover
  · rw [taken_accepted, List.pairwise_append]
    refine ⟨h.disjoint, List.pairwise_singleton _ _, fun other hother new hnew hshares => hover ?_⟩
    obtain rfl := List.mem_singleton.mp hnew
    obtain ⟨i, hi, hinew⟩ := hshares
    exact (h.overlaps_iff new).mpr ⟨other, hother, i, hinew, hi⟩
  · rw [taken_accepted, reduceLoop, List.foldl_append, ← reduceLoop, h.again]
    exact hstep []

/-- **Every run of the loop has a trace** of fates for its items, in order. -/
theorem reduceLoop_traced (policyAtomsMode : Bool) (threshold : Int) (parent : CortexState)
    (before : List RejectedPatch) (ordered : List ReducerInputPatch) :
    ∃ fates : List Fate, fates.map Prod.fst = ordered ∧
      Traced policyAtomsMode threshold parent before fates
        (reduceLoop parent threshold policyAtomsMode before ordered) := by
  induction ordered using List.reverseRecOn with
  | nil =>
      refine ⟨[], rfl, rfl, (List.append_nil _).symm, rfl, rfl, ?_, ?_, ?_, List.Pairwise.nil, rfl⟩
      · intro k a ha
        cases ha
      · intro k item a hitem
        cases hitem
      · intro earlier f later heq
        cases earlier <;> cases heq
  | append_singleton ordered item ih =>
      obtain ⟨fates, hfates, htraced⟩ := ih
      have hrun : reduceLoop parent threshold policyAtomsMode before (ordered ++ [item]) =
          reduceStep threshold policyAtomsMode
            (reduceLoop parent threshold policyAtomsMode before ordered) item := by
        rw [reduceLoop, List.foldl_append]
        rfl
      have hfst : ∀ reason?, (fates ++ [(item, reason?)]).map Prod.fst = ordered ++ [item] := by
        intro reason?
        rw [List.map_append, hfates]
        rfl
      rw [hrun]
      -- the case split is the source's: overlap, refused by the kernel, accepted
      obtain ⟨hover, hstep⟩ | ⟨hover, reason, hreason, hstep⟩ | ⟨hover, t, hgain, happly, hstep⟩ :=
        reduceStep_cases threshold
          (reduceLoop parent threshold policyAtomsMode before ordered) item
      · rw [hstep]
        exact ⟨_, hfst _, htraced.reject (iff_of_true rfl hover)⟩
      · rw [hstep]
        exact ⟨_, hfst _, htraced.reject (iff_of_false hreason hover)⟩
      · exact ⟨_, hfst _, htraced.accept hover hgain happly hstep⟩

/-! ### The result of a run -/

/-- The items that name the epoch parent, in the order the loop takes them. -/
def orderedItems (keccak256 : Bytes → Digest) (S : CompareSort) (parentState : CortexState)
    (patches : List ReducerInputPatch) : List ReducerInputPatch :=
  S.sort (comparePatchPriority keccak256) (patches.filter fun item =>
    patchMatchesEpochParent item.patch (merkleizeState keccak256 parentState))

/-- What `reduce` promises of its result, given the fates of the ordered items. -/
structure ReduceSound (keccak256 : Bytes → Digest) (S : CompareSort) (parentState : CortexState)
    (patches : List ReducerInputPatch) (threshold : Int) (policyAtomsMode : Bool)
    (fates : List Fate) (out : ReducerOutput) : Prop where
  ordered : fates.map Prod.fst = orderedItems keccak256 S parentState patches
  accepted : out.accepted.map AcceptedPatch.entry = (taken fates).map ReducerInputPatch.entry
  rejected : out.rejected =
    wrongParentRejects (merkleizeState keccak256 parentState) patches ++ refused fates
  partition : (out.accepted.map AcceptedPatch.entry ++ out.rejected.map RejectedPatch.entry).Perm
    (patches.map ReducerInputPatch.entry)
  parent : ∀ a ∈ out.accepted,
    a.patch.parentStateRoot = (merkleizeState keccak256 parentState).bytes
  disjoint : out.accepted.Pairwise fun a b => ¬ SharesTarget a.patch b.patch
  numbered : ∀ (k : Nat) (a : AcceptedPatch), out.accepted[k]? = some a → a.acceptanceIndex = k
  gains : ∀ (k : Nat) (item : ReducerInputPatch) (a : AcceptedPatch), (taken fates)[k]? = some item →
    out.accepted[k]? = some a → ∃ s,
      applyEach policyAtomsMode parentState ((out.accepted.take k).map AcceptedPatch.patch) = .ok s ∧
      a.marginalGain = item.marginalEvaluator s item.patch ∧ threshold ≤ a.marginalGain
  newState : applyEach policyAtomsMode parentState (out.accepted.map AcceptedPatch.patch) =
    .ok out.newState
  changed : ∀ i, out.newState.word i ≠ parentState.word i →
    ∃ a ∈ out.accepted, (i : Int) ∈ a.patch.indices
  overlap : ∀ earlier f later, fates = earlier ++ f :: later →
    (f.2 = some .R01_TARGET_OVERLAP ↔ ∃ other ∈ taken earlier, SharesTarget f.1.patch other.patch)
  again : ∀ items : List ReducerInputPatch, items.Perm (taken fates) →
    (∀ a b, comparePatchPriority keccak256 a b ≤ 0 → comparePatchPriority keccak256 b a ≤ 0 →
      [a, b].Sublist (taken fates) → [a, b].Sublist items) →
    let rerun := reduce keccak256 S parentState items threshold policyAtomsMode
    rerun.accepted = out.accepted ∧ rerun.newState = out.newState ∧
      rerun.patchSetRoot = out.patchSetRoot ∧ rerun.rejected = []

theorem taken_sublist (fates : List Fate) : (taken fates).Sublist (fates.map Prod.fst) :=
  List.filter_sublist.map Prod.fst

theorem map_patch_eq {accepted : List AcceptedPatch} {items : List ReducerInputPatch}
    (h : accepted.map AcceptedPatch.entry = items.map ReducerInputPatch.entry) :
    accepted.map AcceptedPatch.patch = items.map ReducerInputPatch.patch := by
  have := congrArg (List.map Prod.fst) h
  rwa [List.map_map, List.map_map] at this

theorem mem_orderedItems {keccak256 : Bytes → Digest} {S : CompareSort} {parentState : CortexState}
    {patches : List ReducerInputPatch} {item : ReducerInputPatch} :
    item ∈ orderedItems keccak256 S parentState patches ↔ item ∈ patches ∧
      patchMatchesEpochParent item.patch (merkleizeState keccak256 parentState) = true := by
  rw [orderedItems, S.mem_sort, List.mem_filter]

/-- Two items that were both taken are not one item, since each of them writes some word. -/
theorem nodup_taken (h : (taken fates).Pairwise fun a b => ¬ SharesTarget a.patch b.patch)
    (hne : ∀ item ∈ taken fates, item.patch.indices ≠ []) : (taken fates).Nodup := by
  refine h.imp_of_mem fun {a b} ha _ hdisj hab => ?_
  subst hab
  obtain ⟨i, hi⟩ := List.exists_mem_of_ne_nil _ (hne a ha)
  exact hdisj ⟨i, hi, hi⟩

/-- Every patch of a run was applied somewhere. -/
theorem applyEach_mem {s t : CortexState} {ps : List Patch}
    (h : applyEach policyAtomsMode s ps = .ok t) :
    ∀ p ∈ ps, ∃ u v, applyPatchOntoCurrent u p policyAtomsMode = .ok v := by
  induction ps generalizing s with
  | nil =>
      intro p hp
      exact absurd hp List.not_mem_nil
  | cons q ps ih =>
      rw [applyEach, List.foldlM_cons, bind_eq_ok] at h
      obtain ⟨u, hu, h⟩ := h
      exact List.forall_mem_cons.mpr ⟨⟨s, u, hu⟩, ih h⟩

/-- The items rejected before the ordering, with those that were ordered, are all there are. -/
theorem wrongParentRejects_partition (keccak256 : Bytes → Digest) (S : CompareSort)
    (parentState : CortexState) (patches : List ReducerInputPatch) :
    ((wrongParentRejects (merkleizeState keccak256 parentState) patches).map RejectedPatch.entry ++
      (orderedItems keccak256 S parentState patches).map ReducerInputPatch.entry).Perm
        (patches.map ReducerInputPatch.entry) := by
  let matches? := fun item : ReducerInputPatch =>
    patchMatchesEpochParent item.patch (merkleizeState keccak256 parentState)
  have hwrong : (wrongParentRejects (merkleizeState keccak256 parentState) patches).map
      RejectedPatch.entry =
        (patches.filter fun item => !matches? item).map ReducerInputPatch.entry := by
    rw [wrongParentRejects, List.map_map]
    rfl
  have hsort := (S.perm (comparePatchPriority keccak256) (patches.filter matches?)).map
    ReducerInputPatch.entry
  have hsplit := (List.filter_append_perm matches? patches).map ReducerInputPatch.entry
  rw [List.map_append] at hsplit
  rw [hwrong]
  exact ((hsort.append_left _).trans List.perm_append_comm).trans hsplit

/-- Items that are taken, in an order that sorts back to theirs, are taken again. -/
theorem reduce_taken (keccak256 : Bytes → Digest) (S : CompareSort) {parentState : CortexState}
    {items : List ReducerInputPatch}
    (h : Traced policyAtomsMode threshold parentState before fates loop)
    (hsort : S.sort (comparePatchPriority keccak256) items = taken fates)
    (hparent : ∀ item ∈ items,
      patchMatchesEpochParent item.patch (merkleizeState keccak256 parentState) = true) :
    reduce keccak256 S parentState items threshold policyAtomsMode =
      { newState := loop.current
        patchSetRoot := computePatchSetRoot keccak256 loop.accepted
        patchSetRootHex := bytesToHex (computePatchSetRoot keccak256 loop.accepted).bytes
        newStateRoot := merkleizeState keccak256 loop.current
        newStateRootHex := bytesToHex (merkleizeState keccak256 loop.current).bytes
        accepted := loop.accepted
        rejected := [] } := by
  have hwrong : wrongParentRejects (merkleizeState keccak256 parentState) items = [] := by
    rw [wrongParentRejects, List.map_eq_nil_iff, List.filter_eq_nil_iff]
    intro item hitem
    simp [hparent item hitem]
  rw [reduce, List.filter_eq_self.mpr hparent, hwrong, hsort, h.again]

/-- **The reducer is sound and loses nothing**, on every list of well-formed patches. -/
theorem reduce_sound (keccak256 : Bytes → Digest) (S : CompareSort) (parentState : CortexState)
    (patches : List ReducerInputPatch) (threshold : Int) (policyAtomsMode : Bool)
    (hwf : ∀ item ∈ patches, item.patch.WellFormed) :
    ∃ fates, ReduceSound keccak256 S parentState patches threshold policyAtomsMode fates
      (reduce keccak256 S parentState patches threshold policyAtomsMode) := by
  obtain ⟨fates, hfates, h⟩ := reduceLoop_traced policyAtomsMode threshold parentState
    (wrongParentRejects (merkleizeState keccak256 parentState) patches)
    (orderedItems keccak256 S parentState patches)
  have hpatches := map_patch_eq h.entries
  have happlied := h.applied
  rw [← hpatches] at happlied
  have hmem : ∀ item ∈ taken fates, item ∈ patches ∧
      patchMatchesEpochParent item.patch (merkleizeState keccak256 parentState) = true := by
    intro item hitem
    rw [← mem_orderedItems (S := S), ← hfates]
    exact (taken_sublist fates).subset hitem
  have hsorted : (taken fates).Pairwise fun a b => comparePatchPriority keccak256 a b ≤ 0 := by
    refine List.Pairwise.sublist (taken_sublist fates) ?_
    rw [hfates]
    exact S.sorted _ _ (comparePatchPriority_consistent keccak256)
  have hnodup : (taken fates).Nodup := by
    refine nodup_taken h.disjoint fun item hitem => ?_
    obtain ⟨u, v, huv⟩ := applyEach_mem h.applied item.patch (List.mem_map_of_mem hitem)
    exact (applyPatchOntoCurrent_iff.mp huv).1.indices_ne_nil (hwf item (hmem item hitem).1)
  refine ⟨fates, hfates, h.entries, h.rejected, ?_, ?_, ?_, h.numbered, ?_, happlied, ?_,
    h.overlap, ?_⟩
  · have hloop := taken_refused_perm fates
    have hordered : (fates.map fun f => f.1.entry) =
        (orderedItems keccak256 S parentState patches).map ReducerInputPatch.entry := by
      rw [← hfates, List.map_map]
      rfl
    rw [hordered] at hloop
    refine List.Perm.trans ?_ (wrongParentRejects_partition keccak256 S parentState patches)
    refine List.Perm.trans ?_ (hloop.append_left _)
    show (_ ++ _ : List Entry).Perm _
    rw [reduce]
    dsimp only
    rw [← orderedItems, h.entries, h.rejected, List.map_append, ← List.append_assoc,
      ← List.append_assoc]
    exact List.perm_append_comm.append_right _
  · intro a ha
    have hpatch : a.patch ∈ (taken fates).map ReducerInputPatch.patch := by
      rw [← hpatches]
      exact List.mem_map_of_mem ha
    obtain ⟨item, hitem, heq⟩ := List.mem_map.mp hpatch
    rw [← heq]
    exact of_decide_eq_true (hmem item hitem).2
  · have hpairs : ((taken fates).map ReducerInputPatch.patch).Pairwise
        fun p q => ¬ SharesTarget p q := List.pairwise_map.mpr h.disjoint
    rw [← hpatches] at hpairs
    exact List.pairwise_map.mp hpairs
  · intro k item a hitem ha
    have htake := h.gains k item a hitem ha
    rwa [List.map_take, ← hpatches, ← List.map_take] at htake
  · intro i hne
    obtain ⟨p, hp, hi⟩ := applyEach_word happlied hne
    obtain ⟨a, ha, rfl⟩ := List.mem_map.mp hp
    exact ⟨a, ha, hi⟩
  · intro items hperm hties
    have hsort := S.sort_eq_of_ties (comparePatchPriority_consistent keccak256) hperm hnodup
      hsorted hties
    have hrun := reduce_taken keccak256 S h hsort fun item hitem =>
      (hmem item (hperm.mem_iff.mp hitem)).2
    dsimp only
    rw [hrun]
    exact ⟨rfl, rfl, rfl, rfl⟩

/-! ### A patch of another parent -/

/-- A patch is rejected for overlap exactly when it shares a target with an accepted patch of higher
priority, whatever parent it names. -/
def OverlapExact (keccak256 : Bytes → Digest) (patches : List ReducerInputPatch)
    (out : ReducerOutput) : Prop :=
  ∀ item ∈ patches,
    ⟨item.patch, item.patchBytes, .R01_TARGET_OVERLAP⟩ ∈ out.rejected ↔
      ∃ other ∈ patches, other.entry ∈ out.accepted.map AcceptedPatch.entry ∧
        comparePatchPriority keccak256 other item < 0 ∧ SharesTarget item.patch other.patch

/-- The root of the zero state. -/
def zeroStateRoot : Bytes :=
  (merkleizeState tailDigest zeroState).bytes

/-- Another root. -/
def strayRoot : Bytes :=
  zeroStateRoot.map (· + 1)

theorem strayRoot_ne : strayRoot ≠ zeroStateRoot := by
  have hlen : zeroStateRoot.length = 32 := (merkleizeState tailDigest zeroState).length_bytes
  unfold strayRoot
  cases hroot : zeroStateRoot with
  | nil =>
      rw [hroot] at hlen
      cases hlen
  | cons b rest =>
      intro heq
      have hb : b + 1 = b := (List.cons.inj heq).1
      simp at hb

/-- A patch of another parent, of a low score. -/
def strayInput : ReducerInputPatch :=
  { slotInput strayRoot 9 with scoreDelta := 1 }

/-- A patch of the zero state and one of another parent for the same word. -/
def strayInputs : List ReducerInputPatch :=
  [slotInput zeroStateRoot 7, strayInput]

theorem strayInputs_wellFormed : ∀ item ∈ strayInputs, item.patch.WellFormed := by
  intro item hitem
  simp only [strayInputs, List.mem_cons, List.not_mem_nil, or_false] at hitem
  rcases hitem with rfl | rfl <;> exact ⟨rfl, rfl⟩

/-- `reduce_sound` where a patch of another parent competes. -/
theorem reduce_sound_stray : ∃ fates, ReduceSound tailDigest CompareSort.merge zeroState strayInputs
    0 false fates (reduce tailDigest CompareSort.merge zeroState strayInputs 0 false) :=
  reduce_sound tailDigest CompareSort.merge zeroState strayInputs 0 false strayInputs_wellFormed

/-- The kernel takes the patch of the zero state, which has no target taken yet. -/
theorem reduceStep_slotInput (rejected : List RejectedPatch) :
    reduceStep 0 false ⟨zeroState, [], [], rejected⟩ (slotInput zeroStateRoot 7) = {
      current := zeroState.write (slotPatch zeroStateRoot 7).writes
      accepted := [⟨slotPatch zeroStateRoot 7, slotPatchBytes zeroStateRoot 7, 5, 0⟩]
      acceptedTargets := [32]
      rejected } := by
  have hgain : (slotPatch zeroStateRoot 7).scoreDelta = 5 := rfl
  have heval : evaluateAndApplyOntoCurrent zeroState (slotPatch zeroStateRoot 7)
      (fun _ patch => patch.scoreDelta) 0 false false reduceCodes =
        .ok ⟨zeroState.write (slotPatch zeroStateRoot 7).writes, 5⟩ := by
    unfold evaluateAndApplyOntoCurrent
    simp only [applyPatchOntoCurrent_slotPatch, hgain]
    simp [refuseIf]
  have hfree : ¬ (⟨zeroState, [], [], rejected⟩ : ReduceLoop).Overlaps (slotInput zeroStateRoot 7) := by
    simp [ReduceLoop.Overlaps]
  exact reduceStep_accept hfree heval

theorem reduce_strayInputs :
    (reduce tailDigest CompareSort.merge zeroState strayInputs 0 false).accepted =
        [⟨slotPatch zeroStateRoot 7, slotPatchBytes zeroStateRoot 7, 5, 0⟩] ∧
      (reduce tailDigest CompareSort.merge zeroState strayInputs 0 false).rejected =
        [⟨slotPatch strayRoot 9, slotPatchBytes strayRoot 9, .R03_WRONG_PARENT_ROOT⟩] := by
  have hown : patchMatchesEpochParent (slotInput zeroStateRoot 7).patch
      (merkleizeState tailDigest zeroState) = true := by
    simp [patchMatchesEpochParent, slotInput, slotPatch, zeroStateRoot]
  have hstray : patchMatchesEpochParent strayInput.patch
      (merkleizeState tailDigest zeroState) = false := by
    have hne := strayRoot_ne
    rw [zeroStateRoot] at hne
    simp [patchMatchesEpochParent, strayInput, slotInput, slotPatch, hne]
  have heligible : strayInputs.filter (fun item =>
      patchMatchesEpochParent item.patch (merkleizeState tailDigest zeroState)) =
        [slotInput zeroStateRoot 7] := by
    simp [strayInputs, hown, hstray]
  have hwrong : wrongParentRejects (merkleizeState tailDigest zeroState) strayInputs =
      [⟨slotPatch strayRoot 9, slotPatchBytes strayRoot 9, .R03_WRONG_PARENT_ROOT⟩] := by
    simp [wrongParentRejects, strayInputs, hown, hstray]
    exact ⟨rfl, rfl⟩
  have hsort : CompareSort.merge.sort (comparePatchPriority tailDigest) [slotInput zeroStateRoot 7] =
      [slotInput zeroStateRoot 7] :=
    List.perm_singleton.mp (CompareSort.merge.perm _ _)
  rw [reduce, heligible, hwrong, hsort, reduceLoop, List.foldl_cons, reduceStep_slotInput]
  exact ⟨rfl, rfl⟩

theorem not_overlapExact :
    ¬ ∀ (keccak256 : Bytes → Digest) (S : CompareSort) (parentState : CortexState)
      (patches : List ReducerInputPatch) (threshold : Int) (policyAtomsMode : Bool),
      (∀ item ∈ patches, item.patch.WellFormed) →
        OverlapExact keccak256 patches
          (reduce keccak256 S parentState patches threshold policyAtomsMode) := by
  intro h
  have hexact := h tailDigest CompareSort.merge zeroState strayInputs 0 false strayInputs_wellFormed
    strayInput (List.mem_cons_of_mem _ List.mem_cons_self)
  rw [reduce_strayInputs.1, reduce_strayInputs.2] at hexact
  have hoverlap := hexact.mpr ⟨slotInput zeroStateRoot 7, List.mem_cons_self, List.mem_cons_self,
    by decide, 32, List.mem_cons_self, List.mem_cons_self⟩
  rw [List.mem_singleton] at hoverlap
  exact absurd (congrArg RejectedPatch.reason hoverlap) (by decide)

end CoreTex
