import CoreTex.EpochFrontier.Restart

/-!
# CoreTex.EpochFrontier.Pruning

Pruning an exported frontier state to the ids that are still in the corpus
(`corpus/epoch-rotation.ts`).

Pruning filters both sides of the reserve pointer, so the pointer still stands between the ids
that were activated and the ones that were not (`pruneOrder_eq`). Activation passes over what is
active or retired, so no run, from any state, activates an id twice (`Continues.fresh`).
-/

namespace CoreTex.EpochFrontier

open CoreTex.Lib

variable {sha256 : Text → Bytes} {S : CompareSort} {N : JsNumbers} {p : EpochFrontierParams N}
  {s : FrontierState N}

/-! ### The function -/

/-- `PrunedEpochFrontierState`. -/
structure PrunedEpochFrontierState (N : JsNumbers) where
  state : EpochFrontierRuntimeState N
  prunedOrderIds : List Text
  prunedActiveIds : List Text
  prunedRetiredIds : List Text

/-- The loop over the order from index `idx` on: the ids kept, the ids pruned and the pointer,
which comes down for every pruned id ahead of the old one. -/
def pruneOrder (isKnownId : Text → Bool) (oldPtr idx : Nat) :
    List Text → Nat → List Text × List Text × Nat
  | [], reservePtr => ([], [], reservePtr)
  | id :: rest, reservePtr =>
    if isKnownId id then
      let r := pruneOrder isKnownId oldPtr (idx + 1) rest reservePtr
      (id :: r.1, r.2)
    else
      let r := pruneOrder isKnownId oldPtr (idx + 1) rest
        (if idx < oldPtr then reservePtr - 1 else reservePtr)
      (r.1, id :: r.2.1, r.2.2)

/-- `pruneEpochFrontierState`. -/
def pruneEpochFrontierState (state : EpochFrontierRuntimeState N) (isKnownId : Text → Bool) :
    Except RestoreError (PrunedEpochFrontierState N) :=
  if state.schemaVersion ≠ stateSchema then
    .error (.unsupportedSchema state.schemaVersion)
  else
    let r := pruneOrder isKnownId state.reservePtr 0 state.order state.reservePtr
    .ok
      { state :=
          { state with
            order := r.1
            reservePtr := r.2.2
            active := state.active.filter fun e => isKnownId e.1
            retired := state.retired.filter isKnownId }
        prunedOrderIds := r.2.1
        prunedActiveIds := (state.active.filter fun e => !isKnownId e.1).map Prod.fst
        prunedRetiredIds := state.retired.filter fun id => !isKnownId id }

/-! ### What is left -/

/-- The loop filters the order, and takes off the pointer what it prunes ahead of it. -/
theorem pruneOrder_eq (isKnownId : Text → Bool) (oldPtr idx : Nat) (ids : List Text)
    (reservePtr : Nat) : pruneOrder isKnownId oldPtr idx ids reservePtr =
      (ids.filter isKnownId, ids.filter (fun id => !isKnownId id),
        reservePtr - ((ids.take (oldPtr - idx)).filter fun id => !isKnownId id).length) := by
  induction ids generalizing idx reservePtr with
  | nil => simp [pruneOrder]
  | cons id rest ih =>
      by_cases hahead : idx < oldPtr
      · obtain ⟨k, hk⟩ : ∃ k, oldPtr - idx = k + 1 := ⟨oldPtr - idx - 1, by omega⟩
        have hk' : oldPtr - (idx + 1) = k := by omega
        by_cases hknown : isKnownId id = true
        · simp [pruneOrder, hknown, ih, hk, hk']
        · simp [pruneOrder, hknown, hahead, ih, hk, hk', Nat.sub_sub, Nat.add_comm]
      · have hk : oldPtr - idx = 0 := by omega
        have hk' : oldPtr - (idx + 1) = 0 := by omega
        by_cases hknown : isKnownId id = true
        · simp [pruneOrder, hknown, ih, hk, hk']
        · simp [pruneOrder, hknown, hahead, ih, hk, hk']

/-- The pointer of the pruned order counts what was kept ahead of the old one. -/
theorem length_filter_take {ids : List Text} {ptr : Nat} (hptr : ptr ≤ ids.length)
    (isKnownId : Text → Bool) :
    ptr - ((ids.take ptr).filter fun id => !isKnownId id).length =
      ((ids.take ptr).filter isKnownId).length := by
  have hparts := List.length_eq_length_filter_add (l := ids.take ptr) isKnownId
  rw [List.length_take, Nat.min_eq_left hptr] at hparts
  omega

/-- The pruned state. -/
def prunedState (state : EpochFrontierRuntimeState N) (isKnownId : Text → Bool) :
    EpochFrontierRuntimeState N :=
  { state with
    order := state.order.filter isKnownId
    reservePtr := ((state.order.take state.reservePtr).filter isKnownId).length
    active := state.active.filter fun e => isKnownId e.1
    retired := state.retired.filter isKnownId }

theorem pruneEpochFrontierState_eq {state : EpochFrontierRuntimeState N}
    (hschema : state.schemaVersion = stateSchema) (hptr : state.reservePtr ≤ state.order.length)
    (isKnownId : Text → Bool) : pruneEpochFrontierState state isKnownId = .ok
      { state := prunedState state isKnownId
        prunedOrderIds := state.order.filter fun id => !isKnownId id
        prunedActiveIds := (state.active.filter fun e => !isKnownId e.1).map Prod.fst
        prunedRetiredIds := state.retired.filter fun id => !isKnownId id } := by
  rw [pruneEpochFrontierState, if_neg (not_not_intro hschema), pruneOrder_eq]
  simp only [Nat.sub_zero, length_filter_take hptr]
  rfl

/-- The order before the pruned pointer is what is kept of the order before the old one. -/
theorem take_filter_take (isKnownId : Text → Bool) (ids : List Text) (ptr : Nat) :
    (ids.filter isKnownId).take ((ids.take ptr).filter isKnownId).length =
      (ids.take ptr).filter isKnownId := by
  conv_lhs => rw [← List.take_append_drop ptr ids, List.filter_append]
  rw [List.take_append_drop, List.take_left]

theorem drop_filter_take (isKnownId : Text → Bool) (ids : List Text) (ptr : Nat) :
    (ids.filter isKnownId).drop ((ids.take ptr).filter isKnownId).length =
      (ids.drop ptr).filter isKnownId := by
  conv_lhs => rw [← List.take_append_drop ptr ids, List.filter_append]
  rw [List.take_append_drop, List.drop_left]

/-- Pruning twice keeps what both sets know. -/
theorem prunedState_prunedState (state : EpochFrontierRuntimeState N) (isA isB : Text → Bool) :
    prunedState (prunedState state isA) isB = prunedState state fun id => isA id && isB id := by
  have hand : ∀ ids : List Text, (ids.filter isA).filter isB =
      ids.filter fun id => isA id && isB id := fun ids => by
    rw [List.filter_filter]
    exact List.filter_congr fun id _ => Bool.and_comm _ _
  have hactive : (state.active.filter fun e => isA e.1).filter (fun e => isB e.1) =
      state.active.filter fun e => isA e.1 && isB e.1 := by
    rw [List.filter_filter]
    exact List.filter_congr fun e _ => Bool.and_comm _ _
  simp only [prunedState, take_filter_take, hand, hactive]

/-! ### Activation passes over what was activated -/

/-- Active or retired: activated at some time. -/
def FrontierState.Held (s : FrontierState N) (id : Text) : Prop :=
  id ∈ s.activeIds ∨ id ∈ s.retired

/-- What `r` activates is new to `s`, each id once, and held from then on. -/
structure Fresh (s : FrontierState N) (activated : List Text) (s' : FrontierState N) : Prop where
  nodup : activated.Nodup
  new : ∀ id ∈ activated, ¬ s.Held id
  held : ∀ id, s.Held id ∨ id ∈ activated → s'.Held id

theorem Fresh.refl (s : FrontierState N) : Fresh s [] s :=
  ⟨List.nodup_nil, fun _ hid => absurd hid List.not_mem_nil,
    fun _ hid => hid.resolve_right List.not_mem_nil⟩

theorem Fresh.trans {s s' s'' : FrontierState N} {ids ids' : List Text} (h : Fresh s ids s')
    (h' : Fresh s' ids' s'') : Fresh s (ids ++ ids') s'' := by
  refine ⟨?_, ?_, ?_⟩
  · refine List.nodup_append.mpr ⟨h.nodup, h'.nodup, ?_⟩
    intro a ha b hb hab
    subst hab
    exact h'.new a hb (h.held a (.inr ha))
  · intro id hid hheld
    rcases List.mem_append.mp hid with hid | hid
    · exact h.new id hid hheld
    · exact h'.new id hid (h.held id (.inl hheld))
  · intro id hid
    rw [List.mem_append, ← or_assoc] at hid
    exact h'.held id (hid.imp_left (h.held id))

/-- Nothing is activated, and nothing that was held is lost. -/
theorem Fresh.of_held {s s' : FrontierState N} (h : ∀ id, s.Held id → s'.Held id) :
    Fresh s [] s' :=
  ⟨List.nodup_nil, fun _ hid => absurd hid List.not_mem_nil,
    fun id hid => h id (hid.resolve_right List.not_mem_nil)⟩

/-- The activation loop goes on from what it has activated. -/
theorem activateLoop_fresh (s : FrontierState N) (n epoch : Int) (activated : List Text) :
    ∃ ids, (activateLoop n epoch s activated).2 = activated ++ ids ∧
      Fresh s ids (activateLoop n epoch s activated).1 := by
  fun_induction activateLoop n epoch s activated with
  | case1 s activated hmore id next hnew ih =>
      obtain ⟨ids, hids, hfresh⟩ := ih
      refine ⟨id :: ids, by rw [hids, List.append_assoc]; rfl, ?_⟩
      have hactive : ¬ id ∈ s.activeIds := fun hmem => hnew.1 (has_iff_mem.mpr hmem)
      have hone : Fresh s [id] { next with
          active := s.active.set id epoch
          cumulativeActivated := s.cumulativeActivated + 1 } := by
        refine ⟨List.nodup_singleton id, ?_, ?_⟩
        · intro id' hid' hheld
          rw [List.mem_singleton.mp hid'] at hheld
          exact hheld.elim hactive hnew.2
        · intro id' hid'
          rcases hid' with (hid' | hid') | hid'
          · exact .inl (mem_keys_set.mpr (.inl hid'))
          · exact .inr hid'
          · exact .inl (mem_keys_set.mpr (.inr (List.mem_singleton.mp hid')))
      exact hone.trans hfresh
  | case2 s activated hmore id next hseen ih =>
      obtain ⟨ids, hids, hfresh⟩ := ih
      exact ⟨ids, hids, ⟨hfresh.nodup, hfresh.new, hfresh.held⟩⟩
  | case3 s activated hdone => exact ⟨[], (List.append_nil _).symm, Fresh.refl s⟩

/-- Retirement moves an id between the two sides. -/
theorem held_retireId (s : FrontierState N) (id : Text) {id' : Text} (h : s.Held id') :
    (retireId s id).Held id' := by
  rcases h with hactive | hretired
  · by_cases hid : id' = id
    · exact .inr (mem_addRetired.mpr (.inr hid))
    · obtain ⟨e, he, hkey⟩ := List.mem_map.mp hactive
      refine .inl (List.mem_map.mpr ⟨e, ?_, hkey⟩)
      exact List.mem_filter.mpr ⟨he, decide_eq_true (hkey ▸ hid)⟩
  · exact .inr (mem_addRetired.mpr (.inl hretired))

theorem held_retire (ids : List Text) (s : FrontierState N) {id : Text} (h : s.Held id) :
    (ids.foldl retireId s).Held id := by
  induction ids generalizing s with
  | nil => exact h
  | cons id' ids ih => exact ih _ (held_retireId s id' h)

theorem finishStep_fresh (sha256 : Text → Bytes) (S : CompareSort) (p : EpochFrontierParams N)
    (n epoch : Int) (ret : Nat) (rate : N.Num) (s : FrontierState N) :
    let r := finishStep sha256 S p n epoch ret rate s
    Fresh s r.activatedIds r.state := by
  obtain ⟨ids, hids, hfresh⟩ := activateLoop_fresh s n epoch []
  rw [List.nil_append] at hids
  have hactivated : (finishStep sha256 S p n epoch ret rate s).activatedIds = ids := hids
  exact ⟨hactivated ▸ hfresh.nodup, fun id hid => hfresh.new id (hactivated ▸ hid),
    fun id hid => hfresh.held id (hactivated ▸ hid)⟩

/-- **A step activates only ids that were never activated**, in any state. -/
theorem stepEpoch_fresh (sha256 : Text → Bytes) (S : CompareSort) (p : EpochFrontierParams N)
    (K : Int) (s : FrontierState N) (epoch : Int)
    (prevHonestAccepts prevQualityAttempts : Option N.Num) :
    let r := stepEpoch sha256 S p K s epoch prevHonestAccepts prevQualityAttempts
    Fresh s r.activatedIds r.state := by
  have haged := Fresh.of_held fun _ hid => held_retire (agedIds p s epoch) s hid
  intro r
  have hr : r = stepEpoch sha256 S p K s epoch prevHonestAccepts prevQualityAttempts := rfl
  rw [stepEpoch] at hr
  split at hr
  · have hstart : Fresh s [] { s with initialized := true } := Fresh.of_held fun _ hid => hid
    rw [hr]
    exact hstart.trans (finishStep_fresh sha256 S p K epoch 0 (N.lit 0) _)
  · dsimp only at hr
    split at hr
    · rw [hr]
      exact haged.trans (finishStep_fresh sha256 S p _ epoch _ _ _)
    · generalize (agedIds p s epoch).length = aged at hr
      generalize (agedIds p s epoch).foldl retireId s = s₁ at haged hr
      have hewma : Fresh s₁ []
          { s₁ with ewmaAccepts := nextEwma p s₁.ewmaAccepts prevHonestAccepts } :=
        Fresh.of_held fun _ hid => hid
      have holdest := fun (s : FrontierState N) (rate : N.Num) =>
        Fresh.of_held fun _ hid => held_retire (retireOldest S rate s).2 s hid
      rw [hr]
      exact haged.trans (hewma.trans
        ((holdest _ _).trans (finishStep_fresh sha256 S p _ epoch _ _ _)))

theorem addReserveIds_held (newIds : List Text) (familyOfFn : Text → Option Text)
    {id : Text} (h : s.Held id) : (addReserveIds sha256 S p newIds familyOfFn s).1.Held id := by
  rw [addReserveIds]
  dsimp only
  split
  · exact h
  · exact h

variable (sha256 S p)

/-- Runs of steps and injections from a state, with the ids they activate. -/
inductive Continues (K : Int) (s : FrontierState N) : List Text → FrontierState N → Prop
  | refl : Continues K s [] s
  | step {activated : List Text} {s' : FrontierState N} (h : Continues K s activated s')
      (epoch : Int) (prevHonestAccepts prevQualityAttempts : Option N.Num) :
      Continues K s
        (activated ++ (stepEpoch sha256 S p K s' epoch prevHonestAccepts
          prevQualityAttempts).activatedIds)
        (stepEpoch sha256 S p K s' epoch prevHonestAccepts prevQualityAttempts).state
  | add {activated : List Text} {s' : FrontierState N} (h : Continues K s activated s')
      (newIds : List Text) (familyOfFn : Text → Option Text) :
      Continues K s activated (addReserveIds sha256 S p newIds familyOfFn s').1

variable {sha256 S p}

/-- **No run activates an id twice**, or one that was activated before it. -/
theorem Continues.fresh {K : Int} {activated : List Text} {s' : FrontierState N}
    (h : Continues sha256 S p K s activated s') : Fresh s activated s' := by
  induction h with
  | refl => exact Fresh.refl s
  | step h epoch accepts attempts ih =>
      exact ih.trans (stepEpoch_fresh sha256 S p K _ epoch accepts attempts)
  | @add activated s' h newIds familyOfFn ih =>
      exact ⟨ih.nodup, ih.new, fun id hid => addReserveIds_held newIds familyOfFn (ih.held id hid)⟩

/-! ### Pruning a reachable state -/

/-- What pruning the exported state of a configuration to the known ids gives. -/
structure PrunedLaw (sha256 : Text → Bytes) (S : CompareSort) (p : EpochFrontierParams N)
    (c : Config N) (isKnownId : Text → Bool) (r : PrunedEpochFrontierState N) : Prop where
  order : r.state.order = c.state.order.filter isKnownId
  before : ((r.state.active.map Prod.fst) ++ r.state.retired).Perm
    (r.state.order.take r.state.reservePtr)
  before_nodup : (r.state.order.take r.state.reservePtr).Nodup
  active : r.state.active = c.state.active.filter fun e => isKnownId e.1
  retired : r.state.retired = c.state.retired.filter isKnownId
  after : ∀ id, id ∈ r.state.order.drop r.state.reservePtr ↔
    id ∈ c.supplied ∧ isKnownId id = true ∧ id ∉ c.activations
  prunedOrderIds : r.prunedOrderIds = c.state.order.filter fun id => !isKnownId id
  prunedActiveIds : r.prunedActiveIds = c.state.activeIds.filter fun id => !isKnownId id
  prunedRetiredIds : r.prunedRetiredIds = c.state.retired.filter fun id => !isKnownId id
  accepted : ∀ ids, (∀ id ∈ c.state.order, isKnownId id = true → id ∈ ids) →
    ∃ fr, restoreEpochFrontier (p.withIds ids) r.state = .ok fr ∧ exportState fr.state = r.state ∧
      ∀ activated s', Continues sha256 S (p.withIds ids) fr.K fr.state activated s' →
        activated.Nodup ∧ ∀ id ∈ activated, id ∉ r.state.order.take r.state.reservePtr
  again : ∀ isKnownId' : Text → Bool, ∃ r₁ r₂,
    pruneEpochFrontierState r.state isKnownId' = .ok r₁ ∧
    pruneEpochFrontierState (exportState c.state) (fun id => isKnownId id && isKnownId' id) =
      .ok r₂ ∧ r₁.state = r₂.state

/-- A pruned state restores to itself. -/
theorem restore_prunedState (h : Rotates s) (isKnownId : Text → Bool) {ids : List Text}
    (hids : ∀ id ∈ s.order, isKnownId id = true → id ∈ ids) :
    ∃ fr, restoreEpochFrontier (p.withIds ids) (prunedState (exportState s) isKnownId) = .ok fr ∧
      exportState fr.state = prunedState (exportState s) isKnownId := by
  have hsides := h.nodup_activated
  have hsub : ∀ id, id ∈ s.activeIds ∨ id ∈ s.retired → id ∈ s.order := fun id hid =>
    (List.take_sublist _ _).subset (h.activated.mem_iff.mp (List.mem_append.mpr hid))
  have horder : checkKnown ids "order" (s.order.filter isKnownId) = .ok () :=
    checkKnown_of_subset (fun id hid => hids id (List.mem_filter.mp hid).1
      (List.mem_filter.mp hid).2) _
  have hactive : checkKnown ids "active"
      ((s.active.filter fun e => isKnownId e.1).map Prod.fst) = .ok () := by
    refine checkKnown_of_subset (fun id hid => ?_) _
    obtain ⟨e, he, hkey⟩ := List.mem_map.mp hid
    subst hkey
    obtain ⟨hmem, hknown⟩ := List.mem_filter.mp he
    exact hids e.1 (hsub e.1 (.inl (List.mem_map_of_mem hmem))) hknown
  have hretired : checkKnown ids "retired" (s.retired.filter isKnownId) = .ok () :=
    checkKnown_of_subset (fun id hid => hids id (hsub id (.inr (List.mem_filter.mp hid).1))
      (List.mem_filter.mp hid).2) _
  have hmap : mapOf (s.active.filter fun e => isKnownId e.1) =
      s.active.filter fun e => isKnownId e.1 :=
    mapOf_eq_self ((List.nodup_append.mp hsides).1.sublist (List.filter_sublist.map Prod.fst))
  have hset : setOf (s.retired.filter isKnownId) = s.retired.filter isKnownId :=
    setOf_eq_self ((List.nodup_append.mp hsides).2.1.sublist List.filter_sublist)
  refine ⟨⟨windowSize p (s.order.filter isKnownId),
    { order := s.order.filter isKnownId
      reservePtr := ((s.order.take s.reservePtr).filter isKnownId).length
      active := s.active.filter fun e => isKnownId e.1
      retired := s.retired.filter isKnownId
      cumulativeActivated := s.cumulativeActivated
      cumulativeRetired := s.cumulativeRetired
      initialized := s.initialized
      injectedSinceLastStep := s.injectedSinceLastStep
      ewmaAccepts := s.ewmaAccepts }⟩, ?_, rfl⟩
  rw [restoreEpochFrontier, if_neg (fun hne => hne rfl)]
  simp only [prunedState, exportState, EpochFrontierParams.withIds, horder, hactive, hretired,
    hmap, hset]
  rfl

/-- Filtering the entries of a map and its keys. -/
theorem map_filter_keys (m : JsMap Text Int) (f : Text → Bool) :
    (m.filter fun e => f e.1).map Prod.fst = (m.map Prod.fst).filter f := by
  rw [List.filter_map]
  rfl

/-- **Pruning keeps a reachable state usable**: over every run whose injections repeat no new id,
from distinct ids. -/
theorem pruneEpochFrontierState_reachable {N : JsNumbers} (sha256 : Text → Bytes)
    (S : CompareSort) (p : EpochFrontierParams N) (hdistinct : p.evalHiddenIds.Nodup)
    (c : Config N) (hrun : Run sha256 S p (made sha256 S p) c) (isKnownId : Text → Bool) :
    ∃ r, pruneEpochFrontierState (exportState c.state) isKnownId = .ok r ∧
      PrunedLaw sha256 S p c isKnownId r := by
  have hsound := hrun.sound (sound_made hdistinct)
  have hr := hsound.rotates
  have hinvariant := hsound.invariant
  have hprune := @pruneEpochFrontierState_eq N (exportState c.state) rfl hr.ptr_le
  have hbefore : ((c.state.active.filter fun e => isKnownId e.1).map Prod.fst ++
      c.state.retired.filter isKnownId).Perm
      ((c.state.order.take c.state.reservePtr).filter isKnownId) := by
    rw [map_filter_keys, ← List.filter_append]
    exact hr.activated.filter isKnownId
  have htake := take_filter_take isKnownId c.state.order c.state.reservePtr
  refine ⟨_, hprune isKnownId, ?_⟩
  constructor
  · rfl
  · exact htake.symm ▸ hbefore
  · exact htake.symm ▸ (hr.nodup.sublist (List.take_sublist _ _)).filter isKnownId
  · rfl
  · rfl
  · intro id
    have hreserve : id ∈ c.state.reserve ↔ id ∈ c.supplied ∧ id ∉ c.activations := by
      rw [← hinvariant.together, hinvariant.activations]
      constructor
      · intro hid
        refine ⟨.inr (.inr hid), ?_⟩
        intro hheld
        exact hheld.elim (fun ha => hinvariant.active_reserve ha hid)
          fun hb => hinvariant.retired_reserve hb hid
      · intro ⟨hid, hnot⟩
        rw [← or_assoc] at hid
        exact hid.resolve_left hnot
    show id ∈ (c.state.order.filter isKnownId).drop _ ↔ _
    have hdrop := drop_filter_take isKnownId c.state.order c.state.reservePtr
    rw [show (prunedState (exportState c.state) isKnownId).reservePtr =
      ((c.state.order.take c.state.reservePtr).filter isKnownId).length from rfl, hdrop,
      List.mem_filter, ← FrontierState.reserve, hreserve]
    tauto
  · rfl
  · exact map_filter_keys c.state.active fun id => !isKnownId id
  · rfl
  · intro ids hids
    obtain ⟨fr, hrestore, hexport⟩ := restore_prunedState (p := p) hr isKnownId hids
    refine ⟨fr, hrestore, hexport, ?_⟩
    intro activated s' hcontinues
    have hfresh := hcontinues.fresh
    refine ⟨hfresh.nodup, ?_⟩
    intro id hid hbeforePtr
    have hkept : id ∈ (c.state.active.filter fun e => isKnownId e.1).map Prod.fst ++
        c.state.retired.filter isKnownId :=
      hbefore.mem_iff.mpr (htake ▸ hbeforePtr)
    have hactive := congrArg EpochFrontierRuntimeState.active hexport
    have hretired := congrArg EpochFrontierRuntimeState.retired hexport
    refine hfresh.new id hid ?_
    rw [FrontierState.Held, FrontierState.activeIds]
    rw [show fr.state.active = _ from hactive, show fr.state.retired = _ from hretired]
    exact List.mem_append.mp hkept
  · intro isKnownId'
    have hptr : (prunedState (exportState c.state) isKnownId).reservePtr ≤
        (prunedState (exportState c.state) isKnownId).order.length :=
      ((List.take_sublist _ _).filter isKnownId).length_le
    exact ⟨_, _, pruneEpochFrontierState_eq rfl hptr isKnownId', hprune _,
      prunedState_prunedState _ isKnownId isKnownId'⟩

/-- `pruneEpochFrontierState_reachable` after a step and an injection, with one id gone. -/
theorem pruneEpochFrontierState_reachable_sample : ∃ c, Run (fun _ => []) .merge sampleParams
    (made (fun _ => []) .merge sampleParams) c ∧ c.supplied = [[97], [98], [99]] ∧
      ∃ r, pruneEpochFrontierState (exportState c.state) (fun id => decide (id ≠ [97])) = .ok r ∧
        PrunedLaw (fun _ => []) .merge sampleParams c (fun id => decide (id ≠ [97])) r := by
  have hrefl : Run (fun _ => []) .merge sampleParams (made (fun _ => []) .merge sampleParams)
      (made (fun _ => []) .merge sampleParams) := .refl _
  have hrun := (hrefl.step 0 none none).add [[99]] (fun _ => none) (by decide)
  exact ⟨_, hrun, rfl, pruneEpochFrontierState_reachable (fun _ => []) .merge sampleParams
    nodup_sampleParams _ hrun _⟩

/-- One id and a window of one. -/
def oneIdParams : EpochFrontierParams sampleNumbers :=
  { sampleParams with evalHiddenIds := [[97]] }

/-- A new id that is injected twice and then activated stays in the reserve. -/
theorem pruneEpochFrontierState_repeated :
    let s := (addReserveIds (fun _ => []) .merge oneIdParams [[99], [99]] (fun _ => none)
      (made (fun _ => []) .merge oneIdParams).state).1
    let r := stepEpoch (fun _ => []) .merge oneIdParams (madeWindow (fun _ => []) .merge oneIdParams)
      s 0 none none
    ∃ pruned, pruneEpochFrontierState (exportState r.state) (fun _ => true) = .ok pruned ∧
      [99] ∈ r.activatedIds ∧
      [99] ∈ pruned.state.order.drop pruned.state.reservePtr := by
  intro s r
  have hmade : interleaveFamilies (fun _ => []) .merge oneIdParams.seedText oneIdParams.familyOf
      oneIdParams.evalHiddenIds = [[97]] :=
    List.perm_singleton.mp (interleaveFamilies_perm _ _ _)
  have hsegment : interleaveFamilies (fun _ => []) .merge oneIdParams.seedText (fun _ => none)
      [[99], [99]] = [[99], [99]] :=
    List.perm_replicate.mp (interleaveFamilies_perm _ _ (List.replicate 2 [99]))
  have hwindow : madeWindow (fun _ => []) .merge oneIdParams = 1 := by
    rw [madeWindow, makeEpochFrontier]
    dsimp only
    rw [hmade]
    rfl
  have hs : s =
      { order := [[99], [99], [97]], reservePtr := 0, active := [], retired := []
        cumulativeActivated := 0, cumulativeRetired := 0, initialized := false
        injectedSinceLastStep := 2, ewmaAccepts := none } := by
    show (addReserveIds _ _ _ _ _ _).1 = _
    rw [addReserveIds, made, makeEpochFrontier]
    dsimp only
    rw [hmade]
    simp [JsMap.has, JsMap.get, hsegment]
  have hr : r = stepEpoch (fun _ => []) .merge oneIdParams
      (madeWindow (fun _ => []) .merge oneIdParams) s 0 none none := rfl
  rw [hwindow, hs, stepEpoch, if_pos (by decide), finishStep, activateNext, activateLoop,
    dif_pos (by decide)] at hr
  dsimp only at hr
  rw [if_pos (by decide), activateLoop, dif_neg (by decide)] at hr
  rw [hr]
  exact ⟨_, rfl, List.mem_singleton_self _, List.mem_cons_self⟩

end CoreTex.EpochFrontier
