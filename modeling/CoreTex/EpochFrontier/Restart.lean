import CoreTex.EpochFrontier.Invariant
import CoreTex.Lib.Except
import CoreTex.Lib.Machine

/-!
# CoreTex.EpochFrontier.Restart

Export and import of an epoch frontier: what a frontier that is made from an exported state
answers, against the frontier that exported it.
-/

namespace CoreTex.EpochFrontier

open CoreTex.Lib

variable (sha256 : Text → Bytes) (S : CompareSort) {N : JsNumbers} (p : EpochFrontierParams N)

/-- The parameters with other evaluated ids. -/
def EpochFrontierParams.withIds (ids : List Text) : EpochFrontierParams N :=
  { p with evalHiddenIds := ids }

/-- One call on a frontier, with its reply and the state it exports afterwards. -/
def reply (fr : Frontier N) (c : Call N) :
    Frontier N × (Reply N × EpochFrontierRuntimeState N) :=
  let r := call sha256 S p fr.K fr.state c
  (⟨fr.K, r.1⟩, r.2, exportState r.1)

/-- The frontiers that can be built: fresh ones, ones restored from a given state, and what calls
make of them. `foreign` are ids that a given state lists as active or retired but not in its
order; exported states have none. -/
inductive Built (foreign : List Text) : Frontier N → Prop
  | make (ids : List Text) : Built foreign (makeEpochFrontier sha256 S (p.withIds ids))
  | restore {ids : List Text} {initialState : EpochFrontierRuntimeState N} {fr : Frontier N}
      (hids : ∀ id, id ∈ initialState.active.map Prod.fst ∨ id ∈ initialState.retired →
        id ∈ initialState.order ∨ id ∈ foreign)
      (h : restoreEpochFrontier (p.withIds ids) initialState = .ok fr) : Built foreign fr
  | call {fr : Frontier N} (h : Built foreign fr) (c : Call N) :
      Built foreign (reply sha256 S p fr c).1

/-! ### What every frontier keeps -/

/-- The active map and the retired set hold no id twice, and no id that is not known. -/
structure Kept (foreign : List Text) (s : FrontierState N) : Prop where
  active : s.activeIds.Nodup
  retired : s.retired.Nodup
  known : ∀ id, id ∈ s.activeIds ∨ id ∈ s.retired → id ∈ s.order ∨ id ∈ foreign

variable {sha256 S p} {foreign : List Text} {s : FrontierState N}

theorem mem_keys_set {m : JsMap Text Int} {key id : Text} {value : Int} :
    id ∈ (m.set key value).map Prod.fst ↔ id ∈ m.map Prod.fst ∨ id = key := by
  rw [keys_set]
  by_cases hkey : key ∈ m.map Prod.fst
  · rw [if_pos hkey]
    exact ⟨.inl, fun h => h.elim (fun h => h) fun h => h ▸ hkey⟩
  · rw [if_neg hkey, List.mem_append, List.mem_singleton]

theorem mem_addRetired {retired : List Text} {id id' : Text} :
    id' ∈ addRetired retired id ↔ id' ∈ retired ∨ id' = id := by
  rw [addRetired]
  by_cases hid : id ∈ retired
  · rw [if_pos hid]
    exact ⟨.inl, fun h => h.elim (fun h => h) fun h => h ▸ hid⟩
  · rw [if_neg hid, List.mem_append, List.mem_singleton]

theorem nodup_addRetired {retired : List Text} (h : retired.Nodup) (id : Text) :
    (addRetired retired id).Nodup := by
  rw [addRetired]
  by_cases hid : id ∈ retired
  · rwa [if_pos hid]
  · rw [if_neg hid]
    exact h.append (List.nodup_singleton id) (List.disjoint_singleton.mpr hid)

theorem Kept.activateLoop (h : Kept foreign s) (n epoch : Int) (activated : List Text) :
    let r := activateLoop n epoch s activated
    Kept foreign r.1 ∧ r.1.initialized = s.initialized := by
  induction hleft : s.order.length - s.reservePtr generalizing s activated with
  | zero =>
      rw [EpochFrontier.activateLoop, dif_neg (by omega)]
      exact ⟨h, rfl⟩
  | succ left ih =>
      rw [EpochFrontier.activateLoop]
      by_cases hmore : (activated.length : Int) < n ∧ s.reservePtr < s.order.length
      · have hless : s.order.length - (s.reservePtr + 1) = left := by omega
        have hnext : Kept foreign { s with reservePtr := s.reservePtr + 1 } :=
          ⟨h.active, h.retired, h.known⟩
        have hset : Kept foreign
            { s with
              reservePtr := s.reservePtr + 1
              active := s.active.set (s.order.get ⟨s.reservePtr, hmore.2⟩) epoch
              cumulativeActivated := s.cumulativeActivated + 1 } := by
          refine ⟨nodup_keys_set h.active _ _, h.retired, fun id hid => ?_⟩
          rcases hid with hid | hid
          · rcases mem_keys_set.mp hid with hid | rfl
            · exact h.known id (.inl hid)
            · exact .inl (List.get_mem _ _)
          · exact h.known id (.inr hid)
        rw [dif_pos hmore]
        dsimp only
        split
        · exact ih hset _ hless
        · exact ih hnext _ hless
      · rw [dif_neg hmore]
        exact ⟨h, rfl⟩

theorem Kept.retireId (h : Kept foreign s) {id : Text} (hid : id ∈ s.order ∨ id ∈ foreign) :
    Kept foreign (retireId s id) := by
  have hsub : ((EpochFrontier.retireId s id).activeIds).Sublist s.activeIds :=
    List.filter_sublist.map _
  refine ⟨h.active.sublist hsub, nodup_addRetired h.retired id, fun id' hid' => ?_⟩
  rcases hid' with hactive | hretired
  · exact h.known id' (.inl (hsub.subset hactive))
  · rcases mem_addRetired.mp hretired with hretired | rfl
    · exact h.known id' (.inr hretired)
    · exact hid

theorem Kept.retire (h : Kept foreign s) (ids : List Text)
    (hids : ∀ id ∈ ids, id ∈ s.order ∨ id ∈ foreign) :
    Kept foreign (ids.foldl EpochFrontier.retireId s) := by
  induction ids generalizing s with
  | nil => exact h
  | cons id ids ih =>
      exact ih (h.retireId (hids id List.mem_cons_self)) fun id' hid' =>
        hids id' (List.mem_cons_of_mem _ hid')

theorem Kept.finishStep (sha256 : Text → Bytes) (S : CompareSort) (p : EpochFrontierParams N)
    (h : Kept foreign s) (n epoch : Int) (ret : Nat) (rate : N.Num) :
    let r := finishStep sha256 S p n epoch ret rate s
    Kept foreign r.state ∧ r.state.initialized = s.initialized := by
  obtain ⟨⟨hactive, hretired, hknown⟩, hinit⟩ := h.activateLoop n epoch []
  exact ⟨⟨hactive, hretired, hknown⟩, hinit⟩

/-- Aged ids are active. -/
theorem agedIds_subset (epoch : Int) {id : Text} (hid : id ∈ agedIds p s epoch) :
    id ∈ s.activeIds := by
  unfold agedIds at hid
  dsimp only at hid
  split at hid
  · exact (List.filter_sublist.map _).subset hid
  · exact absurd hid List.not_mem_nil

/-- Oldest ids are active. -/
theorem retireOldest_subset (rate : N.Num) {id : Text} (hid : id ∈ (retireOldest S rate s).2) :
    id ∈ s.activeIds := by
  have hsub := ((List.take_sublist _ _).map Prod.fst).subset hid
  exact ((S.perm _ s.active).map Prod.fst).mem_iff.mp hsub

/-- A step keeps the shape, and leaves the frontier initialised. -/
theorem Kept.stepEpoch (sha256 : Text → Bytes) (S : CompareSort) (p : EpochFrontierParams N)
    (h : Kept foreign s) (K epoch : Int)
    (prevHonestAccepts prevQualityAttempts : Option N.Num) :
    let r := stepEpoch sha256 S p K s epoch prevHonestAccepts prevQualityAttempts
    Kept foreign r.state ∧ r.state.initialized = true := by
  rw [EpochFrontier.stepEpoch]
  by_cases hinit : s.initialized = true
  · rw [if_neg (not_not.mpr hinit)]
    dsimp only
    have haged := h.retire (agedIds p s epoch)
      fun id hid => h.known id (.inl (agedIds_subset epoch hid))
    obtain ⟨-, -, hinit₁, -⟩ := retire_frame (agedIds p s epoch) s
    generalize (agedIds p s epoch).length = aged
    generalize (agedIds p s epoch).foldl EpochFrontier.retireId s = s₁ at haged hinit₁ ⊢
    split
    · obtain ⟨hkept, hinit'⟩ := haged.finishStep sha256 S p
        aged epoch aged (N.lit 0)
      exact ⟨hkept, hinit'.trans (hinit₁.trans hinit)⟩
    · have hewma : Kept foreign
          { s₁ with ewmaAccepts := nextEwma p s₁.ewmaAccepts prevHonestAccepts } :=
        ⟨haged.active, haged.retired, haged.known⟩
      generalize hs₂ : ({ s₁ with
        ewmaAccepts := nextEwma p s₁.ewmaAccepts prevHonestAccepts } : FrontierState N) = s₂
        at hewma ⊢
      have hinit₂ : s₂.initialized = s₁.initialized := by rw [← hs₂]
      generalize cappedRate p (p.mode.getD .off) s₂ (modeRate p (p.mode.getD .off) s₂
        prevHonestAccepts prevQualityAttempts) = rate
      have holdest := hewma.retire (retireOldest S rate s₂).2
        fun id hid => hewma.known id (.inl (retireOldest_subset rate hid))
      obtain ⟨-, -, hinit₃, -⟩ := retire_frame (retireOldest S rate s₂).2 s₂
      obtain ⟨hkept, hinit'⟩ := holdest.finishStep sha256 S p
        ((aged + (retireOldest S rate s₂).2.length : Nat) : Int) epoch
        (aged + (retireOldest S rate s₂).2.length) rate
      exact ⟨hkept, hinit'.trans (hinit₃.trans (hinit₂.trans (hinit₁.trans hinit)))⟩
  · rw [if_pos hinit]
    have hstart : Kept foreign { s with initialized := true } := ⟨h.active, h.retired, h.known⟩
    exact hstart.finishStep sha256 S p K epoch 0 (N.lit 0)

theorem Kept.addReserveIds (sha256 : Text → Bytes) (S : CompareSort)
    (p : EpochFrontierParams N) (h : Kept foreign s) (newIds : List Text)
    (familyOfFn : Text → Option Text) :
    let r := addReserveIds sha256 S p newIds familyOfFn s
    Kept foreign r.1 ∧ r.1.initialized = s.initialized := by
  rw [EpochFrontier.addReserveIds]
  dsimp only
  split
  · exact ⟨h, rfl⟩
  · refine ⟨⟨h.active, h.retired, fun id hid => (h.known id hid).imp_left fun horder => ?_⟩, rfl⟩
    rw [← List.take_append_drop s.reservePtr s.order] at horder
    simp only [List.mem_append] at horder ⊢
    exact horder.imp_left .inl

/-- A call keeps the shape; only a step changes whether the frontier is initialised. -/
theorem Kept.call (sha256 : Text → Bytes) (S : CompareSort) (p : EpochFrontierParams N)
    (h : Kept foreign s) (K : Int) (c : Call N) :
    let r := call sha256 S p K s c
    Kept foreign r.1 ∧ (s.initialized = true → r.1.initialized = true) := by
  cases c with
  | step epoch accepts attempts =>
      obtain ⟨hkept, hinit⟩ := h.stepEpoch sha256 S p K epoch accepts
        attempts
      exact ⟨hkept, fun _ => hinit⟩
  | add newIds familyOfFn =>
      obtain ⟨hkept, hinit⟩ := h.addReserveIds sha256 S p newIds
        familyOfFn
      exact ⟨hkept, hinit.trans⟩

/-! ### Restoring -/

theorem nodup_keys_mapOf (entries : List (Text × Int)) :
    ((mapOf entries).map Prod.fst).Nodup ∧
      ∀ id, id ∈ (mapOf entries).map Prod.fst ↔ id ∈ entries.map Prod.fst := by
  induction entries using List.reverseRecOn with
  | nil => exact ⟨List.nodup_nil, fun _ => .rfl⟩
  | append_singleton entries e ih =>
      rw [mapOf, List.foldl_append]
      refine ⟨nodup_keys_set ih.1 _ _, fun id => ?_⟩
      show id ∈ ((mapOf entries).set e.1 e.2).map Prod.fst ↔ _
      rw [mem_keys_set, ih.2]
      simp

theorem nodup_setOf (ids : List Text) :
    (setOf ids).Nodup ∧ ∀ id, id ∈ setOf ids ↔ id ∈ ids := by
  induction ids using List.reverseRecOn with
  | nil => exact ⟨List.nodup_nil, fun _ => .rfl⟩
  | append_singleton ids id ih =>
      rw [setOf, List.foldl_append]
      refine ⟨nodup_addRetired ih.1 id, fun id' => ?_⟩
      show id' ∈ addRetired (setOf ids) id ↔ _
      rw [mem_addRetired, ih.2]
      simp

/-- Reading the entries of a map back. -/
theorem mapOf_eq_self {m : JsMap Text Int} (h : (m.map Prod.fst).Nodup) : mapOf m = m := by
  induction m using List.reverseRecOn with
  | nil => rfl
  | append_singleton m e ih =>
      rw [List.map_append, List.map_singleton, List.nodup_append] at h
      have hfresh : e.1 ∉ m.map Prod.fst := fun hmem =>
        h.2.2 e.1 hmem e.1 (List.mem_singleton_self _) rfl
      rw [mapOf, List.foldl_append]
      show (mapOf m).set e.1 e.2 = m ++ [e]
      rw [ih h.1, set_of_not_mem hfresh]

theorem setOf_eq_self {ids : List Text} (h : ids.Nodup) : setOf ids = ids := by
  induction ids using List.reverseRecOn with
  | nil => rfl
  | append_singleton ids id ih =>
      rw [List.nodup_append] at h
      have hfresh : id ∉ ids := fun hmem => h.2.2 id hmem id (List.mem_singleton_self _) rfl
      rw [setOf, List.foldl_append]
      show addRetired (setOf ids) id = ids ++ [id]
      rw [ih h.1, addRetired, if_neg hfresh]

theorem checkKnown_of_subset {known ids : List Text} (h : ∀ id ∈ ids, id ∈ known)
    (field : String) : checkKnown known field ids = .ok () := by
  have hfind : (ids.find? fun id => id ∉ known) = none := by
    rw [List.find?_eq_none]
    intro id hid
    simpa using h id hid
  rw [checkKnown, hfind]

/-- What a restored frontier is made of. -/
theorem restoreEpochFrontier_inv {initialState : EpochFrontierRuntimeState N} {fr : Frontier N}
    (h : restoreEpochFrontier p initialState = .ok fr) :
    fr.state.order = initialState.order ∧ fr.state.active = mapOf initialState.active ∧
      fr.state.retired = setOf initialState.retired := by
  rw [restoreEpochFrontier] at h
  split at h
  · cases h
  · obtain ⟨_, -, h⟩ := bind_eq_ok.mp h
    obtain ⟨_, -, h⟩ := bind_eq_ok.mp h
    obtain ⟨_, -, h⟩ := bind_eq_ok.mp h
    cases h
    exact ⟨rfl, rfl, rfl⟩

/-- **Importing an exported state** gives the state back, with a window of its own. -/
theorem restore_exportState (h : Kept foreign s) {ids : List Text}
    (hids : ∀ id, id ∈ s.order ∨ id ∈ foreign → id ∈ ids) :
    restoreEpochFrontier (p.withIds ids) (exportState s) = .ok ⟨windowSize p s.order, s⟩ := by
  have hknown : ∀ id, id ∈ s.activeIds ∨ id ∈ s.retired → id ∈ ids := fun id hid =>
    hids id (h.known id hid)
  have horder : checkKnown ids "order" s.order = .ok () :=
    checkKnown_of_subset (fun id hid => hids id (.inl hid)) _
  have hactive : checkKnown ids "active" (s.active.map Prod.fst) = .ok () :=
    checkKnown_of_subset (fun id hid => hknown id (.inl hid)) _
  have hretired : checkKnown ids "retired" s.retired = .ok () :=
    checkKnown_of_subset (fun id hid => hknown id (.inr hid)) _
  rw [restoreEpochFrontier, if_neg (fun hne => hne rfl)]
  simp only [exportState, EpochFrontierParams.withIds, horder, hactive, hretired,
    mapOf_eq_self h.active, setOf_eq_self h.retired]
  rfl

theorem Built.kept {fr : Frontier N} (h : Built sha256 S p foreign fr) :
    Kept foreign fr.state := by
  induction h with
  | make ids =>
      refine ⟨List.nodup_nil, List.nodup_nil, fun id hid => ?_⟩
      rcases hid with hid | hid <;> exact absurd hid List.not_mem_nil
  | @restore ids initialState fr hids h =>
      obtain ⟨horder, hactive, hretired⟩ := restoreEpochFrontier_inv h
      refine ⟨?_, ?_, fun id hid => ?_⟩
      · rw [FrontierState.activeIds, hactive]
        exact (nodup_keys_mapOf _).1
      · rw [hretired]
        exact (nodup_setOf _).1
      · rw [FrontierState.activeIds, hactive, hretired, (nodup_keys_mapOf _).2,
          (nodup_setOf _).2] at hid
        rw [horder]
        exact hids id hid
  | @call fr h c ih => exact (ih.call sha256 S p fr.K c).1

/-! ### Bisimulation -/

/-- Two frontiers in one state, whose windows are equal if the first step is still to come. -/
def SameState (foreign : List Text) (fr fr' : Frontier N) : Prop :=
  Kept foreign fr.state ∧ fr'.state = fr.state ∧ (fr.state.initialized = true ∨ fr'.K = fr.K)

/-- An initialised frontier does not read its window. -/
theorem call_window (h : s.initialized = true) (K K' : Int) (c : Call N) :
    call sha256 S p K s c = call sha256 S p K' s c := by
  cases c with
  | step epoch accepts attempts =>
      simp only [call, stepEpoch, if_neg (not_not.mpr h)]
  | add newIds familyOfFn => rfl

theorem sameState_bisimulation (ids : List Text) :
    Bisimulation (reply sha256 S p) (reply sha256 S (p.withIds ids)) (SameState foreign) := by
  rintro fr ⟨K', s'⟩ ⟨hkept, rfl, hwindow⟩ c
  have hcall : call sha256 S (p.withIds ids) K' fr.state c = call sha256 S p fr.K fr.state c := by
    rcases hwindow with hinit | rfl
    · exact call_window hinit K' fr.K c
    · rfl
  obtain ⟨hkept', hinit'⟩ := hkept.call sha256 S p fr.K c
  simp only [reply, hcall]
  exact ⟨trivial, hkept', rfl, hwindow.imp_left hinit'⟩

/-- **Restart safety**: a frontier restored from the exported state of one that was stepped, or
whose window is what its order gives now, answers every continuation as the original does. -/
theorem restart_bisimulation {N : JsNumbers} (sha256 : Text → Bytes) (S : CompareSort)
    (p : EpochFrontierParams N) (foreign : List Text) (fr : Frontier N)
    (hbuilt : Built sha256 S p foreign fr)
    (hwindow : fr.state.initialized = true ∨ fr.K = windowSize p fr.state.order)
    (ids : List Text) (hids : ∀ id, id ∈ fr.state.order ∨ id ∈ foreign → id ∈ ids) :
    ∃ fr', restoreEpochFrontier (p.withIds ids) (exportState fr.state) = .ok fr' ∧
      exportState fr'.state = exportState fr.state ∧
      ∀ calls, outputs (reply sha256 S (p.withIds ids)) fr' calls =
        outputs (reply sha256 S p) fr calls := by
  have hkept := hbuilt.kept
  refine ⟨_, restore_exportState hkept hids, rfl, fun calls => ?_⟩
  have hsame : SameState foreign fr ⟨windowSize p fr.state.order, fr.state⟩ :=
    ⟨hkept, rfl, hwindow.imp_right Eq.symm⟩
  exact ((sameState_bisimulation ids).outputs_eq hsame calls).symm

/-- Two ids with no bound on the active window. -/
def unwindowedParams : EpochFrontierParams sampleNumbers :=
  { sampleParams with activeWindow := none }

/-- `restart_bisimulation` after the first step and an injection. -/
theorem restart_bisimulation_sample :
    let p := unwindowedParams
    let fr := (reply (fun _ => []) .merge p (reply (fun _ => []) .merge p
      (makeEpochFrontier (fun _ => []) .merge p) (.step 0 none none)).1
      (.add [[99]] fun _ => none)).1
    ∃ fr', restoreEpochFrontier (p.withIds (fr.state.order ++ [])) (exportState fr.state) =
        .ok fr' ∧ exportState fr'.state = exportState fr.state ∧
      ∀ calls, outputs (reply (fun _ => []) .merge (p.withIds (fr.state.order ++ []))) fr' calls =
        outputs (reply (fun _ => []) .merge p) fr calls := by
  intro p fr
  have hmade : Built (fun _ => []) .merge p [] (makeEpochFrontier (fun _ => []) .merge p) :=
    .make p.evalHiddenIds
  have hfirst := hmade.call (.step 0 none none)
  obtain ⟨-, hinit⟩ := hmade.kept.stepEpoch (fun _ => []) .merge p
    (makeEpochFrontier (fun _ => []) .merge p).K 0 none none
  obtain ⟨-, hinit'⟩ := hfirst.kept.call (fun _ => []) .merge p
    (makeEpochFrontier (fun _ => []) .merge p).K (.add [[99]] fun _ => none)
  exact restart_bisimulation (fun _ => []) .merge p [] fr (hfirst.call (.add [[99]] fun _ => none))
    (.inl (hinit' hinit)) _ fun id hid => List.mem_append.mpr hid

/-- The first step of a frontier fills its window. -/
theorem reply_firstStep (fr : Frontier N) (h : Rotates fr.state)
    (hinit : fr.state.initialized = false) :
    (reply sha256 S p fr (.step 0 none none)).2.2.active.length =
      min fr.K.toNat fr.state.order.length :=
  (stepEpoch_stepped sha256 S p h fr.K 0 none none).first hinit

/-- An id that is injected before the first step: the original's window is two, the restored
one's three, and its first step activates one id more. -/
theorem restart_before_firstStep :
    let p := unwindowedParams
    let fr := (reply (fun _ => []) .merge p (makeEpochFrontier (fun _ => []) .merge p)
      (.add [[99]] fun _ => none)).1
    ∃ fr', restoreEpochFrontier (p.withIds [[97], [98], [99]]) (exportState fr.state) = .ok fr' ∧
      outputs (reply (fun _ => []) .merge (p.withIds [[97], [98], [99]])) fr'
          [.step 0 none none] ≠
        outputs (reply (fun _ => []) .merge p) fr [.step 0 none none] := by
  intro p fr
  have hbuilt : Built (fun _ => []) .merge p [] fr := .call (.make p.evalHiddenIds) _
  have hsound : Sound (fun _ => []) .merge p (made (fun _ => []) .merge p) :=
    sound_made (by decide)
  have hnew : ([[99]].filter fun id => id ∉ (made (fun _ => []) .merge p).state.order) = [[99]] :=
    (hsound.unseen [[99]]).trans (by decide)
  have hdistinct : ([[99]].filter fun id =>
      id ∉ (made (fun _ => []) .merge p).state.order).Nodup := by
    rw [hnew]
    decide
  obtain ⟨hrotates, horder, -, hinit, -⟩ := addReserveIds_rotates (fun _ => []) .merge p
    hsound.rotates hdistinct fun _ => none
  rw [hnew] at horder
  have hmade : (made (fun _ => []) .merge p).state.order.Perm [[97], [98]] :=
    interleaveFamilies_perm _ _ _
  have hperm : fr.state.order.Perm [[97], [98], [99]] :=
    horder.trans (hmade.append_right _)
  have hlength : fr.state.order.length = 3 := hperm.length_eq
  have hwindow : fr.K = 2 := by
    show min ((made (fun _ => []) .merge p).state.order.length : Int)
      (made (fun _ => []) .merge p).state.order.length = 2
    rw [hmade.length_eq]
    rfl
  have hids : ∀ id, id ∈ fr.state.order ∨ id ∈ ([] : List Text) → id ∈ [[97], [98], [99]] := by
    rintro id (hid | hid)
    · exact hperm.mem_iff.mp hid
    · exact absurd hid List.not_mem_nil
  refine ⟨_, restore_exportState hbuilt.kept hids, fun heq => ?_⟩
  have hactive := congrArg (List.map fun r => r.2.active.length) heq
  simp only [outputs, List.map_cons, List.map_nil, List.cons.injEq, and_true] at hactive
  rw [reply_firstStep _ hrotates hinit, reply_firstStep fr hrotates hinit] at hactive
  simp only [hwindow, hlength, windowSize] at hactive
  revert hactive
  decide

end CoreTex.EpochFrontier
