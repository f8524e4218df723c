import CoreTex.EpochFrontier.Core
import Mathlib.Data.List.Nodup
import Mathlib.Data.List.TakeWhile

/-!
# CoreTex.EpochFrontier.Rotation

What the rotation keeps true. The ids before the reserve pointer are exactly the active and
the retired ones (`Rotates`); activation moves the pointer and nothing else, retirement moves
ids from one side to the other, and an injection goes in behind the pointer.
-/

namespace CoreTex.EpochFrontier

open CoreTex.Lib

variable {sha256 : Text → Bytes} {S : CompareSort} {N : JsNumbers}

/-! ### The order is a rearrangement of the ids -/

theorem flatMap_drop_perm (families : List (List Text)) (i : Nat) :
    (families.flatMap fun arr => arr.drop i).Perm
      (families.filterMap (fun arr => arr[i]?) ++ families.flatMap fun arr => arr.drop (i + 1)) := by
  induction families with
  | nil => exact .refl _
  | cons arr families ih =>
      rw [List.flatMap_cons, List.flatMap_cons, List.filterMap_cons]
      cases harr : arr[i]? with
      | none =>
          have hlen : arr.length ≤ i := List.getElem?_eq_none_iff.mp harr
          simpa [List.drop_eq_nil_of_le hlen, List.drop_eq_nil_of_le (Nat.le_succ_of_le hlen)]
            using ih
      | some id =>
          obtain ⟨hlt, rfl⟩ := List.getElem?_eq_some_iff.mp harr
          rw [List.drop_eq_getElem_cons hlt, List.cons_append]
          exact ((ih.append_left _).trans (List.perm_append_comm_assoc _ _ _)).cons _

theorem interleaveFrom_perm (families : List (List Text)) (i : Nat) :
    (interleaveFrom families i).Perm (families.flatMap fun arr => arr.drop i) := by
  fun_induction interleaveFrom families i with
  | case1 i h ih => exact (ih.append_left _).trans (flatMap_drop_perm families i).symm
  | case2 i h =>
      have hempty : (families.flatMap fun arr => arr.drop i) = [] := by
        rw [List.flatMap_eq_nil_iff]
        intro arr harr
        rw [List.drop_eq_nil_iff]
        by_contra hlt
        exact h (List.any_eq_true.mpr ⟨arr, harr, decide_eq_true (by omega)⟩)
      rw [hempty]

/-- Adding an id to its family. -/
theorem flatMap_set_perm (groups : JsMap Text (List Text)) (f id : Text) :
    ((groups.set f ((groups.get f).getD [] ++ [id])).flatMap Prod.snd).Perm
      (groups.flatMap Prod.snd ++ [id]) := by
  induction groups with
  | nil => simp [JsMap.set]
  | cons e groups ih =>
      rw [JsMap.set, JsMap.get_cons]
      by_cases he : e.1 = f
      · rw [if_pos he, if_pos he, List.flatMap_cons, List.flatMap_cons, Option.getD_some,
          List.append_assoc, List.append_assoc]
        exact List.perm_append_comm.append_left _
      · rw [if_neg he, if_neg he, List.flatMap_cons, List.flatMap_cons, List.append_assoc]
        exact ih.append_left _

theorem keys_set {α : Type} (m : JsMap Text α) (key : Text) (value : α) :
    (m.set key value).map Prod.fst =
      if key ∈ m.map Prod.fst then m.map Prod.fst else m.map Prod.fst ++ [key] := by
  induction m with
  | nil => simp [JsMap.set]
  | cons e m ih =>
      by_cases he : e.1 = key
      · simp [JsMap.set, he]
      · rw [JsMap.set, if_neg he, List.map_cons, ih, List.map_cons]
        have hne : key ≠ e.1 := Ne.symm he
        by_cases hmem : key ∈ m.map Prod.fst
        · rw [if_pos hmem, if_pos (List.mem_cons_of_mem _ hmem)]
        · rw [if_neg hmem, if_neg (by simpa [hne] using hmem), List.cons_append]

theorem nodup_keys_set {α : Type} {m : JsMap Text α} (h : (m.map Prod.fst).Nodup) (key : Text)
    (value : α) : ((m.set key value).map Prod.fst).Nodup := by
  rw [keys_set]
  by_cases hmem : key ∈ m.map Prod.fst
  · rwa [if_pos hmem]
  · rw [if_neg hmem]
    exact List.nodup_append.mpr ⟨h, List.nodup_singleton key, by
      rintro a ha b hb rfl
      rw [List.mem_singleton.mp hb] at ha
      exact hmem ha⟩

theorem groupByFamily_spec (familyOf : Text → Option Text) (ids : List Text) :
    ((groupByFamily familyOf ids).map Prod.fst).Nodup ∧
      ((groupByFamily familyOf ids).flatMap Prod.snd).Perm ids := by
  induction ids using List.reverseRecOn with
  | nil => exact ⟨List.nodup_nil, .refl _⟩
  | append_singleton ids id ih =>
      rw [groupByFamily, List.foldl_append]
      exact ⟨nodup_keys_set ih.1 _ _, (flatMap_set_perm _ _ _).trans (ih.2.append_right _)⟩

theorem get_of_mem {α : Type} {m : JsMap Text α} (h : (m.map Prod.fst).Nodup) {e : Text × α}
    (he : e ∈ m) : m.get e.1 = some e.2 := by
  induction m with
  | nil => simp at he
  | cons e' m ih =>
      rw [List.map_cons, List.nodup_cons] at h
      rw [JsMap.get_cons]
      rcases List.mem_cons.mp he with rfl | he
      · rw [if_pos rfl]
      · have hne : e'.1 ≠ e.1 := fun heq => h.1 (heq ▸ List.mem_map_of_mem he)
        rw [if_neg hne, ih h.2 he]

/-- **Interleaving by family rearranges the ids.** -/
theorem interleaveFamilies_perm (seed : Text) (familyOf : Text → Option Text) (ids : List Text) :
    (interleaveFamilies sha256 S seed familyOf ids).Perm ids := by
  obtain ⟨hkeys, hvalues⟩ := groupByFamily_spec familyOf ids
  rw [interleaveFamilies]
  refine (interleaveFrom_perm _ 0).trans ?_
  refine List.Perm.trans ?_ hvalues
  simp only [List.drop_zero, List.flatMap_map]
  refine ((S.perm compareText _).flatMap_right _).trans ?_
  rw [List.flatMap_map]
  refine List.Perm.flatMap_left _ fun e he => ?_
  rw [get_of_mem hkeys he, Option.getD_some]
  exact S.perm _ _

/-! ### The invariant -/

/-- The ids of the active map. -/
def FrontierState.activeIds (s : FrontierState N) : List Text :=
  s.active.map Prod.fst

/-- The ids that were never activated. -/
def FrontierState.reserve (s : FrontierState N) : List Text :=
  s.order.drop s.reservePtr

structure Rotates (s : FrontierState N) : Prop where
  nodup : s.order.Nodup
  ptr_le : s.reservePtr ≤ s.order.length
  activated : (s.activeIds ++ s.retired).Perm (s.order.take s.reservePtr)
  cumulativeActivated : s.cumulativeActivated = s.reservePtr
  cumulativeRetired : s.cumulativeRetired = s.retired.length
  idle : s.initialized = false → s.reservePtr = 0

variable {s : FrontierState N}

theorem Rotates.length (h : Rotates s) :
    s.active.length + s.retired.length = s.reservePtr := by
  have := h.activated.length_eq
  rw [List.length_append, FrontierState.activeIds, List.length_map, List.length_take,
    Nat.min_eq_left h.ptr_le] at this
  exact this

theorem Rotates.nodup_activated (h : Rotates s) : (s.activeIds ++ s.retired).Nodup :=
  h.activated.nodup_iff.mpr (h.nodup.sublist (List.take_sublist _ _))

/-- The next id of the reserve is new to both sides. -/
theorem Rotates.next (h : Rotates s) (hlt : s.reservePtr < s.order.length) :
    s.order[s.reservePtr] ∉ s.activeIds ∧ s.order[s.reservePtr] ∉ s.retired := by
  have hfresh : s.order[s.reservePtr] ∉ s.order.take s.reservePtr := by
    intro hmem
    obtain ⟨j, hj, heq⟩ := List.mem_iff_getElem.mp hmem
    rw [List.getElem_take] at heq
    rw [List.length_take] at hj
    have := (List.Nodup.getElem_inj_iff h.nodup).mp heq
    omega
  rw [← h.activated.mem_iff, List.mem_append, not_or] at hfresh
  exact hfresh

theorem set_of_not_mem {m : JsMap Text Int} {key : Text} (h : key ∉ m.map Prod.fst) (value : Int) :
    m.set key value = m ++ [(key, value)] := by
  induction m with
  | nil => rfl
  | cons e m ih =>
      rw [List.map_cons, List.mem_cons, not_or] at h
      rw [JsMap.set, if_neg (Ne.symm h.1), ih h.2, List.cons_append]

theorem has_iff_mem {m : JsMap Text Int} {key : Text} :
    m.has key = true ↔ key ∈ m.map Prod.fst := by
  induction m with
  | nil => simp [JsMap.has]
  | cons e m ih =>
      rw [JsMap.has, JsMap.get_cons, List.map_cons, List.mem_cons]
      by_cases he : e.1 = key
      · simp [he]
      · rw [if_neg he, ← JsMap.has, ih]
        simp [Ne.symm he]

/-- The reserve's next `k` ids become active. -/
def FrontierState.activate (s : FrontierState N) (k : Nat) (epoch : Int) : FrontierState N :=
  { s with
    reservePtr := s.reservePtr + k
    active := s.active ++ (s.reserve.take k).map fun id => (id, epoch)
    cumulativeActivated := s.cumulativeActivated + k }

theorem Rotates.activate (h : Rotates s) {k : Nat} (hk : k ≤ s.order.length - s.reservePtr)
    (epoch : Int) (hinit : s.initialized = true) : Rotates (s.activate k epoch) where
  nodup := h.nodup
  ptr_le := by
    have := h.ptr_le
    show s.reservePtr + k ≤ s.order.length
    omega
  activated := by
    have hkeys : (s.activate k epoch).activeIds = s.activeIds ++ s.reserve.take k := by
      simp [FrontierState.activate, FrontierState.activeIds, Function.comp_def]
    rw [hkeys]
    show (s.activeIds ++ s.reserve.take k ++ s.retired).Perm (s.order.take (s.reservePtr + k))
    rw [List.take_add, List.append_assoc]
    refine (List.perm_append_comm.append_left _).trans ?_
    rw [← List.append_assoc]
    exact h.activated.append_right _
  cumulativeActivated := by
    show s.cumulativeActivated + k = s.reservePtr + k
    rw [h.cumulativeActivated]
  cumulativeRetired := h.cumulativeRetired
  idle hidle := by
    have : s.initialized = false := hidle
    rw [hinit] at this
    cases this

theorem activate_zero (s : FrontierState N) (epoch : Int) : s.activate 0 epoch = s := by
  simp [FrontierState.activate]

/-- The loop activates the reserve's next ids, as many as are asked for and left. -/
theorem activateLoop_eq (h : Rotates s) (hinit : s.initialized = true) (n epoch : Int)
    (activated : List Text) :
    activateLoop n epoch s activated =
      let k := min (n - activated.length).toNat (s.order.length - s.reservePtr)
      (s.activate k epoch, activated ++ s.reserve.take k) := by
  induction hleft : s.order.length - s.reservePtr generalizing s activated with
  | zero =>
      rw [activateLoop, dif_neg (by omega)]
      simp [activate_zero]
  | succ left ih =>
      by_cases hmore : (activated.length : Int) < n
      · have hlt : s.reservePtr < s.order.length := by omega
        obtain ⟨hactive, hretired⟩ := h.next hlt
        have hstep := h.activate (k := 1) (by omega) epoch hinit
        have hreserve : s.reserve = s.order[s.reservePtr] :: s.order.drop (s.reservePtr + 1) :=
          List.drop_eq_getElem_cons hlt
        have hnext : s.activate 1 epoch =
            { s with
              reservePtr := s.reservePtr + 1
              active := s.active.set s.order[s.reservePtr] epoch
              cumulativeActivated := s.cumulativeActivated + 1 } := by
          rw [set_of_not_mem hactive, FrontierState.activate, hreserve]
          rfl
        have hk : min (n - activated.length).toNat (left + 1) =
            min (n - (activated ++ [s.order[s.reservePtr]]).length).toNat left + 1 := by
          rw [List.length_append, List.length_singleton]
          omega
        have hih := ih hstep hinit (activated ++ [s.order[s.reservePtr]])
          (by show s.order.length - (s.reservePtr + 1) = left; omega)
        rw [activateLoop, dif_pos ⟨hmore, hlt⟩]
        simp only [List.get_eq_getElem]
        rw [if_pos ⟨fun hhas => hactive (has_iff_mem.mp hhas), hretired⟩, ← hnext, hih, hk]
        simp only
        rw [hreserve, List.take_succ_cons]
        generalize min (n - (activated ++ [s.order[s.reservePtr]]).length).toNat left = k
        refine Prod.ext ?_ (by simp [FrontierState.activate, FrontierState.reserve])
        simp only [FrontierState.activate, FrontierState.reserve,
          List.drop_eq_getElem_cons hlt, List.take_succ_cons, List.take_zero, List.map_cons,
          List.map_nil, List.append_assoc, List.cons_append, List.nil_append, Nat.add_assoc,
          Nat.add_comm 1 k]
      · have hzero : (n - activated.length).toNat = 0 := by omega
        rw [activateLoop, dif_neg (fun hboth => hmore hboth.1), hzero]
        simp [activate_zero]

/-! ### Retirement -/

theorem Rotates.retireId (h : Rotates s) {id : Text} (hid : id ∈ s.activeIds) :
    Rotates (retireId s id) ∧ (retireId s id).active.length + 1 = s.active.length ∧
      (retireId s id).activeIds = s.activeIds.filter (· ≠ id) := by
  have hnodup := h.nodup_activated
  have hkeys : (EpochFrontier.retireId s id).activeIds = s.activeIds.filter (· ≠ id) := by
    simp only [EpochFrontier.retireId, FrontierState.activeIds, JsMap.delete, List.filter_map]
    rfl
  have herase : s.activeIds.filter (· ≠ id) = s.activeIds.erase id := by
    rw [(List.nodup_append.mp hnodup).1.erase_eq_filter id]
    refine List.filter_congr fun x _ => ?_
    by_cases hx : x = id <;> simp [hx]
  have hretired : addRetired s.retired id = s.retired ++ [id] := by
    rw [addRetired, if_neg]
    intro hmem
    exact (List.nodup_append.mp hnodup).2.2 id hid id hmem rfl
  have hperm := List.perm_cons_erase hid
  have hlength : (EpochFrontier.retireId s id).active.length + 1 = s.active.length := by
    have hlen := congrArg List.length hkeys
    have := hperm.length_eq
    rw [herase] at hlen
    simp only [FrontierState.activeIds, List.length_map, List.length_cons] at hlen this
    omega
  refine ⟨⟨h.nodup, h.ptr_le, ?_, h.cumulativeActivated, ?_, h.idle⟩, hlength, hkeys⟩
  · rw [hkeys, herase]
    show (s.activeIds.erase id ++ addRetired s.retired id).Perm (s.order.take s.reservePtr)
    rw [hretired]
    refine List.Perm.trans ?_ h.activated
    refine List.Perm.trans ?_ (hperm.symm.append_right _)
    rw [← List.append_assoc]
    exact List.perm_append_singleton id _
  · show s.cumulativeRetired + 1 = (addRetired s.retired id).length
    rw [hretired, List.length_append, List.length_singleton, h.cumulativeRetired]

/-- What retiring leaves alone. -/
theorem retire_frame (ids : List Text) (s : FrontierState N) :
    (ids.foldl retireId s).order = s.order ∧ (ids.foldl retireId s).reservePtr = s.reservePtr ∧
      (ids.foldl retireId s).initialized = s.initialized ∧
      (ids.foldl retireId s).injectedSinceLastStep = s.injectedSinceLastStep := by
  induction ids generalizing s with
  | nil => exact ⟨rfl, rfl, rfl, rfl⟩
  | cons id ids ih => exact ih (retireId s id)

/-- Distinct active ids retire one by one. -/
theorem Rotates.retire (h : Rotates s) {ids : List Text} (hnodup : ids.Nodup)
    (hids : ∀ id ∈ ids, id ∈ s.activeIds) :
    Rotates (ids.foldl EpochFrontier.retireId s) ∧
      (ids.foldl EpochFrontier.retireId s).active.length + ids.length = s.active.length := by
  induction ids generalizing s with
  | nil => exact ⟨h, rfl⟩
  | cons id ids ih =>
      rw [List.nodup_cons] at hnodup
      obtain ⟨hrotates, hlength, hkeys⟩ := h.retireId (hids id List.mem_cons_self)
      obtain ⟨hall, htotal⟩ := ih hrotates hnodup.2 fun id' hid' => by
        rw [hkeys, List.mem_filter]
        refine ⟨hids id' (List.mem_cons_of_mem _ hid'), decide_eq_true ?_⟩
        rintro rfl
        exact hnodup.1 hid'
      refine ⟨hall, ?_⟩
      rw [List.foldl_cons, List.length_cons]
      omega

/-! ### One step -/

variable {p : EpochFrontierParams N}

/-- What the end of a step activates. -/
theorem finishStep_spec (sha256 : Text → Bytes) (S : CompareSort) (p : EpochFrontierParams N)
    (h : Rotates s) (hinit : s.initialized = true) (n epoch : Int) (ret : Nat)
    (rate : N.Num) :
    let k := min n.toNat (s.order.length - s.reservePtr)
    let r := finishStep sha256 S p n epoch ret rate s
    Rotates r.state ∧ r.activatedIds = s.reserve.take k ∧ r.state.initialized = true ∧
      r.state.order = s.order ∧ r.state.reservePtr = s.reservePtr + k ∧
      r.state.active.length = s.active.length + k := by
  intro k r
  have hloop := activateLoop_eq h hinit n epoch []
  simp only [List.length_nil, Int.natCast_zero, Int.sub_zero, List.nil_append] at hloop
  have hk : k ≤ s.order.length - s.reservePtr := Nat.min_le_right _ _
  have hactivate := h.activate hk epoch hinit
  have hreserve : (s.reserve.take k).length = k := by
    rw [List.length_take, FrontierState.reserve, List.length_drop]
    omega
  have hr : r = finishStep sha256 S p n epoch ret rate s := rfl
  rw [finishStep, activateNext, hloop] at hr
  rw [hr]
  refine ⟨⟨hactivate.nodup, hactivate.ptr_le, hactivate.activated, hactivate.cumulativeActivated,
    hactivate.cumulativeRetired, hactivate.idle⟩, rfl, hinit, rfl, rfl, ?_⟩
  show (s.active ++ (s.reserve.take k).map fun id => (id, epoch)).length = _
  rw [List.length_append, List.length_map, hreserve]

/-- Aged ids are distinct and active. -/
theorem agedIds_spec (h : Rotates s) (epoch : Int) :
    (agedIds p s epoch).Nodup ∧ ∀ id ∈ agedIds p s epoch, id ∈ s.activeIds := by
  have hnodup := (List.nodup_append.mp h.nodup_activated).1
  unfold agedIds
  dsimp only
  split
  · have hsub := List.filter_sublist (l := s.active) (p := fun e =>
      N.le (p.maxAge.getD N.infinity) (N.lit ((epoch - e.2 : Int) : Rat)))
    exact ⟨hnodup.sublist (hsub.map _), fun id hid => (hsub.map _).subset hid⟩
  · exact ⟨List.nodup_nil, fun id hid => absurd hid List.not_mem_nil⟩

/-- Oldest ids are distinct and active, and no more than the rate's last cap allows. -/
theorem retireOldest_spec (h : Rotates s) (x : N.Num) (m : Nat) :
    let r := retireOldest S (N.min x (N.lit m)) s
    r.1 = r.2.foldl retireId s ∧ r.2.Nodup ∧ (∀ id ∈ r.2, id ∈ s.activeIds) ∧ r.2.length ≤ m := by
  intro r
  have hnodup := (List.nodup_append.mp h.nodup_activated).1
  let sorted := S.sort (fun x y : Text × Int =>
    if x.2 - y.2 ≠ 0 then x.2 - y.2 else orderIdx s.order x.1 - orderIdx s.order y.1) s.active
  let run := (List.range sorted.length).takeWhile fun j : Nat =>
    N.lt (N.lit j) (N.min x (N.lit m))
  have hids : r.2 = (sorted.take run.length).map Prod.fst := rfl
  have hperm : sorted.Perm s.active := S.perm _ _
  have hsub : r.2.Sublist (sorted.map Prod.fst) := hids ▸ (List.take_sublist _ _).map _
  have hmap : (sorted.map Prod.fst).Perm s.activeIds := hperm.map _
  refine ⟨rfl, (hmap.nodup_iff.mpr hnodup).sublist hsub,
    fun id hid => hmap.mem_iff.mp (hsub.subset hid), ?_⟩
  -- every counter that runs is below the cap
  have hbelow : ∀ j ∈ run, j < m := by
    intro j hj
    have hlt := List.mem_takeWhile_imp (p := fun j : Nat => N.lt (N.lit j) (N.min x (N.lit m))) hj
    exact N.lt_min j m x hlt
  have hrange : run <+: List.range sorted.length := List.takeWhile_prefix _
  have hrun : run = List.range run.length := by
    rw [List.prefix_iff_eq_take] at hrange
    rw [hrange, List.take_range, List.length_range]
  rw [hids, List.length_map, List.length_take]
  refine (Nat.min_le_left _ _).trans ?_
  by_contra hlt
  have := hbelow m (hrun ▸ List.mem_range.mpr (by omega))
  omega

/-- What a step does to the window and the reserve. -/
structure Stepped (p : EpochFrontierParams N) (K : Int) (s : FrontierState N)
    (r : StepResult N) : Prop where
  rotates : Rotates r.state
  initialized : r.state.initialized = true
  order : r.state.order = s.order
  ptr : r.state.reservePtr = s.reservePtr + r.activatedIds.length
  activatedIds : r.activatedIds = s.reserve.take r.activatedIds.length
  first : s.initialized = false → r.state.active.length = min K.toNat s.order.length
  later : s.initialized = true → r.state.active.length ≤ s.active.length
  steady : s.initialized = true → N.isFinite (p.maxAge.getD N.infinity) = false →
    r.state.active.length = s.active.length

/-- The state a step works on after its ids have aged. -/
theorem aged_spec (h : Rotates s) (hinit : s.initialized = true) (epoch : Int) :
    let s' := (agedIds p s epoch).foldl retireId s
    Rotates s' ∧ s'.initialized = true ∧ s'.order = s.order ∧ s'.reservePtr = s.reservePtr ∧
      s'.active.length + (agedIds p s epoch).length = s.active.length := by
  obtain ⟨hnodup, hids⟩ := agedIds_spec (p := p) h epoch
  obtain ⟨hrotates, hlength⟩ := h.retire hnodup hids
  obtain ⟨horder, hptr, hinit', -⟩ := retire_frame (agedIds p s epoch) s
  exact ⟨hrotates, hinit'.trans hinit, horder, hptr, hlength⟩

/-- A later step: `ret` ids have been retired, and the end activates as many. -/
theorem stepped_of_finish {s₁ : FrontierState N} {K epoch : Int} {ret : Nat} {rate : N.Num}
    (hinit : s.initialized = true) (h₁ : Rotates s₁) (hinit₁ : s₁.initialized = true)
    (horder : s₁.order = s.order) (hptr : s₁.reservePtr = s.reservePtr)
    (hlength : s₁.active.length + ret = s.active.length)
    (hret : N.isFinite (p.maxAge.getD N.infinity) = false →
      ret ≤ s.order.length - s.reservePtr) :
    Stepped p K s (finishStep sha256 S p ret epoch ret rate s₁) := by
  obtain ⟨hrotates, hids, hinit', horder', hptr', hactive⟩ :=
    finishStep_spec sha256 S p h₁ hinit₁ ret epoch ret rate
  have hreserve : s₁.reserve = s.reserve := by
    rw [FrontierState.reserve, horder, hptr, FrontierState.reserve]
  rw [hreserve] at hids
  rw [horder, hptr] at hptr' hactive
  have hcount : (finishStep sha256 S p ret epoch ret rate s₁).activatedIds.length =
      min ret (s.order.length - s.reservePtr) := by
    rw [hids, horder, hptr, List.length_take, FrontierState.reserve, List.length_drop]
    omega
  refine ⟨hrotates, hinit', horder'.trans horder, ?_, ?_, ?_, ?_, ?_⟩
  · rw [hptr', hcount, Int.toNat_natCast]
  · rw [hcount, hids, horder, hptr, Int.toNat_natCast]
  · intro hidle
    rw [hinit] at hidle
    cases hidle
  · intro _
    omega
  · intro _ hinfinite
    have := hret hinfinite
    omega

/-- **A step rotates.** -/
theorem stepEpoch_stepped (sha256 : Text → Bytes) (S : CompareSort) (p : EpochFrontierParams N)
    (h : Rotates s) (K epoch : Int)
    (prevHonestAccepts prevQualityAttempts : Option N.Num) :
    Stepped p K s (stepEpoch sha256 S p K s epoch prevHonestAccepts prevQualityAttempts) := by
  rw [stepEpoch]
  by_cases hinit : s.initialized = true
  · obtain ⟨h₁, hinit₁, horder₁, hptr₁, hlength₁⟩ := aged_spec (p := p) h hinit epoch
    -- with no age limit nothing has aged
    have haged : N.isFinite (p.maxAge.getD N.infinity) = false →
        (agedIds p s epoch).length = 0 := by
      intro hinfinite
      simp [agedIds, hinfinite]
    rw [if_neg (not_not.mpr hinit)]
    dsimp only
    by_cases hmode : p.mode.getD .off = .off ∨ p.mode.getD .off = .C0
    · rw [if_pos hmode]
      exact stepped_of_finish hinit h₁ hinit₁ horder₁ hptr₁ hlength₁
        fun hinfinite => by simp [haged hinfinite]
    · rw [if_neg hmode]
      generalize (agedIds p s epoch).length = aged at hlength₁ haged ⊢
      generalize (agedIds p s epoch).foldl retireId s = s₁ at h₁ hinit₁ horder₁ hptr₁ hlength₁ ⊢
      have h₂ : Rotates { s₁ with ewmaAccepts := nextEwma p s₁.ewmaAccepts prevHonestAccepts } :=
        ⟨h₁.nodup, h₁.ptr_le, h₁.activated, h₁.cumulativeActivated, h₁.cumulativeRetired, h₁.idle⟩
      generalize hs₂ : ({ s₁ with
        ewmaAccepts := nextEwma p s₁.ewmaAccepts prevHonestAccepts } : FrontierState N) = s₂ at h₂ ⊢
      obtain ⟨x, hrate⟩ : ∃ x, cappedRate p (p.mode.getD .off) s₂ (modeRate p (p.mode.getD .off) s₂
          prevHonestAccepts prevQualityAttempts) =
            N.min x (N.lit ((s₂.order.length - s₂.reservePtr : Nat) : Rat)) := ⟨_, rfl⟩
      obtain ⟨hfold, hnodup, hids, hle⟩ :=
        retireOldest_spec (S := S) h₂ x (s₂.order.length - s₂.reservePtr)
      rw [hrate]
      generalize retireOldest S (N.min x (N.lit ((s₂.order.length - s₂.reservePtr : Nat) : Rat))) s₂ =
        result at hfold hnodup hids hle ⊢
      obtain ⟨s₃, oldest⟩ := result
      dsimp only at hfold hnodup hids hle ⊢
      subst hfold
      obtain ⟨h₃, hlength₃⟩ := h₂.retire hnodup hids
      obtain ⟨horder₃, hptr₃, hinit₃, -⟩ := retire_frame oldest s₂
      subst hs₂
      dsimp only at horder₃ hptr₃ hinit₃ hlength₃ hle
      refine stepped_of_finish hinit h₃ (hinit₃.trans hinit₁) (horder₃.trans horder₁)
        (hptr₃.trans hptr₁) (by omega) fun hinfinite => ?_
      have := haged hinfinite
      rw [horder₁, hptr₁] at hle
      omega
  · have hidle : s.initialized = false := by simpa using hinit
    rw [if_pos hinit]
    have h₁ : Rotates { s with initialized := true } :=
      ⟨h.nodup, h.ptr_le, h.activated, h.cumulativeActivated, h.cumulativeRetired,
        fun hfalse => by cases hfalse⟩
    obtain ⟨hrotates, hids, hinit', horder', hptr', hactive⟩ :=
      finishStep_spec sha256 S p h₁ rfl K epoch 0 (N.lit 0)
    have hptr := h.idle hidle
    have hlength := h.length
    have hreserve : s.reserve.length = s.order.length := by
      rw [FrontierState.reserve, hptr, List.drop_zero]
    have hcount : (s.reserve.take (min K.toNat (s.order.length - s.reservePtr))).length =
        min K.toNat (s.order.length - s.reservePtr) := by
      rw [List.length_take, hreserve]
      omega
    refine ⟨hrotates, hinit', horder', ?_, ?_, ?_, ?_, ?_⟩
    · rw [hids, hptr']
      exact congrArg (s.reservePtr + ·) hcount.symm
    · rw [hids]
      exact congrArg (s.reserve.take ·) hcount.symm
    · intro _
      rw [hactive]
      show s.active.length + min K.toNat (s.order.length - s.reservePtr) = _
      rw [hptr]
      omega
    · intro hfalse
      rw [hidle] at hfalse
      cases hfalse
    · intro hfalse
      rw [hidle] at hfalse
      cases hfalse

/-! ### One injection -/

/-- Under the invariant an id is unseen when it is not in the order. -/
theorem unseen_eq (h : Rotates s) (newIds : List Text) :
    (newIds.filter fun id => ¬ s.active.has id ∧ id ∉ s.retired ∧ id ∉ s.order) =
      newIds.filter fun id => id ∉ s.order := by
  refine List.filter_congr fun id _ => ?_
  have hsub : ∀ id ∈ s.activeIds ++ s.retired, id ∈ s.order := fun id hid =>
    (List.take_sublist _ _).subset (h.activated.mem_iff.mp hid)
  by_cases hid : id ∈ s.order
  · simp [hid]
  · have hactive : ¬ s.active.has id = true := fun hhas =>
      hid (hsub id (List.mem_append_left _ (has_iff_mem.mp hhas)))
    have hretired : id ∉ s.retired := fun hmem => hid (hsub id (List.mem_append_right _ hmem))
    simp [hid, hactive, hretired]

/-- **An injection rotates** when it repeats no new id: the new ids go in behind the pointer. -/
theorem addReserveIds_rotates (sha256 : Text → Bytes) (S : CompareSort)
    (p : EpochFrontierParams N) (h : Rotates s) {newIds : List Text}
    (hnew : (newIds.filter fun id => id ∉ s.order).Nodup) (familyOfFn : Text → Option Text) :
    let r := addReserveIds sha256 S p newIds familyOfFn s
    Rotates r.1 ∧ r.1.order.Perm (s.order ++ newIds.filter fun id => id ∉ s.order) ∧
      r.2 = (newIds.filter fun id => id ∉ s.order).length ∧ r.1.initialized = s.initialized ∧
      r.1.active = s.active ∧ r.1.retired = s.retired ∧ r.1.reservePtr = s.reservePtr ∧
      r.1.order.take s.reservePtr = s.order.take s.reservePtr := by
  intro r
  have hr : r = addReserveIds sha256 S p newIds familyOfFn s := rfl
  have hfresh : ∀ id ∈ newIds.filter fun id => id ∉ s.order, id ∉ s.order := fun id hid =>
    of_decide_eq_true (List.mem_filter.mp hid).2
  rw [addReserveIds, unseen_eq h] at hr
  dsimp only at hr
  generalize (newIds.filter fun id => id ∉ s.order) = unseen at hr hnew hfresh ⊢
  by_cases hempty : unseen.length = 0
  · rw [if_pos hempty] at hr
    obtain rfl := List.length_eq_zero_iff.mp hempty
    rw [hr, List.append_nil]
    exact ⟨h, .refl _, rfl, rfl, rfl, rfl, rfl, rfl⟩
  · rw [if_neg hempty] at hr
    have hsegment : (interleaveFamilies sha256 S p.seedText familyOfFn unseen).Perm unseen :=
      interleaveFamilies_perm p.seedText familyOfFn unseen
    generalize interleaveFamilies sha256 S p.seedText familyOfFn unseen = segment at hr hsegment
    have horder : (s.order.take s.reservePtr ++ segment ++ s.order.drop s.reservePtr).Perm
        (s.order ++ unseen) := by
      rw [List.append_assoc]
      refine (List.perm_append_comm.append_left _).trans ?_
      rw [← List.append_assoc, List.take_append_drop]
      exact hsegment.append_left _
    have htake : (s.order.take s.reservePtr ++ segment ++ s.order.drop s.reservePtr).take
        s.reservePtr = s.order.take s.reservePtr := by
      rw [List.append_assoc, List.take_left']
      rw [List.length_take, Nat.min_eq_left h.ptr_le]
    rw [hr]
    refine ⟨⟨?_, ?_, ?_, h.cumulativeActivated, h.cumulativeRetired, h.idle⟩, horder, rfl, rfl,
      rfl, rfl, rfl, htake⟩
    · refine horder.nodup_iff.mpr (List.nodup_append.mpr ⟨h.nodup, hnew, ?_⟩)
      intro a ha b hb hab
      exact hfresh b hb (hab ▸ ha)
    · have hlength := horder.length_eq
      have := h.ptr_le
      show s.reservePtr ≤
        (s.order.take s.reservePtr ++ segment ++ s.order.drop s.reservePtr).length
      rw [hlength, List.length_append]
      omega
    · show (s.activeIds ++ s.retired).Perm
        ((s.order.take s.reservePtr ++ segment ++ s.order.drop s.reservePtr).take s.reservePtr)
      rw [htake]
      exact h.activated

end CoreTex.EpochFrontier
