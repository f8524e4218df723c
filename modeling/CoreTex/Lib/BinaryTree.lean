import Mathlib.Data.List.Dedup
import Mathlib.Tactic.Common

/-!
# CoreTex.Lib.BinaryTree

Perfect binary trees stored level by level, over an arbitrary node type and an
arbitrary combining function.

`levels node d leaves` is the tree rebuilt from its `2 ^ d` leaves, lowest level
first. `refresh` is the incremental rebuild: given the new lowest level and the
old levels above it, it recomputes only the parents of the positions that moved,
then the parents of those, up to the root. The main result, `refresh_levels`, is
that the two agree: refreshing the old tree from the new leaves is rebuilding it.
-/

namespace CoreTex.Lib

variable {α : Type} (node : α → α → α)

/-! ### Rebuilding -/

/-- The level above `level`: one node for each adjacent pair. -/
def pairLevel : List α → List α
  | left :: right :: rest => node left right :: pairLevel rest
  | _ => []

/-- A level and the `d` levels above it, lowest first. -/
def levels : Nat → List α → List (List α)
  | 0, level => [level]
  | d + 1, level => level :: levels d (pairLevel node level)

@[simp] theorem pairLevel_nil : pairLevel node [] = [] := rfl

theorem length_pairLevel (level : List α) : (pairLevel node level).length = level.length / 2 := by
  induction level using pairLevel.induct with
  | case1 left right rest ih => simp only [pairLevel, List.length_cons, ih]; omega
  | case2 level h =>
      match level with
      | [] => simp [pairLevel]
      | [_] => simp [pairLevel]
      | a :: b :: rest => exact absurd rfl (h a b rest)

/-- The node at position `p` combines the two nodes below it, at `2 p` and `2 p + 1`. -/
theorem getElem?_pairLevel (level : List α) (p : Nat) :
    (pairLevel node level)[p]? =
      match level[2 * p]?, level[2 * p + 1]? with
      | some left, some right => some (node left right)
      | _, _ => none := by
  induction level using pairLevel.induct generalizing p with
  | case1 left right rest ih =>
      cases p with
      | zero => rfl
      | succ p => simpa [pairLevel, Nat.mul_succ] using ih p
  | case2 level h =>
      match level with
      | [] => rfl
      | [_] => simp [pairLevel]
      | a :: b :: rest => exact absurd rfl (h a b rest)

@[simp] theorem length_levels (d : Nat) (level : List α) : (levels node d level).length = d + 1 := by
  induction d generalizing level with
  | zero => rfl
  | succ d ih => simp [levels, ih]

/-! ### Refreshing the positions that moved -/

/-- Recompute the nodes of `above` at the positions `parents` from the level `below`. -/
def refreshLevel (below : List α) (parents : List Nat) (above : List α) : List α :=
  parents.foldl
    (fun above p =>
      match below[2 * p]?, below[2 * p + 1]? with
      | some left, some right => above.set p (node left right)
      | _, _ => above)
    above

/-- The parents of a set of positions, each once. -/
def parentsOf (dirty : List Nat) : List Nat :=
  (dirty.map (· / 2)).dedup

theorem mem_parentsOf {dirty : List Nat} {p : Nat} :
    p ∈ parentsOf dirty ↔ ∃ i ∈ dirty, i / 2 = p := by
  simp [parentsOf]

/-- Walk up the levels above `below`, recomputing the parents of the dirty positions. -/
def refresh : List α → List Nat → List (List α) → List (List α)
  | _, _, [] => []
  | below, dirty, above :: rest =>
      let parents := parentsOf dirty
      let fresh := refreshLevel node below parents above
      fresh :: refresh fresh parents rest

/-- Two levels of one length that agree at every position outside `dirty`. -/
def AgreeOff (dirty : List Nat) (old new : List α) : Prop :=
  old.length = new.length ∧ ∀ i, i ∉ dirty → old[i]? = new[i]?

theorem AgreeOff.refl (dirty : List Nat) (level : List α) : AgreeOff dirty level level :=
  ⟨rfl, fun _ _ => rfl⟩

/-- Writing position `i` moves nothing outside `i`. -/
theorem AgreeOff.set {dirty : List Nat} {old new : List α} (h : AgreeOff dirty old new)
    {i : Nat} (hi : i ∈ dirty) (v : α) : AgreeOff dirty old (new.set i v) := by
  refine ⟨by simp [h.1], fun j hj => ?_⟩
  have hne : i ≠ j := fun e => hj (e ▸ hi)
  rw [List.getElem?_set_ne hne]
  exact h.2 j hj

@[simp] theorem length_refreshLevel (below : List α) (parents : List Nat) (above : List α) :
    (refreshLevel node below parents above).length = above.length := by
  unfold refreshLevel
  induction parents generalizing above with
  | nil => rfl
  | cons p ps ih =>
      rw [List.foldl_cons, ih]
      split <;> simp

/-- A refreshed level reads the recomputed node at a refreshed position and the old
node everywhere else. -/
theorem getElem?_refreshLevel (below : List α) (parents : List Nat) (above : List α)
    (hlen : above.length = below.length / 2) (q : Nat) :
    (refreshLevel node below parents above)[q]? =
      if q ∈ parents then (pairLevel node below)[q]? else above[q]? := by
  unfold refreshLevel
  induction parents generalizing above with
  | nil => simp
  | cons p ps ih =>
      rw [List.foldl_cons, ih _ (by split <;> simp [hlen])]
      by_cases hq : q ∈ ps
      · simp [hq]
      · simp only [hq, if_false, List.mem_cons, or_false]
        by_cases hqp : q = p
        · subst hqp
          rw [if_pos rfl, getElem?_pairLevel]
          split
          next left right hl hr =>
            have : 2 * q + 1 < below.length := (List.getElem?_eq_some_iff.mp hr).1
            rw [List.getElem?_set_self (by omega)]
          next hnone =>
            -- the pair below is incomplete, so neither level has a position `q`
            have hout : below.length ≤ 2 * q + 1 := by
              by_contra hlt
              rw [Nat.not_le] at hlt
              exact hnone _ _ (List.getElem?_eq_getElem (by omega)) (List.getElem?_eq_getElem hlt)
            exact List.getElem?_eq_none (by omega)
        · rw [if_neg hqp]
          split
          · exact List.getElem?_set_ne (Ne.symm hqp)
          · rfl

/-- One level up: refreshing the parents of the dirty positions of an old level gives
exactly the level above the new one. -/
theorem refreshLevel_pairLevel {dirty : List Nat} {old new : List α} (h : AgreeOff dirty old new) :
    refreshLevel node new (parentsOf dirty) (pairLevel node old) = pairLevel node new := by
  apply List.ext_getElem?
  intro q
  rw [getElem?_refreshLevel node new _ _ (by rw [length_pairLevel, h.1])]
  split
  next => rfl
  next hq =>
    rw [getElem?_pairLevel, getElem?_pairLevel]
    have h0 : 2 * q ∉ dirty := fun hm => hq (mem_parentsOf.mpr ⟨_, hm, by omega⟩)
    have h1 : 2 * q + 1 ∉ dirty := fun hm => hq (mem_parentsOf.mpr ⟨_, hm, by omega⟩)
    rw [h.2 _ h0, h.2 _ h1]

/-- The levels above two levels that agree off `dirty` agree off its parents. -/
theorem AgreeOff.pairLevel {dirty : List Nat} {old new : List α} (h : AgreeOff dirty old new) :
    AgreeOff (parentsOf dirty) (pairLevel node old) (pairLevel node new) := by
  refine ⟨by rw [length_pairLevel, length_pairLevel, h.1], fun q hq => ?_⟩
  have hr := getElem?_refreshLevel node new (parentsOf dirty) (CoreTex.Lib.pairLevel node old)
    (by rw [length_pairLevel, h.1]) q
  rw [refreshLevel_pairLevel node h, if_neg hq] at hr
  exact hr.symm

/-- **Refreshing is rebuilding.** From a new lowest level that agrees with the old one
off the dirty positions, refreshing the old levels gives the levels of the new tree. -/
theorem refresh_levels (d : Nat) {dirty : List Nat} {old new : List α}
    (h : AgreeOff dirty old new) :
    new :: refresh node new dirty (levels node d old).tail = levels node d new := by
  induction d generalizing dirty old new with
  | zero => rfl
  | succ d ih =>
      have htail : (levels node (d + 1) old).tail =
          pairLevel node old :: (levels node d (pairLevel node old)).tail := by
        cases d <;> rfl
      rw [htail]
      simp only [refresh, levels, List.cons.injEq, true_and]
      rw [refreshLevel_pairLevel node h]
      exact ih (h.pairLevel node)

end CoreTex.Lib
