import Mathlib.Data.Nat.Log
import Mathlib.Data.List.Basic
import Mathlib.Tactic.Common

/-!
# CoreTex.Lib.CarryTree

Binary trees of nodes built level by level, where an odd last node is carried up unchanged.

`foldl_siblings` is completeness: with a commutative join, a node and its siblings on the way up
make the top. `grown_top` is what soundness starts from: the top is grown from the leaves by the
joins that were made.
-/

namespace CoreTex.Lib

variable {α : Type} (node : α → α → α)

/-! ### Levels -/

/-- One level up: pairs are joined, and an odd last node is carried. -/
def joinPairs : List α → List α
  | a :: b :: rest => node a b :: joinPairs rest
  | level => level

@[simp] theorem joinPairs_nil : joinPairs node [] = [] := rfl

@[simp] theorem joinPairs_singleton (a : α) : joinPairs node [a] = [a] := rfl

theorem length_joinPairs (level : List α) :
    (joinPairs node level).length = (level.length + 1) / 2 := by
  match level with
  | [] => simp
  | [_] => simp
  | _ :: _ :: rest =>
      simp only [joinPairs, List.length_cons, length_joinPairs rest]
      omega

/-- All levels, from the leaves to the one node on top. -/
def levelsUp (level : List α) : List (List α) :=
  if level.length > 1 then level :: levelsUp (joinPairs node level) else [level]
termination_by level.length
decreasing_by
  rw [length_joinPairs]
  omega

theorem levelsUp_of_one_lt {level : List α} (h : 1 < level.length) :
    levelsUp node level = level :: levelsUp node (joinPairs node level) := by
  rw [levelsUp, if_pos h]

theorem levelsUp_of_le_one {level : List α} (h : level.length ≤ 1) :
    levelsUp node level = [level] := by
  rw [levelsUp, if_neg (Nat.not_lt.mpr h)]

theorem levelsUp_ne_nil (level : List α) : levelsUp node level ≠ [] := by
  rw [levelsUp]
  split <;> exact List.cons_ne_nil _ _

/-- Induction up the levels. -/
theorem levelInduction {motive : List α → Prop}
    (top : ∀ level, level.length ≤ 1 → motive level)
    (up : ∀ level, 1 < level.length → motive (joinPairs node level) → motive level)
    (level : List α) : motive level := by
  induction hn : level.length using Nat.strong_induction_on generalizing level with
  | _ n ih =>
      by_cases hlong : 1 < level.length
      · refine up level hlong (ih _ ?_ _ rfl)
        rw [length_joinPairs]
        omega
      · exact top level (Nat.not_lt.mp hlong)

/-- There are as many levels below the top as the length has bits, rounded up. -/
theorem length_levelsUp (level : List α) :
    (levelsUp node level).length = Nat.clog 2 level.length + 1 := by
  induction level using levelInduction node with
  | top level h =>
      rw [levelsUp_of_le_one node h, Nat.clog_of_right_le_one h]
      rfl
  | up level h ih =>
      have hhalf : (level.length + 2 - 1) / 2 = (level.length + 1) / 2 := by omega
      rw [levelsUp_of_one_lt node h, List.length_cons, ih, length_joinPairs,
        Nat.clog_of_two_le (by decide) h, hhalf]

/-- The node on top. -/
def topOf (level : List α) : Option α :=
  (levelsUp node level).getLast?.bind List.head?

theorem topOf_of_one_lt {level : List α} (h : 1 < level.length) :
    topOf node level = topOf node (joinPairs node level) := by
  rw [topOf, levelsUp_of_one_lt node h, List.getLast?_cons, topOf,
    List.getLast?_eq_some_getLast (levelsUp_ne_nil node _)]
  rfl

theorem topOf_of_le_one {level : List α} (h : level.length ≤ 1) :
    topOf node level = level.head? := by
  rw [topOf, levelsUp_of_le_one node h]
  rfl

/-! ### Siblings -/

/-- The node beside a position; a last even position has none. -/
def siblingAt (level : List α) (pos : Nat) : Option α :=
  if pos % 2 = 0 then level[pos + 1]? else level[pos - 1]?

/-- The siblings on the way up from a position of the lowest level. -/
def siblings : List (List α) → Nat → List α
  | [], _ => []
  | level :: above, pos => (siblingAt level pos).toList ++ siblings above (pos / 2)

theorem length_siblings_le (levels : List (List α)) (pos : Nat) :
    (siblings levels pos).length ≤ levels.length := by
  induction levels generalizing pos with
  | nil => exact le_rfl
  | cons level above ih =>
      have hone : (siblingAt level pos).toList.length ≤ 1 := by
        cases siblingAt level pos <;> simp
      have habove := ih (pos / 2)
      rw [siblings, List.length_append, List.length_cons]
      omega

/-- A node and its sibling make the node above. -/
theorem getElem?_joinPairs {node : α → α → α} (hcomm : ∀ a b, node a b = node b a)
    {level : List α} {pos : Nat} {x : α} (h : level[pos]? = some x) :
    (joinPairs node level)[pos / 2]? = some ((siblingAt level pos).toList.foldl node x) := by
  match level, pos with
  | [], _ => simp at h
  | [a], 0 =>
      -- the odd last node is carried, without a sibling
      cases h
      rfl
  | [a], _ + 1 => simp at h
  | a :: b :: rest, 0 =>
      cases h
      rfl
  | a :: b :: rest, 1 =>
      cases h
      exact congrArg some (hcomm a x)
  | a :: b :: rest, pos + 2 =>
      have hrest : rest[pos]? = some x := h
      have hhalf : (pos + 2) / 2 = pos / 2 + 1 := by omega
      have hsibling : siblingAt (a :: b :: rest) (pos + 2) = siblingAt rest pos := by
        rw [siblingAt, siblingAt, Nat.add_mod_right]
        by_cases heven : pos % 2 = 0
        · rw [if_pos heven, if_pos heven]
          rfl
        · rw [if_neg heven, if_neg heven]
          obtain ⟨n, rfl⟩ : ∃ n, pos = n + 1 := ⟨pos - 1, by omega⟩
          rfl
      rw [joinPairs, hhalf, List.getElem?_cons_succ, getElem?_joinPairs hcomm hrest, hsibling]

/-- **Completeness.** A node and its siblings on the way up make the top. -/
theorem foldl_siblings {node : α → α → α} (hcomm : ∀ a b, node a b = node b a) {level : List α}
    {pos : Nat} {x : α} (h : level[pos]? = some x) :
    topOf node level = some ((siblings (levelsUp node level).dropLast pos).foldl node x) := by
  induction level using levelInduction node generalizing pos x with
  | top level hshort =>
      rw [topOf_of_le_one node hshort, levelsUp_of_le_one node hshort]
      obtain ⟨hpos, -⟩ := List.getElem?_eq_some_iff.mp h
      obtain rfl : pos = 0 := by omega
      rw [List.head?_eq_getElem?, h]
      rfl
  | up level hlong ih =>
      rw [topOf_of_one_lt node hlong, ih (getElem?_joinPairs hcomm h),
        levelsUp_of_one_lt node hlong, List.dropLast_cons_of_ne_nil (levelsUp_ne_nil node _),
        siblings, List.foldl_append]

/-! ### What the top is grown from -/

/-- The pairs of a level. -/
def pairsOf : List α → List (α × α)
  | a :: b :: rest => (a, b) :: pairsOf rest
  | _ => []

/-- The pairs of all levels. -/
def allPairs (level : List α) : List (α × α) :=
  (levelsUp node level).flatMap pairsOf

/-- Nodes made of leaves by joining pairs of a list. -/
inductive Grown (pairs : List (α × α)) (leaves : List α) : α → Prop
  | leaf {x : α} (h : x ∈ leaves) : Grown pairs leaves x
  | join {a b : α} (hpair : (a, b) ∈ pairs) (ha : Grown pairs leaves a)
      (hb : Grown pairs leaves b) : Grown pairs leaves (node a b)

variable {node}

theorem Grown.trans {pairs pairs' : List (α × α)} {leaves leaves' : List α} {x : α}
    (h : Grown node pairs leaves x) (hpairs : ∀ p ∈ pairs, p ∈ pairs')
    (hleaves : ∀ y ∈ leaves, Grown node pairs' leaves' y) : Grown node pairs' leaves' x := by
  induction h with
  | leaf h => exact hleaves _ h
  | join hpair _ _ iha ihb => exact .join (hpairs _ hpair) iha ihb

/-- A node one level up is carried, or joined from a pair. -/
theorem mem_joinPairs {level : List α} {x : α} (h : x ∈ joinPairs node level) :
    x ∈ level ∨ ∃ a b, (a, b) ∈ pairsOf level ∧ a ∈ level ∧ b ∈ level ∧ x = node a b := by
  match level with
  | [] => exact .inl h
  | [_] => exact .inl h
  | c :: d :: rest =>
      rw [joinPairs, List.mem_cons] at h
      rcases h with rfl | h
      · exact .inr ⟨c, d, by simp [pairsOf], by simp, by simp, rfl⟩
      rcases mem_joinPairs h with hmem | ⟨a, b, hpair, ha, hb, hx⟩
      · exact .inl (by simp [hmem])
      · exact .inr ⟨a, b, by simp [pairsOf, hpair], by simp [ha], by simp [hb], hx⟩

/-- The top is grown from the leaves. -/
theorem grown_top {level : List α} {x : α} (h : topOf node level = some x) :
    Grown node (allPairs node level) level x := by
  induction level using levelInduction node generalizing x with
  | top level hshort =>
      rw [topOf_of_le_one node hshort] at h
      exact .leaf (List.mem_of_mem_head? h)
  | up level hlong ih =>
      rw [topOf_of_one_lt node hlong] at h
      have hpairs : allPairs node level =
          pairsOf level ++ allPairs node (joinPairs node level) := by
        rw [allPairs, levelsUp_of_one_lt node hlong, List.flatMap_cons]
        rfl
      refine (ih h).trans (fun p hp => ?_) fun y hy => ?_
      · rw [hpairs]
        exact List.mem_append_right _ hp
      · rcases mem_joinPairs hy with hmem | ⟨a, b, hpair, ha, hb, rfl⟩
        · exact .leaf hmem
        · refine .join ?_ (.leaf ha) (.leaf hb)
          rw [hpairs]
          exact List.mem_append_left _ hpair

end CoreTex.Lib
