import CoreTex.Lib.Bfs
import CoreTex.Lib.JsMap

/-!
# CoreTex.Eval.IrMetrics

The multi-hop hit of the relation graph (`multiHopRelationHit` of `eval/ir-metrics.ts`).
-/

namespace CoreTex.Eval

open CoreTex.Lib

variable {Slot : Type} [DecidableEq Slot]

/-- The neighbours of a slot, none where the graph does not have it. -/
def neighbours (relationGraph : JsMap Slot (List Slot)) (slot : Slot) : List Slot :=
  (relationGraph.get slot).getD []

/-- The slots of an array in the order they are first seen. -/
def slotSet (slots : List Slot) : List Slot :=
  slots.foldl (fun seen slot => if slot ∈ seen then seen else seen ++ [slot]) []

def anyOverlap (a b : List Slot) : Bool :=
  a.any fun slot => slot ∈ b

def multiHopRelationHit (candidateMemorySlots answerMemorySlots : List Slot)
    (relationGraph : JsMap Slot (List Slot)) (hopBudget : Nat) : Bool :=
  if answerMemorySlots.isEmpty then false
  else
    let visited := slotSet candidateMemorySlots
    if anyOverlap visited answerMemorySlots then true
    else Bfs.search answerMemorySlots (neighbours relationGraph) hopBudget visited visited

theorem mem_slotSet {slots : List Slot} {slot : Slot} : slot ∈ slotSet slots ↔ slot ∈ slots := by
  have hfold : ∀ seen : List Slot, slot ∈ slots.foldl
      (fun seen slot => if slot ∈ seen then seen else seen ++ [slot]) seen ↔
        slot ∈ seen ∨ slot ∈ slots := by
    induction slots with
    | nil => simp
    | cons head slots ih =>
        intro seen
        rw [List.foldl_cons, ih, List.mem_cons]
        split
        next hseen =>
          by_cases hslot : slot = head
          · simp [hslot, hseen]
          · simp [hslot]
        next => rw [List.mem_append, List.mem_singleton, or_assoc]
  rw [slotSet, hfold]
  simp

/-- A hit is a path within the budget. -/
theorem multiHopRelationHit_iff (candidateMemorySlots answerMemorySlots : List Slot)
    (relationGraph : JsMap Slot (List Slot)) (hopBudget : Nat) :
    multiHopRelationHit candidateMemorySlots answerMemorySlots relationGraph hopBudget = true ↔
      answerMemorySlots ≠ [] ∧ ∃ answer ∈ answerMemorySlots, ∃ candidate ∈ candidateMemorySlots,
        ∃ n ≤ hopBudget, Bfs.Path (neighbours relationGraph) n candidate answer := by
  unfold multiHopRelationHit
  by_cases hempty : answerMemorySlots.isEmpty = true
  · rw [if_pos hempty]
    refine ⟨fun h => (nomatch h), fun h => absurd (List.isEmpty_iff.mp hempty) h.1⟩
  · have hne : answerMemorySlots ≠ [] := fun h => hempty (List.isEmpty_iff.mpr h)
    rw [if_neg hempty]
    dsimp only
    split
    next hoverlap =>
      obtain ⟨slot, hslot, hanswer⟩ := List.any_eq_true.mp hoverlap
      exact ⟨fun _ => ⟨hne, slot, of_decide_eq_true hanswer, slot, mem_slotSet.mp hslot, 0,
        Nat.zero_le _, .nil slot⟩, fun _ => rfl⟩
    next hoverlap =>
      -- at the start the frontier is all that is marked
      have hclosed : Bfs.Closed (neighbours relationGraph) (slotSet candidateMemorySlots)
          (slotSet candidateMemorySlots) := fun x hx hnot => absurd hx hnot
      have hnone : ∀ slot ∈ slotSet candidateMemorySlots, slot ∉ answerMemorySlots :=
        fun slot hslot hanswer =>
          hoverlap (List.any_eq_true.mpr ⟨slot, hslot, decide_eq_true hanswer⟩)
      rw [Bfs.search_iff hopBudget (fun x hx => hx) hclosed hnone]
      simp only [mem_slotSet, ne_eq, hne, not_false_iff, true_and]

end CoreTex.Eval
