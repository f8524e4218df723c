import Mathlib.Data.List.Sort
import Mathlib.Tactic.Common

/-!
# CoreTex.Lib.Sort

Sorting by a three-way comparator, as a host language's library documents it.

`CompareSort` is any sort that always returns a rearrangement of its input, and that
returns a sorted and stable one when the comparator is consistent. Nothing is said of
the order an inconsistent comparator produces. `CompareSort.merge` is an instance, by
merge sort. `sort_eq_of_perm` is what makes a sort forget the order of its input: when
the comparator ties only equal elements, permuted inputs sort to the same list.
-/

namespace CoreTex.Lib

/-- A comparator that orders all of `α` consistently: a total preorder, read through
the sign of the answer. -/
structure Consistent {α : Type} (cmp : α → α → Int) : Prop where
  swap : ∀ a b, cmp a b ≤ 0 ∨ cmp b a ≤ 0
  trans : ∀ a b c, cmp a b ≤ 0 → cmp b c ≤ 0 → cmp a c ≤ 0

/-- A sort by a three-way comparator, with what its documentation promises. -/
structure CompareSort where
  sort : {α : Type} → (α → α → Int) → List α → List α
  perm : ∀ {α : Type} (cmp : α → α → Int) (l : List α), (sort cmp l).Perm l
  sorted : ∀ {α : Type} (cmp : α → α → Int) (l : List α), Consistent cmp →
    (sort cmp l).Pairwise (fun a b => cmp a b ≤ 0)
  stable : ∀ {α : Type} (cmp : α → α → Int) (l : List α), Consistent cmp →
    ∀ a b, cmp a b ≤ 0 → [a, b].Sublist l → [a, b].Sublist (sort cmp l)

/-- The `≤` a comparator decides. -/
def leOf {α : Type} (cmp : α → α → Int) (a b : α) : Bool :=
  decide (cmp a b ≤ 0)

theorem Consistent.leOf_trans {α : Type} {cmp : α → α → Int} (h : Consistent cmp) (a b c : α)
    (hab : leOf cmp a b = true) (hbc : leOf cmp b c = true) : leOf cmp a c = true :=
  decide_eq_true (h.trans a b c (of_decide_eq_true hab) (of_decide_eq_true hbc))

theorem Consistent.leOf_total {α : Type} {cmp : α → α → Int} (h : Consistent cmp) (a b : α) :
    (leOf cmp a b || leOf cmp b a) = true := by
  rcases h.swap a b with hab | hba
  · rw [leOf, decide_eq_true hab, Bool.true_or]
  · rw [leOf, leOf, decide_eq_true hba, Bool.or_true]

/-- Merge sort, comparing by the sign of the comparator. -/
def CompareSort.merge : CompareSort where
  sort cmp l := l.mergeSort (leOf cmp)
  perm cmp l := List.mergeSort_perm l (leOf cmp)
  sorted _ l h :=
    (List.pairwise_mergeSort h.leOf_trans h.leOf_total l).imp of_decide_eq_true
  stable _ _ h _ _ hab hl :=
    List.pair_sublist_mergeSort h.leOf_trans h.leOf_total (decide_eq_true hab) hl

variable {α : Type} {cmp : α → α → Int}

theorem CompareSort.mem_sort (S : CompareSort) (cmp : α → α → Int) {l : List α} {a : α} :
    a ∈ S.sort cmp l ↔ a ∈ l :=
  (S.perm cmp l).mem_iff

/-- **A sort forgets the order of its input** when elements that tie are equal. -/
theorem CompareSort.sort_eq_of_perm (S : CompareSort) (hcmp : Consistent cmp) {l l' : List α}
    (hperm : l.Perm l')
    (htie : ∀ a ∈ l, ∀ b ∈ l, cmp a b ≤ 0 → cmp b a ≤ 0 → a = b) :
    S.sort cmp l = S.sort cmp l' := by
  have hsorts : (S.sort cmp l).Perm (S.sort cmp l') :=
    ((S.perm cmp l).trans hperm).trans (S.perm cmp l').symm
  refine List.Perm.eq_of_pairwise ?_ (S.sorted cmp l hcmp) (S.sorted cmp l' hcmp) hsorts
  intro a b ha hb hab hba
  exact htie a ((S.mem_sort cmp).mp ha) b (hperm.mem_iff.mpr ((S.mem_sort cmp).mp hb)) hab hba

/-- A list that is in order already stays as it is, when elements that tie are equal. -/
theorem CompareSort.sort_eq_self (S : CompareSort) (hcmp : Consistent cmp) {l : List α}
    (hsorted : l.Pairwise fun a b => cmp a b ≤ 0)
    (htie : ∀ a ∈ l, ∀ b ∈ l, cmp a b ≤ 0 → cmp b a ≤ 0 → a = b) : S.sort cmp l = l := by
  refine List.Perm.eq_of_pairwise ?_ (S.sorted cmp l hcmp) hsorted (S.perm cmp l)
  intro a b ha hb hab hba
  exact htie a ((S.mem_sort cmp).mp ha) b hb hab hba

/-! ### Ties keep their order -/

/-- Of two entries one comes first. -/
theorem pair_sublist_or {l : List α} {a b : α} (ha : a ∈ l) (hb : b ∈ l) (hne : a ≠ b) :
    [a, b].Sublist l ∨ [b, a].Sublist l := by
  induction l with
  | nil => exact absurd ha List.not_mem_nil
  | cons c l ih =>
      rcases List.mem_cons.mp ha with rfl | hal
      · have hbl : b ∈ l := (List.mem_cons.mp hb).resolve_left hne.symm
        exact .inl ((List.singleton_sublist.mpr hbl).cons_cons a)
      · rcases List.mem_cons.mp hb with rfl | hbl
        · exact .inr ((List.singleton_sublist.mpr hal).cons_cons b)
        · exact (ih hal hbl).imp (·.cons c) (·.cons c)

/-- In a list without repetitions at most one comes first. -/
theorem not_pair_sublist {l : List α} (hnodup : l.Nodup) {a b : α} (hab : [a, b].Sublist l)
    (hba : [b, a].Sublist l) : a = b := by
  induction l with
  | nil => cases hab
  | cons c l ih =>
      rw [List.nodup_cons] at hnodup
      cases hab with
      | cons _ hab =>
          cases hba with
          | cons _ hba => exact ih hnodup.2 hab hba
          | cons_cons _ hba => exact absurd (hab.subset (by simp)) hnodup.1
      | cons_cons _ hab =>
          cases hba with
          | cons _ hba => exact absurd (hba.subset (by simp)) hnodup.1
          | cons_cons _ hba => rfl

/-- **A stable sort is determined by its ties**: it gives back a sorted list without repetitions
from any rearrangement of it that keeps the entries that tie as they were. -/
theorem CompareSort.sort_eq_of_ties (S : CompareSort) (hcmp : Consistent cmp) {l l' : List α}
    (hperm : l'.Perm l) (hnodup : l.Nodup) (hsorted : l.Pairwise fun a b => cmp a b ≤ 0)
    (hties : ∀ a b, cmp a b ≤ 0 → cmp b a ≤ 0 → [a, b].Sublist l → [a, b].Sublist l') :
    S.sort cmp l' = l := by
  have hsorts : (S.sort cmp l').Perm l := (S.perm cmp l').trans hperm
  have hsnodup : (S.sort cmp l').Nodup := hsorts.nodup_iff.mpr hnodup
  let keeps : α → α → Prop := fun a b => [a, b].Sublist (S.sort cmp l')
  refine @List.Perm.eq_of_pairwise α keeps _ _ ?_ ?_ ?_ hsorts
  · exact fun a b _ _ hab hba => not_pair_sublist hsnodup hab hba
  · exact List.pairwise_iff_forall_sublist.mpr fun h => h
  · refine List.pairwise_iff_forall_sublist.mpr fun {a b} hab => ?_
    have hle : cmp a b ≤ 0 := List.pairwise_iff_forall_sublist.mp hsorted hab
    by_cases hge : cmp b a ≤ 0
    · exact S.stable cmp l' hcmp a b hle (hties a b hle hge hab)
    · have hne : a ≠ b := by
        rintro rfl
        exact hge hle
      have hmem : ∀ c ∈ l, c ∈ S.sort cmp l' := fun c hc => hsorts.mem_iff.mpr hc
      -- the other order would be a sorted list with `b` before `a`
      refine (pair_sublist_or (hmem a (hab.subset (by simp))) (hmem b (hab.subset (by simp)))
        hne).resolve_right fun hba => hge ?_
      exact List.pairwise_iff_forall_sublist.mp (S.sorted cmp l' hcmp) hba

/-! ### Insertion sort -/

section Insertion

variable {α : Type} {le : α → α → Prop} [DecidableRel le] [IsTrans α le]

theorem filter_orderedInsert {p : α → Bool} {a : α} {s : List α} (hs : s.Pairwise le) :
    (s.orderedInsert le a).filter p =
      if p a then (s.filter p).orderedInsert le a else s.filter p := by
  induction s with
  | nil => cases hp : p a <;> simp [hp]
  | cons b s ih =>
      rw [List.pairwise_cons] at hs
      by_cases hab : le a b
      · rw [List.orderedInsert_cons, if_pos hab, List.filter_cons]
        have hle : ∀ c ∈ (b :: s).filter p, le a c := by
          intro c hc
          rcases List.mem_cons.mp (List.mem_of_mem_filter hc) with rfl | hc
          · exact hab
          · exact IsTrans.trans _ _ _ hab (hs.1 c hc)
        cases hp : p a
        · simp
        · cases hf : (b :: s).filter p with
          | nil => simp
          | cons c t => simp [hle c (by simp [hf])]
      · rw [List.orderedInsert_cons, if_neg hab, List.filter_cons, ih hs.2, List.filter_cons]
        cases hp : p a <;> cases hb : p b <;> simp [hab]

variable [Std.Total le]

/-- Sorting commutes with dropping elements. -/
theorem filter_insertionSort (p : α → Bool) (l : List α) :
    (l.insertionSort le).filter p = (l.filter p).insertionSort le := by
  induction l with
  | nil => rfl
  | cons a l ih =>
      rw [List.insertionSort_cons, filter_orderedInsert (List.pairwise_insertionSort le l), ih,
        List.filter_cons]
      cases p a <;> simp

omit [Std.Total le] in
theorem getLast?_orderedInsert {s : List α} (hs : s.Pairwise le) {a y : α}
    (hy : s.getLast? = some y) :
    (s.orderedInsert le a).getLast? = if le a y then some y else some a := by
  induction s with
  | nil => simp at hy
  | cons b s ih =>
      rw [List.pairwise_cons] at hs
      rw [List.orderedInsert_cons]
      cases s with
      | nil =>
          obtain rfl : b = y := by simpa using hy
          by_cases hab : le a b <;> simp [hab]
      | cons c s =>
          rw [List.getLast?_cons_cons] at hy
          have hby : le b y := hs.1 y (List.mem_of_getLast? hy)
          by_cases hab : le a b
          · rw [if_pos hab, if_pos (IsTrans.trans _ _ _ hab hby), List.getLast?_cons_cons,
              List.getLast?_cons_cons, hy]
          · have hne : (c :: s).orderedInsert le a ≠ [] := by
              simp [List.orderedInsert_cons]
              split <;> simp
            rw [if_neg hab, List.getLast?_cons_of_ne_nil hne, ih hs.2 hy]

/-- The last element of a stable sort is the last of the greatest elements. -/
theorem getLast?_insertionSort {l : List α} {x : α} :
    (l.insertionSort le).getLast? = some x ↔
      ∃ before after, l = before ++ x :: after ∧ (∀ a ∈ before, le a x) ∧
        ∀ a ∈ after, ¬ le x a := by
  induction l generalizing x with
  | nil => simp
  | cons a t ih =>
      rw [List.insertionSort_cons]
      cases hlast : (t.insertionSort le).getLast? with
      | none =>
          have hempty : t = [] := by
            simpa [← List.length_eq_zero_iff] using List.getLast?_eq_none_iff.mp hlast
          subst hempty
          constructor
          · intro h
            obtain rfl : a = x := by simpa using h
            exact ⟨[], [], rfl, by simp, by simp⟩
          · rintro ⟨before, after, heq, -, -⟩
            cases before <;> simp_all
      | some y =>
          rw [getLast?_orderedInsert (List.pairwise_insertionSort le t) hlast]
          obtain ⟨before, after, rfl, hbefore, hafter⟩ := ih.mp hlast
          have hgreatest : ∀ c ∈ before ++ y :: after, le c y := by
            intro c hc
            rcases List.mem_append.mp hc with hc | hc
            · exact hbefore c hc
            · rcases List.mem_cons.mp hc with rfl | hc
              · exact (or_self_iff.mp (Std.Total.total (r := le) c c))
              · exact (Std.Total.total (r := le) c y).resolve_right (hafter c hc)
          constructor
          · intro h
            by_cases hay : le a y
            · obtain rfl : y = x := by simpa [hay] using h
              refine ⟨a :: before, after, rfl, ?_, hafter⟩
              simpa [hay] using hbefore
            · obtain rfl : a = x := by simpa [hay] using h
              refine ⟨[], _, rfl, by simp, fun c hc hac => hay ?_⟩
              exact IsTrans.trans _ _ _ hac (hgreatest c hc)
          · rintro ⟨before', after', heq, hbefore', hafter'⟩
            cases before' with
            | nil =>
                obtain ⟨rfl, rfl⟩ := List.cons.inj heq
                rw [if_neg (hafter' y (by simp))]
            | cons b before' =>
                obtain ⟨rfl, ht⟩ := List.cons.inj heq
                have hx := ih.mpr ⟨before', after', ht, fun c hc => hbefore' c (by simp [hc]),
                  hafter'⟩
                obtain rfl : y = x := Option.some.inj (hlast.symm.trans hx)
                rw [if_pos (hbefore' a (by simp))]

end Insertion

end CoreTex.Lib
