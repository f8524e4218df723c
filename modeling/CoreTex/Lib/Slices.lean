import CoreTex.Lib.Overwrite
import Mathlib.Algebra.Order.Group.Nat

/-!
# CoreTex.Lib.Slices

A list cut into consecutive slices of one size, and results scattered to the positions they were
asked for.

`flatten_slices` says that the slices make up the list. `overwrite_zip_perm` says that scattering
the results of the positions in any order is computing them in place.
-/

namespace CoreTex.Lib

variable {α : Type}

/-! ### Consecutive slices -/

/-- The slices of `size` elements at `0`, `size`, `2 * size`, …; the last one may be shorter. -/
def slices (size : Nat) (l : List α) : List (List α) :=
  (List.range ((l.length + size - 1) / size)).map fun i => (l.drop (i * size)).take size

theorem flatten_map_slice (size : Nat) (l : List α) (k : Nat) :
    ((List.range k).map fun i => (l.drop (i * size)).take size).flatten = l.take (k * size) := by
  induction k with
  | zero => simp
  | succ k ih =>
      rw [List.range_succ, List.map_append, List.flatten_append, ih, Nat.succ_mul, List.take_add]
      simp

theorem le_slices_mul {size : Nat} (hsize : 0 < size) (n : Nat) :
    n ≤ (n + size - 1) / size * size := by
  have hmod := Nat.mod_lt (n + size - 1) hsize
  have hdiv := Nat.div_add_mod (n + size - 1) size
  rw [Nat.mul_comm] at hdiv
  omega

/-- The slices make up the list. -/
theorem flatten_slices {size : Nat} (hsize : 0 < size) (l : List α) :
    (slices size l).flatten = l := by
  rw [slices, flatten_map_slice]
  exact List.take_of_length_le (le_slices_mul hsize l.length)

theorem mem_slices {size : Nat} {l s : List α} :
    s ∈ slices size l ↔
      ∃ i < (l.length + size - 1) / size, (l.drop (i * size)).take size = s := by
  simp [slices]

theorem length_le_of_mem_slices {size : Nat} {l s : List α} (h : s ∈ slices size l) :
    s.length ≤ size := by
  obtain ⟨i, -, rfl⟩ := mem_slices.mp h
  exact List.length_take_le _ _

theorem ne_nil_of_mem_slices {size : Nat} (hsize : 0 < size) {l s : List α}
    (h : s ∈ slices size l) : s ≠ [] := by
  obtain ⟨i, hi, rfl⟩ := mem_slices.mp h
  have hle : (i + 1) * size ≤ l.length + size - 1 :=
    (Nat.le_div_iff_mul_le hsize).mp hi
  rw [Nat.succ_mul] at hle
  intro hnil
  have hlen := congrArg List.length hnil
  rw [List.length_take, List.length_drop, List.length_nil] at hlen
  omega

/-! ### Scattering -/

/-- The slices scattered one after the other write what the whole list would. -/
theorem foldl_overwrite_slices {β : Type} (f : β → α) (acc : List α) (buckets : List (List Nat))
    (g : Nat → β) :
    buckets.foldl (fun acc bucket => overwrite acc (bucket.zip ((bucket.map g).map f))) acc =
      overwrite acc (buckets.flatten.map fun i => (i, f (g i))) := by
  induction buckets generalizing acc with
  | nil => rfl
  | cons bucket buckets ih =>
      have hzip : bucket.zip ((bucket.map g).map f) = bucket.map fun i => (i, f (g i)) := by
        have h : (bucket.map id).zip (bucket.map (f ∘ g)) = bucket.map fun i => (i, f (g i)) :=
          List.zip_map'
        rw [List.map_id] at h
        rw [List.map_map, h]
      rw [List.foldl_cons, ih, hzip, List.flatten_cons, List.map_append, overwrite_append]

/-- **Scattering is computing in place.** -/
theorem overwrite_zip_perm {n : Nat} {order : List Nat} (hperm : order.Perm (List.range n))
    {acc : List α} (hacc : acc.length = n) (f : Nat → α) :
    overwrite acc (order.map fun i => (i, f i)) = (List.range n).map f := by
  have hkeys : (order.map fun i => (i, f i)).map Prod.fst = order := by
    rw [List.map_map]
    exact List.map_id order
  have hnodup : ((order.map fun i => (i, f i)).map Prod.fst).Nodup := by
    rw [hkeys]
    exact hperm.nodup_iff.mpr List.nodup_range
  apply List.ext_getElem?
  intro i
  by_cases hi : i < n
  · have hmem : (i, f i) ∈ order.map fun i => (i, f i) :=
      List.mem_map_of_mem (f := fun i => (i, f i)) (hperm.mem_iff.mpr (List.mem_range.mpr hi))
    rw [getElem?_overwrite_of_mem acc hnodup hmem (hacc ▸ hi), List.getElem?_map,
      List.getElem?_range hi]
    rfl
  · have hlen : (overwrite acc (order.map fun i => (i, f i))).length ≤ i := by
      rw [length_overwrite, hacc]
      omega
    rw [List.getElem?_eq_none hlen, List.getElem?_eq_none (by simpa using hi)]

end CoreTex.Lib
