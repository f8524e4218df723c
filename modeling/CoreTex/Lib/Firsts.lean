import Mathlib.Data.List.Perm.Basic
import Mathlib.Tactic.Common

/-!
# CoreTex.Lib.Firsts

The first entry of every key: what is left of a list when a loop skips each entry whose key it has
seen before.

Which entry stands for a key depends on the order of the list, which keys there are does not
(`keys_firsts_perm`).
-/

namespace CoreTex.Lib

variable {α κ : Type} [DecidableEq κ] {key : α → κ} {seen : List κ} {xs ys : List α}

/-- The entries whose key is not in `seen` and not that of an earlier entry. -/
def firsts (key : α → κ) : List κ → List α → List α
  | _, [] => []
  | seen, x :: xs =>
    if key x ∈ seen then firsts key seen xs else x :: firsts key (seen ++ [key x]) xs

@[simp] theorem firsts_nil : firsts key seen [] = [] := rfl

theorem firsts_cons_seen {x : α} (h : key x ∈ seen) :
    firsts key seen (x :: xs) = firsts key seen xs :=
  if_pos h

theorem firsts_cons_new {x : α} (h : key x ∉ seen) :
    firsts key seen (x :: xs) = x :: firsts key (seen ++ [key x]) xs :=
  if_neg h

theorem firsts_subset : firsts key seen xs ⊆ xs := by
  induction xs generalizing seen with
  | nil => exact List.Subset.refl _
  | cons x xs ih =>
      by_cases h : key x ∈ seen
      · rw [firsts_cons_seen h]
        exact fun a ha => List.mem_cons_of_mem x (ih ha)
      · rw [firsts_cons_new h]
        exact List.cons_subset_cons x ih

/-- Every new key has an entry. -/
theorem mem_keys_firsts {k : κ} :
    k ∈ (firsts key seen xs).map key ↔ k ∈ xs.map key ∧ k ∉ seen := by
  induction xs generalizing seen with
  | nil => simp
  | cons x xs ih =>
      by_cases h : key x ∈ seen
      · rw [firsts_cons_seen h, ih, List.map_cons, List.mem_cons]
        refine ⟨fun hk => ⟨.inr hk.1, hk.2⟩, fun hk => ⟨hk.1.resolve_left ?_, hk.2⟩⟩
        rintro rfl
        exact hk.2 h
      · rw [firsts_cons_new h, List.map_cons, List.mem_cons, ih, List.map_cons, List.mem_cons,
          List.mem_append, List.mem_singleton]
        by_cases hk : k = key x
        · simp [hk, h]
        · simp [hk]

/-- No key has two. -/
theorem nodup_keys_firsts : ((firsts key seen xs).map key).Nodup := by
  induction xs generalizing seen with
  | nil => exact List.nodup_nil
  | cons x xs ih =>
      by_cases h : key x ∈ seen
      · rw [firsts_cons_seen h]
        exact ih
      · rw [firsts_cons_new h, List.map_cons, List.nodup_cons]
        refine ⟨fun hk => (mem_keys_firsts.mp hk).2 ?_, ih⟩
        exact List.mem_append_right _ (List.mem_singleton.mpr rfl)

/-- **The keys do not depend on the order.** -/
theorem keys_firsts_perm (h : ∀ k, k ∈ xs.map key ↔ k ∈ ys.map key) :
    ((firsts key seen xs).map key).Perm ((firsts key seen ys).map key) := by
  refine (List.perm_ext_iff_of_nodup nodup_keys_firsts nodup_keys_firsts).mpr fun k => ?_
  rw [mem_keys_firsts, mem_keys_firsts, h k]

end CoreTex.Lib
