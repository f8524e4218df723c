import Mathlib.Data.List.Chain
import Mathlib.Order.Lattice

/-!
# CoreTex.Lib.Links

Chains over segments. A list of segments put one after the other is a chain when each segment is
one and each is linked to the next (`isChain_flatMap`), and in an ascending list the next one is
the least that is greater (`isChain_iff_previous`).
-/

namespace CoreTex.Lib

variable {ι α : Type}

theorem isChain_flatMap {R : α → α → Prop} {f : ι → List α} {is : List ι}
    (hne : ∀ i ∈ is, f i ≠ []) :
    List.IsChain R (is.flatMap f) ↔ (∀ i ∈ is, List.IsChain R (f i)) ∧
      List.IsChain (fun i j => ∀ x ∈ (f i).getLast?, ∀ y ∈ (f j).head?, R x y) is := by
  induction is with
  | nil => simp
  | cons i is ih =>
      rw [List.flatMap_cons, List.isChain_append, ih fun j hj => hne j (List.mem_cons_of_mem _ hj),
        List.forall_mem_cons]
      cases is with
      | nil => simp
      | cons j is =>
          have hhead : ((j :: is).flatMap f).head? = (f j).head? := by
            rw [List.flatMap_cons]
            exact List.head?_append_of_ne_nil _ (hne j (by simp))
          rw [hhead, List.isChain_cons_cons]
          tauto

section Ascending

variable [LinearOrder ι]

/-- `i` is the greatest of `is` below `j`. -/
def Previous (is : List ι) (i j : ι) : Prop :=
  i ∈ is ∧ i < j ∧ ∀ k ∈ is, k ≤ i ∨ j ≤ k

theorem isChain_iff_previous {S : ι → ι → Prop} {is : List ι} (h : is.Pairwise (· < ·)) :
    List.IsChain S is ↔ ∀ j ∈ is, ∀ i, Previous is i j → S i j := by
  induction is with
  | nil => simp
  | cons a is ih =>
      obtain ⟨hlt, hrest⟩ := List.pairwise_cons.mp h
      cases is with
      | nil =>
          refine ⟨fun _ j hj i hi => ?_, fun _ => List.isChain_singleton _⟩
          obtain rfl := List.mem_singleton.mp hj
          obtain rfl := List.mem_singleton.mp hi.1
          exact absurd hi.2.1 (lt_irrefl _)
      | cons b is =>
          have hab : a < b := hlt b List.mem_cons_self
          have hble : ∀ k ∈ b :: is, b ≤ k := by
            intro k hk
            rcases List.mem_cons.mp hk with rfl | hk
            · exact le_refl _
            · exact le_of_lt ((List.pairwise_cons.mp hrest).1 k hk)
          rw [List.isChain_cons_cons, ih hrest]
          constructor
          · rintro ⟨hfirst, hlater⟩ j hj i ⟨hi, hij, hbetween⟩
            rcases List.mem_cons.mp hj with rfl | hjlater
            · rcases List.mem_cons.mp hi with rfl | hi
              · exact absurd hij (lt_irrefl _)
              · exact absurd hij (not_lt_of_gt (hlt i hi))
            · rcases List.mem_cons.mp hi with rfl | hi
              · have hjb : j ≤ b :=
                  (hbetween b (by simp)).resolve_left (not_le_of_gt hab)
                rw [le_antisymm hjb (hble j hjlater)]
                exact hfirst
              · exact hlater j hjlater i
                  ⟨hi, hij, fun k hk => hbetween k (List.mem_cons_of_mem _ hk)⟩
          · intro hall
            refine ⟨hall b (by simp) a ⟨by simp, hab, fun k hk => ?_⟩, fun j hj i hi => ?_⟩
            · rcases List.mem_cons.mp hk with rfl | hk
              · exact .inl (le_refl _)
              · exact .inr (hble k hk)
            · obtain ⟨hi, hij, hbetween⟩ := hi
              refine hall j (List.mem_cons_of_mem _ hj) i
                ⟨List.mem_cons_of_mem _ hi, hij, fun k hk => ?_⟩
              rcases List.mem_cons.mp hk with rfl | hk
              · exact .inl (le_of_lt (hlt i hi))
              · exact hbetween k hk

end Ascending

end CoreTex.Lib
