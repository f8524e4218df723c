import Mathlib.Data.List.Induction
import Mathlib.Data.List.Perm.Basic
import Mathlib.Data.List.Dedup
import Mathlib.Tactic.Common

/-!
# CoreTex.Lib.Overwrite

Indexed writes into a list, and greedy selection of items whose writes do not overlap.

`overwrite l ws` performs the writes `ws` in order. Writes at disjoint positions
commute (`overwrite_comm`). `greedy` walks over a list of items, skips an item that
touches a position already used, and otherwise tries a partial step. When the items are
`Compatible` — pairwise disjoint footprints, and each can be taken on top of any
others — the greedy walk takes exactly the items it meets, each once, in whatever order
and with whatever repetitions they come (`greedy_of_compatible`), and the state it ends
in does not depend on the order (`foldl_write_perm`).
-/

namespace CoreTex.Lib

variable {α ι σ κ : Type}

/-! ### Writes into a list -/

/-- Perform the writes `ws` on `l`, in order. -/
def overwrite (l : List α) (ws : List (Nat × α)) : List α :=
  ws.foldl (fun l w => l.set w.1 w.2) l

@[simp] theorem overwrite_nil (l : List α) : overwrite l [] = l := rfl

@[simp] theorem overwrite_cons (l : List α) (w : Nat × α) (ws : List (Nat × α)) :
    overwrite l (w :: ws) = overwrite (l.set w.1 w.2) ws := rfl

@[simp] theorem length_overwrite (l : List α) (ws : List (Nat × α)) :
    (overwrite l ws).length = l.length := by
  induction ws generalizing l with
  | nil => rfl
  | cons w ws ih => simp [ih]

theorem getElem?_overwrite_of_not_mem (l : List α) {ws : List (Nat × α)} {i : Nat}
    (h : i ∉ ws.map Prod.fst) : (overwrite l ws)[i]? = l[i]? := by
  induction ws generalizing l with
  | nil => rfl
  | cons w ws ih =>
      simp only [List.map_cons, List.mem_cons, not_or] at h
      rw [overwrite_cons, ih _ h.2, List.getElem?_set_ne (Ne.symm h.1)]

/-- With distinct positions every write is still there at the end. -/
theorem getElem?_overwrite_of_mem (l : List α) {ws : List (Nat × α)}
    (hnodup : (ws.map Prod.fst).Nodup) {i : Nat} {v : α} (h : (i, v) ∈ ws) (hi : i < l.length) :
    (overwrite l ws)[i]? = some v := by
  induction ws generalizing l with
  | nil => simp at h
  | cons w ws ih =>
      rw [List.map_cons, List.nodup_cons] at hnodup
      rw [overwrite_cons]
      rcases List.mem_cons.mp h with rfl | h
      · rw [getElem?_overwrite_of_not_mem _ hnodup.1, List.getElem?_set_self hi]
      · exact ih _ hnodup.2 h (by simpa using hi)

/-- A write at a position the later writes leave alone can be done last. -/
theorem overwrite_set_comm (l : List α) {ws : List (Nat × α)} {i : Nat}
    (h : i ∉ ws.map Prod.fst) (v : α) : overwrite (l.set i v) ws = (overwrite l ws).set i v := by
  induction ws generalizing l with
  | nil => rfl
  | cons w ws ih =>
      simp only [List.map_cons, List.mem_cons, not_or] at h
      rw [overwrite_cons, overwrite_cons, List.set_comm _ _ h.1, ih _ h.2]

/-- **Disjoint writes commute.** -/
theorem overwrite_comm (l : List α) {as bs : List (Nat × α)}
    (h : ∀ i ∈ as.map Prod.fst, i ∉ bs.map Prod.fst) :
    overwrite (overwrite l as) bs = overwrite (overwrite l bs) as := by
  induction as generalizing l with
  | nil => rfl
  | cons a as ih =>
      rw [overwrite_cons, overwrite_cons, ih _ (fun i hi => h i (by simp [hi])),
        overwrite_set_comm _ (h a.1 (by simp))]

theorem overwrite_append (l : List α) (as bs : List (Nat × α)) :
    overwrite l (as ++ bs) = overwrite (overwrite l as) bs := by
  simp only [overwrite, List.foldl_append]

/-- Mapping a function over a list commutes with writing. -/
theorem map_overwrite {β : Type} (f : α → β) (l : List α) (ws : List (Nat × α)) :
    (overwrite l ws).map f = overwrite (l.map f) (ws.map fun w => (w.1, f w.2)) := by
  induction ws generalizing l with
  | nil => rfl
  | cons w ws ih => rw [overwrite_cons, ih, List.map_set, List.map_cons, overwrite_cons]

/-! ### Greedy selection without overlap -/

section Greedy

variable [DecidableEq κ] (foot : ι → List κ) (step : σ → ι → Option σ)

/-- What a greedy walk carries: the items taken so far, the positions they used and the
state they led to. -/
structure GreedyState (ι σ κ : Type) where
  taken : List ι
  used : List κ
  state : σ

/-- Skip an item that overlaps the used positions, else try the step. -/
def greedyStep (g : GreedyState ι σ κ) (x : ι) : GreedyState ι σ κ :=
  if (foot x).any (· ∈ g.used) then g
  else
    match step g.state x with
    | none => g
    | some s => ⟨g.taken ++ [x], g.used ++ foot x, s⟩

/-- The greedy walk over `xs` from the state `s`. -/
def greedy (s : σ) (xs : List ι) : GreedyState ι σ κ :=
  xs.foldl (greedyStep foot step) ⟨[], [], s⟩

theorem greedy_append_singleton (s : σ) (xs : List ι) (x : ι) :
    greedy foot step s (xs ++ [x]) = greedyStep foot step (greedy foot step s xs) x := by
  rw [greedy, greedy, List.foldl_append]
  rfl

/-- A family of items that can be taken together, in any order: their footprints are
inhabited and pairwise disjoint, and each member steps to its `write` on top of any of
the others. -/
structure Compatible (write : σ → ι → σ) (s : σ) (family : List ι) : Prop where
  foot_ne_nil : ∀ x ∈ family, foot x ≠ []
  disjoint : ∀ x ∈ family, ∀ y ∈ family, x ≠ y → ∀ k ∈ foot x, k ∉ foot y
  step_eq : ∀ taken : List ι, taken ⊆ family → ∀ x ∈ family, x ∉ taken →
    step (taken.foldl write s) x = some (write (taken.foldl write s) x)

variable {foot step} {write : σ → ι → σ} {s : σ} {family : List ι}

/-- What holds after a greedy walk over `seen`. -/
structure GreedyInv (foot : ι → List κ) (write : σ → ι → σ) (s : σ) (seen : List ι)
    (g : GreedyState ι σ κ) : Prop where
  nodup : g.taken.Nodup
  mem_taken : ∀ x, x ∈ g.taken ↔ x ∈ seen
  used_eq : g.used = g.taken.flatMap foot
  state_eq : g.state = g.taken.foldl write s

theorem GreedyInv.greedyStep (hfam : Compatible foot step write s family) {seen : List ι}
    {g : GreedyState ι σ κ} (hseen : seen ⊆ family) (h : GreedyInv foot write s seen g)
    {x : ι} (hx : x ∈ family) :
    GreedyInv foot write s (seen ++ [x]) (CoreTex.Lib.greedyStep foot step g x) := by
  have htaken : g.taken ⊆ family := fun y hy => hseen ((h.mem_taken y).mp hy)
  unfold CoreTex.Lib.greedyStep
  by_cases hmem : x ∈ g.taken
  · -- a repetition: `x` overlaps itself
    obtain ⟨k, hk⟩ := List.exists_mem_of_ne_nil _ (hfam.foot_ne_nil x hx)
    have hover : (foot x).any (· ∈ g.used) = true := by
      rw [List.any_eq_true]
      exact ⟨k, hk, by simpa [h.used_eq] using ⟨x, hmem, hk⟩⟩
    rw [if_pos hover]
    refine ⟨h.nodup, fun y => ?_, h.used_eq, h.state_eq⟩
    rw [h.mem_taken, List.mem_append, List.mem_singleton]
    exact ⟨Or.inl, fun hy => hy.elim id (fun e => e ▸ (h.mem_taken x).mp hmem)⟩
  · have hover : ¬ ((foot x).any (· ∈ g.used) = true) := by
      simp only [List.any_eq_true, decide_eq_true_eq, not_exists, not_and, h.used_eq,
        List.mem_flatMap]
      rintro k hk y hy hky
      exact hfam.disjoint x hx y (htaken hy) (fun e => hmem (e ▸ hy)) k hk hky
    rw [if_neg hover, h.state_eq, hfam.step_eq g.taken htaken x hx hmem]
    refine ⟨?_, fun y => ?_, ?_, ?_⟩
    · exact List.nodup_append.mpr ⟨h.nodup, List.nodup_singleton x, fun a ha b hb e => by
        rw [List.mem_singleton] at hb
        exact hmem (hb ▸ e ▸ ha)⟩
    · simp [h.mem_taken]
    · simp [h.used_eq]
    · simp

/-- **Greedy over a compatible family** takes every item it meets, each once. -/
theorem greedy_of_compatible (hfam : Compatible foot step write s family) {xs : List ι}
    (hxs : xs ⊆ family) : GreedyInv foot write s xs (greedy foot step s xs) := by
  induction xs using List.reverseRecOn with
  | nil => exact ⟨List.nodup_nil, fun _ => Iff.rfl, rfl, rfl⟩
  | append_singleton xs x ih =>
      have hxs' : xs ⊆ family := fun y hy => hxs (List.mem_append_left _ hy)
      have hx : x ∈ family := hxs (List.mem_append_right _ (List.mem_singleton_self x))
      rw [greedy_append_singleton]
      exact (ih hxs').greedyStep hfam hxs' hx

/-- Items that write apart may be written in any order. -/
theorem foldl_write_perm {l l' : List ι} (h : l.Perm l')
    (hcomm : ∀ x ∈ l, ∀ y ∈ l, x ≠ y → ∀ s, write (write s x) y = write (write s y) x) (s : σ) :
    l.foldl write s = l'.foldl write s :=
  h.foldl_eq' (fun x hx y hy s => by
    by_cases e : x = y
    · rw [e]
    · exact hcomm x hx y hy e s) s

end Greedy

end CoreTex.Lib
