import Mathlib.Algebra.Order.BigOperators.Group.Finset
import Mathlib.Data.DFinsupp.WellFounded
import Mathlib.Data.Int.ConditionallyCompleteOrder
import Mathlib.Data.List.Chain
import Mathlib.Data.Prod.Lex
import Mathlib.Order.OrderIsoNat
import Mathlib.Tactic.Abel
import Mathlib.Tactic.Ring

/-!
# CoreTex.Lib.Trade

Replacements that are compared axis by axis.

A bounded trade may lower an axis by at most a tolerance, and pays a ratio of gains for
every point it lowers, so it never lowers the sum of the axes (`BoundedTrade.sum_le`), and
what a chain of trades lowers, its rise has paid (`BoundedTrade.net_le`, `sum_cost_le`).

Progress raises a rank, or holds it and lowers a usage. It is a strict order
(`Progress.trans`, `Progress.irrefl`), so nothing recurs along a chain of steps that make
progress (`nodup_of_progress`), and no chain is endless when the rank is bounded and the
usages are not negative (`wellFounded_of_progress`).
-/

namespace CoreTex.Lib

/-! ### Bounded trades -/

section Trade

variable {ι R : Type} [CommRing R] [LinearOrder R]

/-- What an axis loses. -/
def dip (old new : ι → R) (i : ι) : R :=
  max 0 (old i - new i)

/-- What an axis gains. -/
def gain (old new : ι → R) (i : ι) : R :=
  max 0 (new i - old i)

/-- No axis loses more than `tolerance`, and the gains pay `ratio` times the losses. -/
structure BoundedTrade (axes : Finset ι) (tolerance ratio : R) (old new : ι → R) : Prop where
  bounded : ∀ i ∈ axes, old i - tolerance ≤ new i
  paid : ratio * ∑ i ∈ axes, dip old new i ≤ ∑ i ∈ axes, gain old new i

theorem dip_nonneg (old new : ι → R) (i : ι) : 0 ≤ dip old new i :=
  le_max_left _ _

variable [IsStrictOrderedRing R]

theorem gain_sub_dip (old new : ι → R) (i : ι) :
    gain old new i - dip old new i = new i - old i := by
  rw [gain, dip]
  rcases le_total (old i) (new i) with h | h
  · rw [max_eq_right (sub_nonneg.mpr h), max_eq_left (sub_nonpos.mpr h), sub_zero]
  · rw [max_eq_left (sub_nonpos.mpr h), max_eq_right (sub_nonneg.mpr h), zero_sub, neg_sub]

/-- What the trade pays beyond its losses raises the sum. -/
theorem BoundedTrade.net_le {axes : Finset ι} {tolerance ratio : R} {old new : ι → R}
    (h : BoundedTrade axes tolerance ratio old new) :
    (ratio - 1) * ∑ i ∈ axes, dip old new i ≤ ∑ i ∈ axes, new i - ∑ i ∈ axes, old i := by
  have hbalance : ∑ i ∈ axes, gain old new i - ∑ i ∈ axes, dip old new i =
      ∑ i ∈ axes, new i - ∑ i ∈ axes, old i := by
    rw [← Finset.sum_sub_distrib, ← Finset.sum_sub_distrib]
    exact Finset.sum_congr rfl fun i _ => gain_sub_dip old new i
  rw [← hbalance, sub_one_mul]
  exact sub_le_sub_right h.paid _

/-- A trade paid at a ratio of at least one never lowers the sum. -/
theorem BoundedTrade.sum_le {axes : Finset ι} {tolerance ratio : R} {old new : ι → R}
    (h : BoundedTrade axes tolerance ratio old new) (hratio : 1 ≤ ratio) :
    ∑ i ∈ axes, old i ≤ ∑ i ∈ axes, new i := by
  have hdips : 0 ≤ ∑ i ∈ axes, dip old new i := Finset.sum_nonneg fun i _ => dip_nonneg old new i
  exact sub_nonneg.mp ((mul_nonneg (sub_nonneg.mpr hratio) hdips).trans h.net_le)

end Trade

/-- What every step costs no more than it earns, a chain of steps costs no more than it earns. -/
theorem sum_cost_le {α G : Type} [AddCommGroup G] [PartialOrder G] [IsOrderedAddMonoid G]
    {step : α → α → Prop} {cost worth : α → G}
    (hstep : ∀ a b, step a b → cost b ≤ worth b - worth a) {a : α} {as : List α}
    (h : (a :: as).IsChain step) :
    (as.map cost).sum ≤ worth ((a :: as).getLast (List.cons_ne_nil a as)) - worth a := by
  induction as generalizing a with
  | nil => simp
  | cons b bs ih =>
      obtain ⟨hab, hbs⟩ := List.isChain_cons_cons.mp h
      rw [List.map_cons, List.sum_cons, List.getLast_cons (List.cons_ne_nil b bs)]
      calc cost b + (bs.map cost).sum
          ≤ (worth b - worth a) +
              (worth ((b :: bs).getLast (List.cons_ne_nil b bs)) - worth b) :=
            add_le_add (hstep a b hab) (ih hbs)
        _ = worth ((b :: bs).getLast (List.cons_ne_nil b bs)) - worth a := by abel

/-! ### Progress -/

section Progress

variable {α β γ : Type} [Preorder β] [Preorder γ] {rank : α → β} {usage : α → γ}

/-- The rank rises, or it is held and the usage falls. -/
def Progress (rank : α → β) (usage : α → γ) (a b : α) : Prop :=
  rank a < rank b ∨ rank a = rank b ∧ usage b < usage a

theorem Progress.trans {a b c : α} (hab : Progress rank usage a b)
    (hbc : Progress rank usage b c) : Progress rank usage a c := by
  rcases hab with hab | ⟨hab, hu⟩
  · rcases hbc with hbc | ⟨hbc, -⟩
    · exact .inl (hab.trans hbc)
    · exact .inl (hbc ▸ hab)
  · rcases hbc with hbc | ⟨hbc, hu'⟩
    · exact .inl (hab ▸ hbc)
    · exact .inr ⟨hab.trans hbc, hu'.trans hu⟩

/-- What has made progress has another rank or another usage. -/
theorem Progress.ne {a b : α} (h : Progress rank usage a b) :
    (rank a, usage a) ≠ (rank b, usage b) := by
  intro heq
  rw [Prod.mk.injEq] at heq
  rcases h with h | ⟨-, h⟩
  · exact h.ne heq.1
  · exact h.ne heq.2.symm

instance : IsTrans α (Progress rank usage) where
  trans _ _ _ := Progress.trans

/-- Nothing recurs along a chain of steps that make progress. -/
theorem nodup_of_progress {as : List α} (h : as.IsChain (Progress rank usage)) :
    (as.map fun a => (rank a, usage a)).Nodup :=
  List.pairwise_map.mpr (h.pairwise.imp Progress.ne)

end Progress

/-- No chain of steps that make progress is endless, when the rank is bounded and no usage is
negative. -/
theorem wellFounded_of_progress {α κ : Type} [Finite κ] {rank : α → ℤ} {usage : α → κ → ℤ}
    {step : α → α → Prop} {top : ℤ} (hprogress : ∀ a b, step a b → Progress rank usage a b)
    (htop : ∀ a b, step a b → rank b ≤ top) (husage : ∀ a b, step a b → 0 ≤ usage b) :
    WellFounded fun b a => step a b := by
  -- what is left to climb, and then what is left to save
  let measure : α → ℕ ×ₗ (κ → ℕ) := fun a =>
    toLex ((top - rank a).toNat, fun k => (usage a k).toNat)
  refine Subrelation.wf (r := InvImage (· < ·) measure) ?_ (InvImage.wf measure wellFounded_lt)
  intro b a h
  have hb := htop a b h
  show measure b < measure a
  rw [Prod.Lex.toLex_lt_toLex]
  rcases hprogress a b h with hrank | ⟨hrank, hlt⟩
  · left
    show (top - rank b).toNat < (top - rank a).toNat
    omega
  · refine .inr ⟨by rw [hrank], ?_⟩
    obtain ⟨hle, k, hk⟩ := Pi.lt_def.mp hlt
    refine Pi.lt_def.mpr ⟨fun j => Int.toNat_le_toNat (hle j), k, ?_⟩
    have hnonneg : 0 ≤ usage b k := husage a b h k
    show (usage b k).toNat < (usage a k).toNat
    omega

end CoreTex.Lib
