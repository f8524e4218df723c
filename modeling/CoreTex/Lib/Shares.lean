import Mathlib.Algebra.Order.Field.Rat
import Mathlib.Algebra.Order.Ring.Int
import Mathlib.Tactic.Linarith

/-!
# CoreTex.Lib.Shares

Weighted readings against caps, each rounded down on its own: `weight * reading / cap`.

The sum of the rounded shares moves with every reading, is the sum of the weights when every
reading is at its cap, and is short of the exact sum by less than one unit a share.
-/

namespace CoreTex.Lib

/-- A reading, its cap and its weight. -/
structure Share where
  weight : Int
  reading : Int
  cap : Int
  deriving DecidableEq

namespace Share

def floor (s : Share) : Int :=
  s.weight * s.reading / s.cap

def exact (s : Share) : ℚ :=
  (s.weight * s.reading : Int) / (s.cap : Int)

/-- A weight and a reading that are not negative, against a positive cap. -/
structure Valid (s : Share) : Prop where
  weight : 0 ≤ s.weight
  reading : 0 ≤ s.reading
  cap : 0 < s.cap

/-- One axis, read no higher. -/
structure LE (s t : Share) : Prop where
  weight : s.weight = t.weight
  cap : s.cap = t.cap
  reading : s.reading ≤ t.reading

variable {s t : Share}

theorem Valid.floor_nonneg (h : s.Valid) : 0 ≤ s.floor :=
  Int.ediv_nonneg (mul_nonneg h.weight h.reading) h.cap.le

theorem Valid.floor_le (h : s.Valid) (hle : s.LE t) : s.floor ≤ t.floor := by
  have hproduct : s.weight * s.reading ≤ s.weight * t.reading :=
    mul_le_mul_of_nonneg_left hle.reading h.weight
  rw [floor, floor, ← hle.weight, ← hle.cap]
  exact Int.ediv_le_ediv h.cap hproduct

theorem Valid.floor_at_cap (h : s.Valid) (hcap : s.reading = s.cap) : s.floor = s.weight := by
  rw [floor, hcap]
  exact Int.mul_ediv_cancel _ (ne_of_gt h.cap)

theorem Valid.floor_below_cap (h : s.Valid) (hcap : s.reading ≤ s.cap) : s.floor ≤ s.weight := by
  have hfull : (⟨s.weight, s.cap, s.cap⟩ : Share).Valid := ⟨h.weight, h.cap.le, h.cap⟩
  have hle := h.floor_le (t := ⟨s.weight, s.cap, s.cap⟩) ⟨rfl, rfl, hcap⟩
  rwa [hfull.floor_at_cap rfl] at hle

/-- Rounding down takes less than one unit. -/
theorem Valid.floor_bounds (h : s.Valid) : (s.floor : ℚ) ≤ s.exact ∧ s.exact < s.floor + 1 := by
  have hcap : (0 : ℚ) < (s.cap : Int) := by exact_mod_cast h.cap
  have hlow : s.floor * s.cap ≤ s.weight * s.reading := Int.ediv_mul_le _ (ne_of_gt h.cap)
  have hhigh : s.weight * s.reading < (s.floor + 1) * s.cap :=
    Int.lt_ediv_add_one_mul_self _ h.cap
  constructor
  · rw [exact, le_div_iff₀ hcap]
    exact_mod_cast hlow
  · rw [exact, div_lt_iff₀ hcap]
    exact_mod_cast hhigh

end Share

/-! ### Sums -/

def flooredSum (shares : List Share) : Int :=
  (shares.map Share.floor).sum

def exactSum (shares : List Share) : ℚ :=
  (shares.map Share.exact).sum

def weightSum (shares : List Share) : Int :=
  (shares.map Share.weight).sum

variable {shares shares' : List Share}

theorem flooredSum_nonneg (h : ∀ s ∈ shares, s.Valid) : 0 ≤ flooredSum shares := by
  induction shares with
  | nil => exact le_rfl
  | cons s shares ih =>
      obtain ⟨hs, hrest⟩ := List.forall_mem_cons.mp h
      rw [flooredSum, List.map_cons, List.sum_cons]
      exact add_nonneg hs.floor_nonneg (ih hrest)

/-- The sum moves with every reading. -/
theorem flooredSum_le (h : ∀ s ∈ shares, s.Valid) (hle : List.Forall₂ Share.LE shares shares') :
    flooredSum shares ≤ flooredSum shares' := by
  induction hle with
  | nil => exact le_rfl
  | cons hhead _ ih =>
      obtain ⟨hs, hrest⟩ := List.forall_mem_cons.mp h
      rw [flooredSum, flooredSum, List.map_cons, List.map_cons, List.sum_cons, List.sum_cons]
      exact add_le_add (hs.floor_le hhead) (ih hrest)

/-- At the caps the sum is that of the weights. -/
theorem flooredSum_at_cap (h : ∀ s ∈ shares, s.Valid) (hcap : ∀ s ∈ shares, s.reading = s.cap) :
    flooredSum shares = weightSum shares := by
  rw [flooredSum, weightSum, List.map_congr_left fun s hs => (h s hs).floor_at_cap (hcap s hs)]

theorem flooredSum_below_cap (h : ∀ s ∈ shares, s.Valid)
    (hcap : ∀ s ∈ shares, s.reading ≤ s.cap) : flooredSum shares ≤ weightSum shares := by
  induction shares with
  | nil => exact le_rfl
  | cons s shares ih =>
      obtain ⟨hs, hrest⟩ := List.forall_mem_cons.mp h
      obtain ⟨hcaps, hcaprest⟩ := List.forall_mem_cons.mp hcap
      rw [flooredSum, weightSum, List.map_cons, List.map_cons, List.sum_cons, List.sum_cons]
      exact add_le_add (hs.floor_below_cap hcaps) (ih hrest hcaprest)

/-- The sum is short of the exact one by less than one unit a share. -/
theorem flooredSum_bounds (h : ∀ s ∈ shares, s.Valid) :
    (flooredSum shares : ℚ) ≤ exactSum shares ∧
      exactSum shares ≤ flooredSum shares + shares.length ∧
      (shares ≠ [] → exactSum shares < flooredSum shares + shares.length) := by
  induction shares with
  | nil => simp [flooredSum, exactSum]
  | cons s shares ih =>
      obtain ⟨hs, hrest⟩ := List.forall_mem_cons.mp h
      obtain ⟨hlow, hhigh, -⟩ := ih hrest
      obtain ⟨hslow, hshigh⟩ := hs.floor_bounds
      have hfloored : flooredSum (s :: shares) = s.floor + flooredSum shares := by
        rw [flooredSum, List.map_cons, List.sum_cons]
        rfl
      have hexact : exactSum (s :: shares) = s.exact + exactSum shares := by
        rw [exactSum, List.map_cons, List.sum_cons]
        rfl
      rw [hfloored, hexact, List.length_cons]
      push_cast
      exact ⟨by linarith, by linarith, fun _ => by linarith⟩

end CoreTex.Lib
