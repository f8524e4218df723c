import CoreTex.Crypto.Primes
import Mathlib.AlgebraicGeometry.EllipticCurve.Affine.Point
import Mathlib.FieldTheory.Finite.Basic

/-!
# CoreTex.Crypto.GroupLaw

What the integer point arithmetic computes, in the terms of the group of the curve
`y² = x³ + 7` over the field of `P` elements.

`double` is the tangent rule on every point (`double_encode`). `add` is the chord-and-tangent
sum except on a point and its negative, where it doubles the point (`add_encode`).
-/

namespace CoreTex.Secp256k1

open CoreTex.Lib
open WeierstrassCurve.Affine (Point)

/-! ### Residues -/

section Residues

variable {m : Nat} [Fact m.Prime]

theorem emod_eq_val (z : Int) : z % (m : Int) = ((z : ZMod m).val : Int) :=
  (ZMod.val_intCast z).symm

theorem pyPow_eq_val (z : Int) (e : Nat) : pyPow z e m = (((z : ZMod m) ^ e).val : Int) := by
  have hm : 0 < m := (Fact.out : m.Prime).pos
  have hlt : powMod (z % m).toNat e m < m := by
    rw [powMod_eq _ _ hm]
    exact Nat.mod_lt _ hm
  have hcast : ((powMod (z % m).toNat e m : Nat) : ZMod m) = (z : ZMod m) ^ e := by
    rw [cast_powMod _ _ hm, emod_eq_val, Int.toNat_natCast, ZMod.natCast_zmod_val]
  show ((powMod (z % m).toNat e m : Nat) : Int) = _
  rw [← hcast, ZMod.val_natCast_of_lt hlt]

/-- Fermat: the code's inverse is the inverse of the field, also at zero. -/
theorem inv_eq_val (hm : 2 < m) (z : Int) : inv z m = (((z : ZMod m)⁻¹).val : Int) := by
  rw [inv, pyPow_eq_val]
  by_cases hz : (z : ZMod m) = 0
  · rw [hz, zero_pow (by omega), inv_zero]
  · congr 2
    apply eq_inv_of_mul_eq_one_left
    rw [← pow_succ, show m - 2 + 1 = m - 1 by omega]
    exact ZMod.pow_card_sub_one_eq_one hz

theorem intCast_val (x : ZMod m) : (((x.val : Nat) : Int) : ZMod m) = x := by
  rw [Int.cast_natCast, ZMod.natCast_zmod_val]

theorem natCast_val_inj {x y : ZMod m} : ((x.val : Nat) : Int) = (y.val : Nat) ↔ x = y := by
  rw [Int.natCast_inj]
  exact (ZMod.val_injective m).eq_iff

end Residues

/-! ### The curve -/

/-- The field the coordinates live in. -/
abbrev Field := ZMod P

/-- The curve `y² = x³ + 7`. -/
def curve : WeierstrassCurve.Affine Field where
  a₁ := 0
  a₂ := 0
  a₃ := 0
  a₄ := 0
  a₆ := 7

theorem equation_curve (x y : Field) : curve.Equation x y ↔ y ^ 2 = x ^ 3 + 7 := by
  rw [WeierstrassCurve.Affine.equation_iff]
  simp [curve]

theorem negY_curve (x y : Field) : curve.negY x y = -y := by
  simp [WeierstrassCurve.Affine.negY, curve]

/-- `-7` has no cube root, so no point of the curve lies on the line `y = 0`. -/
theorem cube_add_seven_ne_zero (x : Field) : x ^ 3 + 7 ≠ 0 := by
  intro h
  have hx : x ^ 3 = ((P - 7 : Nat) : Field) := by
    rw [eq_neg_of_add_eq_zero_left h, Nat.cast_sub (by decide), CharP.cast_eq_zero, zero_sub]
    rfl
  have hx0 : x ≠ 0 := by
    rintro rfl
    rw [zero_pow (by decide), zero_add] at h
    exact absurd h (by decide +kernel)
  have hone : ((P - 7 : Nat) : Field) ^ ((P - 1) / 3) = 1 := by
    rw [← hx, ← pow_mul, show 3 * ((P - 1) / 3) = P - 1 by decide]
    exact ZMod.pow_card_sub_one_eq_one hx0
  have hpow := (powMod_eq_one_iff (P - 7) ((P - 1) / 3) (m := P) (by decide)).mpr hone
  exact absurd hpow (by decide +kernel)

theorem y_ne_zero {x y : Field} (h : curve.Equation x y) : y ≠ 0 := by
  rintro rfl
  rw [equation_curve, zero_pow (by decide)] at h
  exact cube_add_seven_ne_zero x h.symm

theorem two_lt_P : 2 < P := by decide

theorem two_ne_zero : (2 : Field) ≠ 0 := by
  decide +kernel

theorem ne_neg_self {y : Field} (h : y ≠ 0) : y ≠ -y := by
  intro heq
  have htwo : 2 * y = 0 := by rw [two_mul]; exact add_eq_zero_iff_eq_neg.mpr heq
  rcases mul_eq_zero.mp htwo with h2 | hy
  · exact two_ne_zero h2
  · exact h hy

theorem nonsingular_curve {x y : Field} (h : curve.Equation x y) : curve.Nonsingular x y := by
  rw [WeierstrassCurve.Affine.nonsingular_iff]
  refine ⟨h, Or.inr ?_⟩
  simpa [curve] using ne_neg_self (y_ne_zero h)

/-! ### Points as the code holds them -/

/-- The integer coordinates of a point. -/
def encode : Point curve → Coords
  | .zero => none
  | .some x y _ => some ((x.val : Nat), (y.val : Nat))

@[simp] theorem encode_zero : encode 0 = none := rfl

@[simp] theorem encode_some {x y : Field} (h : curve.Nonsingular x y) :
    encode (.some x y h) = some (((x.val : Nat) : Int), ((y.val : Nat) : Int)) := rfl

theorem encode_injective : Function.Injective encode := by
  rintro (_ | ⟨x₁, y₁, h₁⟩) (_ | ⟨x₂, y₂, h₂⟩) h
  · rfl
  · simp [encode] at h
  · simp [encode] at h
  · simp only [encode, Option.some.injEq, Prod.mk.injEq, natCast_val_inj] at h
    obtain ⟨rfl, rfl⟩ := h
    rfl

theorem encode_eq_none_iff {A : Point curve} : encode A = none ↔ A = 0 :=
  ⟨fun h => encode_injective (h.trans encode_zero.symm), fun h => h ▸ encode_zero⟩

theorem add_emod_eq_zero_iff {y₁ y₂ : Field} :
    (((y₁.val : Nat) : Int) + (y₂.val : Nat)) % P = 0 ↔ y₁ = -y₂ := by
  rw [emod_eq_val, Int.natCast_eq_zero, ZMod.val_eq_zero]
  push_cast
  simp only [ZMod.natCast_zmod_val]
  exact add_eq_zero_iff_eq_neg

theorem some_eq_neg_iff {x₁ y₁ x₂ y₂ : Field} {h₁ : curve.Nonsingular x₁ y₁}
    {h₂ : curve.Nonsingular x₂ y₂} :
    Point.some x₂ y₂ h₂ = -(Point.some x₁ y₁ h₁) ↔ x₁ = x₂ ∧ y₁ = -y₂ := by
  rw [WeierstrassCurve.Affine.Point.neg_some, WeierstrassCurve.Affine.Point.some.injEq, negY_curve]
  constructor
  · rintro ⟨rfl, rfl⟩
    exact ⟨rfl, (neg_neg _).symm⟩
  · rintro ⟨rfl, rfl⟩
    exact ⟨rfl, (neg_neg _).symm⟩

/-- No point but infinity is its own negative. -/
theorem add_self_ne_zero {A : Point curve} (h : A ≠ 0) : A + A ≠ 0 := by
  cases A with
  | zero => exact absurd rfl h
  | some x y hA =>
      have hy : y ≠ curve.negY x y := by
        rw [negY_curve]
        exact ne_neg_self (y_ne_zero hA.left)
      rw [WeierstrassCurve.Affine.Point.add_self_of_Y_ne hy]
      exact WeierstrassCurve.Affine.Point.some_ne_zero _

/-! ### The operations of the code -/

theorem double_encode (A : Point curve) : double (encode A) = encode (A + A) := by
  cases A with
  | zero => rfl
  | some x y hA =>
      have hy0 : y ≠ 0 := y_ne_zero hA.left
      have hy : y ≠ curve.negY x y := by
        rw [negY_curve]
        exact ne_neg_self hy0
      have hval : ((y.val : Nat) : Int) ≠ 0 := by
        rw [Int.natCast_ne_zero, ZMod.val_ne_zero]
        exact hy0
      rw [WeierstrassCurve.Affine.Point.add_self_of_Y_ne hy, encode_some, encode_some, double,
        if_neg hval]
      simp only [inv_eq_val two_lt_P, emod_eq_val, Option.some.injEq, Prod.mk.injEq,
        natCast_val_inj, WeierstrassCurve.Affine.slope_of_Y_ne rfl hy,
        WeierstrassCurve.Affine.addY, WeierstrassCurve.Affine.addX,
        WeierstrassCurve.Affine.negAddY, negY_curve]
      push_cast
      simp only [ZMod.natCast_zmod_val, curve, div_eq_mul_inv]
      constructor <;> ring_nf

/-- The code's addition on every pair of points: the group's sum, except that a point and its
negative give the double of the point. -/
theorem add_encode (A B : Point curve) :
    add (encode A) (encode B) = encode (if A ≠ 0 ∧ B = -A then A + A else A + B) := by
  cases A with
  | zero => simp [← WeierstrassCurve.Affine.Point.zero_def, add]
  | some x₁ y₁ h₁ =>
    cases B with
    | zero =>
      have hne : (0 : Point curve) ≠ -(.some x₁ y₁ h₁) := by
        rw [ne_comm, neg_ne_zero]
        exact WeierstrassCurve.Affine.Point.some_ne_zero h₁
      rw [← WeierstrassCurve.Affine.Point.zero_def, if_neg fun h => hne h.2, add_zero]
      rfl
    | some x₂ y₂ h₂ =>
      have hself := double_encode (Point.some x₁ y₁ h₁)
      simp only [encode_some] at hself ⊢
      rw [add]
      by_cases hx : x₁ = x₂
      · by_cases hy : y₁ = -y₂
        · -- the branch that should answer infinity
          rw [if_pos (natCast_val_inj.mpr hx), if_pos (add_emod_eq_zero_iff.mpr hy), hself,
            if_pos ⟨WeierstrassCurve.Affine.Point.some_ne_zero _, some_eq_neg_iff.mpr ⟨hx, hy⟩⟩]
        · have heq : y₁ = y₂ := WeierstrassCurve.Affine.Y_eq_of_Y_ne h₁.left h₂.left hx
            (by rw [negY_curve]; exact hy)
          subst hx heq
          rw [if_pos rfl, if_neg fun h => hy (add_emod_eq_zero_iff.mp h), if_neg fun h => h rfl, hself,
            if_neg fun h => hy (some_eq_neg_iff.mp h.2).2]
      · rw [if_neg fun h => hx (natCast_val_inj.mp h), if_neg fun h => hx (some_eq_neg_iff.mp h.2).1,
          WeierstrassCurve.Affine.Point.add_of_X_ne hx, encode_some]
        simp only [inv_eq_val two_lt_P, emod_eq_val, Option.some.injEq, Prod.mk.injEq,
          natCast_val_inj, WeierstrassCurve.Affine.slope_of_X_ne hx,
          WeierstrassCurve.Affine.addY, WeierstrassCurve.Affine.addX,
          WeierstrassCurve.Affine.negAddY, negY_curve]
        push_cast
        simp only [ZMod.natCast_zmod_val, curve, div_eq_mul_inv]
        have hinv : (x₂ - x₁)⁻¹ = -(x₁ - x₂)⁻¹ := by rw [← neg_sub, neg_inv]
        rw [hinv]
        constructor <;> ring_nf

/-- The code's addition is the group's exactly off the pairs of opposite points. -/
theorem add_encode_eq_iff (A B : Point curve) :
    add (encode A) (encode B) = encode (A + B) ↔ ¬(A ≠ 0 ∧ B = -A) := by
  rw [add_encode]
  constructor
  · rintro h ⟨hA, rfl⟩
    rw [if_pos ⟨hA, rfl⟩, add_neg_cancel] at h
    exact add_self_ne_zero hA (encode_injective h)
  · intro h
    rw [if_neg h]

end CoreTex.Secp256k1
