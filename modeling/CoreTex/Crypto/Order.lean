import CoreTex.Crypto.GroupLaw
import Mathlib.GroupTheory.OrderOfElement
import Mathlib.GroupTheory.Perm.Cycle.Type

/-!
# CoreTex.Crypto.Order

The curve has exactly `N` points. The generator is annihilated by `N`, which is checked by
running double-and-add over a sum that treats opposite points right; a point is determined by
its abscissa and the parity of its ordinate, so there are at most `2 P + 1` points and only `N`
and `2 N` remain; and a point of order two would lie on `y = 0`.
-/

namespace CoreTex.Secp256k1

open CoreTex.Lib
open WeierstrassCurve.Affine (Point)

/-! ### The generator is annihilated by `N` -/

/-- The chord-and-tangent sum in coordinates: `add` with infinity for opposite points. -/
def chordTangent (a b : Coords) : Coords :=
  match a, b with
  | some (ax, ay), some (bx, by') =>
    if ax = bx ∧ (ay + by') % P = 0 then none else add a b
  | _, _ => add a b

theorem chordTangent_encode (A B : Point curve) :
    chordTangent (encode A) (encode B) = encode (A + B) := by
  have hadd := add_encode_eq_iff A B
  cases A with
  | zero => exact hadd.mpr fun h => h.1 rfl
  | some x₁ y₁ h₁ =>
    cases B with
    | zero =>
      have h : ¬(Point.some x₁ y₁ h₁ ≠ 0 ∧ Point.zero = -Point.some x₁ y₁ h₁) :=
        fun h => h.1 (neg_eq_zero.mp h.2.symm)
      exact hadd.mpr h
    | some x₂ y₂ h₂ =>
      have hopp : (((x₁.val : Nat) : Int) = (x₂.val : Nat) ∧
          (((y₁.val : Nat) : Int) + (y₂.val : Nat)) % P = 0) ↔
          Point.some x₂ y₂ h₂ = -(Point.some x₁ y₁ h₁) := by
        rw [natCast_val_inj, add_emod_eq_zero_iff, some_eq_neg_iff]
      simp only [encode_some, chordTangent] at hadd ⊢
      by_cases h : Point.some x₂ y₂ h₂ = -(Point.some x₁ y₁ h₁)
      · rw [if_pos (hopp.mpr h), h, add_neg_cancel, encode_zero]
      · rw [if_neg fun h' => h (hopp.mp h')]
        exact hadd.mpr fun h' => h h'.2

/-- Double-and-add over the chord-and-tangent sum. -/
def multipleLoop : Nat → Coords → Coords → Nat → Coords
  | 0, result, _, _ => result
  | fuel + 1, result, addend, scalar =>
    multipleLoop fuel (if scalar % 2 = 1 then chordTangent result addend else result)
      (double addend) (scalar / 2)

theorem multipleLoop_encode (fuel scalar : Nat) (A B : Point curve) (h : scalar < 2 ^ fuel) :
    multipleLoop fuel (encode A) (encode B) scalar = encode (A + scalar • B) := by
  induction fuel generalizing scalar A B with
  | zero =>
      have hs : scalar = 0 := by simpa using h
      simp [multipleLoop, hs]
  | succ fuel ih =>
      have hlt : scalar / 2 < 2 ^ fuel := by rw [Nat.pow_succ] at h; omega
      rw [multipleLoop, double_encode, chordTangent_encode, ← apply_ite encode, ih _ _ _ hlt,
        ← two_nsmul, ← mul_nsmul]
      congr 1
      split
      · next hodd =>
        rw [add_assoc, ← succ_nsmul', show 2 * (scalar / 2) + 1 = scalar by omega]
      · next heven =>
        rw [show 2 * (scalar / 2) = scalar by omega]

theorem nonsingular_generator : curve.Nonsingular (GX : Field) (GY : Field) := by
  apply nonsingular_curve
  rw [equation_curve]
  decide +kernel

/-- The generator. -/
def generator : Point curve :=
  .some (GX : Field) (GY : Field) nonsingular_generator

theorem encode_generator : encode generator = some ((GX : Int), (GY : Int)) := by
  rw [generator, encode_some, ZMod.val_natCast_of_lt (by decide), ZMod.val_natCast_of_lt (by decide)]

theorem multipleLoop_generator :
    multipleLoop 256 none (some ((GX : Int), (GY : Int))) N = none := by
  decide +kernel

theorem N_nsmul_generator : N • generator = 0 := by
  have h := multipleLoop_encode 256 N 0 generator (by decide)
  rw [encode_zero, encode_generator, multipleLoop_generator, zero_add] at h
  exact encode_eq_none_iff.mp h.symm

/-! ### Counting points -/

/-- The abscissa of a point and the parity of its ordinate. -/
def shadow : Point curve → Option (Field × Bool)
  | .zero => none
  | .some x y _ => some (x, decide (y.val % 2 = 1))

/-- The ordinates of one abscissa are told apart by their parity. -/
theorem y_eq_of_parity {x y₁ y₂ : Field} (h₁ : curve.Equation x y₁) (h₂ : curve.Equation x y₂)
    (h : decide (y₁.val % 2 = 1) = decide (y₂.val % 2 = 1)) : y₁ = y₂ := by
  have hP : P % 2 = 1 := by decide
  rcases WeierstrassCurve.Affine.Y_eq_of_X_eq h₁ h₂ rfl with heq | hneg
  · exact heq
  · rw [negY_curve] at hneg
    have hlt : y₂.val < P := ZMod.val_lt y₂
    rw [decide_eq_decide, hneg, ZMod.neg_val, if_neg (y_ne_zero h₂)] at h
    omega

theorem shadow_injective : Function.Injective shadow := by
  rintro (_ | ⟨x₁, y₁, h₁⟩) (_ | ⟨x₂, y₂, h₂⟩) h
  · rfl
  · simp [shadow] at h
  · simp [shadow] at h
  · simp only [shadow, Option.some.injEq, Prod.mk.injEq] at h
    obtain ⟨rfl, hpar⟩ := h
    obtain rfl := y_eq_of_parity h₁.left h₂.left hpar
    rfl

instance : Finite (Point curve) := Finite.of_injective shadow shadow_injective

theorem card_le : Nat.card (Point curve) ≤ 2 * P + 1 := by
  have h := Nat.card_le_card_of_injective shadow shadow_injective
  have hcard : Nat.card (Option (Field × Bool)) = P * 2 + 1 := by
    rw [Nat.card_eq_fintype_card, Fintype.card_option, Fintype.card_prod, ZMod.card,
      Fintype.card_bool]
  omega

theorem generator_ne_zero : generator ≠ 0 :=
  WeierstrassCurve.Affine.Point.some_ne_zero _

theorem N_dvd_card : N ∣ Nat.card (Point curve) := by
  rw [← addOrderOf_eq_prime N_nsmul_generator generator_ne_zero]
  exact addOrderOf_dvd_natCard generator

theorem two_not_dvd_card : ¬ 2 ∣ Nat.card (Point curve) := by
  intro h
  obtain ⟨A, hA⟩ := exists_prime_addOrderOf_dvd_card' 2 h
  have hne : A ≠ 0 := by
    rintro rfl
    simp at hA
  have htwo := addOrderOf_nsmul_eq_zero A
  rw [hA, two_nsmul] at htwo
  exact add_self_ne_zero hne htwo

/-- The order of the group of points. -/
theorem card_points : Nat.card (Point curve) = N := by
  obtain ⟨k, hk⟩ := N_dvd_card
  have hle := card_le
  have hlt : 2 * P + 1 < N * 3 := by decide
  have hpos : 0 < Nat.card (Point curve) := Nat.card_pos
  rw [hk] at hle hpos
  have hk3 : k < 3 := Nat.lt_of_mul_lt_mul_left (Nat.lt_of_le_of_lt hle hlt)
  have hk2 : k ≠ 2 := by
    rintro rfl
    exact two_not_dvd_card (hk ▸ Nat.dvd_mul_left 2 N)
  have hk0 : k ≠ 0 := by
    rintro rfl
    simp at hpos
  rw [hk, show k = 1 by omega, Nat.mul_one]

theorem N_nsmul (A : Point curve) : N • A = 0 := by
  rw [← card_points]
  exact card_nsmul_eq_zero'

theorem mod_N_nsmul (k : Nat) (A : Point curve) : (k % N) • A = k • A :=
  (nsmul_eq_mod_nsmul k (N_nsmul A)).symm

/-- Every point but infinity has order `N`. -/
theorem nsmul_ne_zero {A : Point curve} (hA : A ≠ 0) {k : Nat} (h0 : 0 < k) (hN : k < N) :
    k • A ≠ 0 := by
  intro h
  have hdvd := addOrderOf_dvd_of_nsmul_eq_zero h
  rw [addOrderOf_eq_prime (N_nsmul A) hA] at hdvd
  exact absurd (Nat.le_of_dvd h0 hdvd) (by omega)

end CoreTex.Secp256k1
