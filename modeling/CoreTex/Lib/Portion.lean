import Mathlib.Algebra.Order.Group.Int
import Mathlib.Algebra.Order.Ring.Int

/-!
# CoreTex.Lib.Portion

Portions of an integer amount: `part / whole` of it, with the division that drops the fraction.
A portion moves with the amount and with the part, and what is left when a part is taken off is
short of the exact remainder by less than one unit (`sub_portion_le`).
-/

namespace CoreTex.Lib

/-- `amount * part / whole`. -/
def portion (amount part whole : Int) : Int :=
  (amount * part).tdiv whole

variable {amount amount' part part' whole : Int}

theorem portion_nonneg (hamount : 0 ≤ amount) (hpart : 0 ≤ part) (hwhole : 0 ≤ whole) :
    0 ≤ portion amount part whole :=
  Int.tdiv_nonneg (mul_nonneg hamount hpart) hwhole

theorem portion_le_portion (hwhole : 0 < whole) (hamount : amount ≤ amount')
    (hamount' : 0 ≤ amount') (hpart : 0 ≤ part) (hparts : part ≤ part') :
    portion amount part whole ≤ portion amount' part' whole :=
  Int.tdiv_le_tdiv hwhole
    ((mul_le_mul_of_nonneg_right hamount hpart).trans (mul_le_mul_of_nonneg_left hparts hamount'))

/-- A part as large as the whole is no less than the amount. -/
theorem le_portion (hwhole : 0 < whole) (hamount : 0 ≤ amount) (hpart : whole ≤ part) :
    amount ≤ portion amount part whole :=
  Int.le_tdiv_of_mul_le hwhole (mul_le_mul_of_nonneg_left hpart hamount)

/-- A portion is rounded down, by less than one unit. -/
theorem lt_portion_succ_mul (hwhole : 0 < whole) (hamount : 0 ≤ amount) (hpart : 0 ≤ part) :
    amount * part < (portion amount part whole + 1) * whole := by
  rw [portion, Int.tdiv_eq_ediv_of_nonneg (mul_nonneg hamount hpart)]
  exact Int.lt_ediv_add_one_mul_self _ hwhole

/-- `amount * part / whole`, rounded up. -/
def portionUp (amount part whole : Int) : Int :=
  (amount * part + whole - 1).tdiv whole

theorem portionUp_nonneg (hwhole : 0 < whole) (hamount : 0 ≤ amount) (hpart : 0 ≤ part) :
    0 ≤ portionUp amount part whole := by
  have hproduct := mul_nonneg hamount hpart
  exact Int.tdiv_nonneg (by omega) (by omega)

theorem portionUp_le_portionUp (hwhole : 0 < whole) (hamount : amount ≤ amount')
    (hamount' : 0 ≤ amount') (hpart : 0 ≤ part) (hparts : part ≤ part') :
    portionUp amount part whole ≤ portionUp amount' part' whole := by
  have hproduct : amount * part ≤ amount' * part' :=
    (mul_le_mul_of_nonneg_right hamount hpart).trans (mul_le_mul_of_nonneg_left hparts hamount')
  exact Int.tdiv_le_tdiv hwhole (by omega)

/-- Taking a part off removes no more than that part of the amount, rounded up. -/
theorem sub_portion_le (hwhole : 0 < whole) (hamount : 0 ≤ amount) (hparts : part ≤ part')
    (hpart' : part' ≤ whole) :
    amount - portion amount (whole - part) whole ≤ portionUp amount part' whole := by
  have hkept := lt_portion_succ_mul hwhole hamount (show 0 ≤ whole - part by omega)
  have hremoved : amount * part ≤ amount * part' := mul_le_mul_of_nonneg_left hparts hamount
  rw [mul_sub, add_mul, one_mul] at hkept
  refine Int.le_tdiv_of_mul_le hwhole ?_
  rw [sub_mul]
  omega

end CoreTex.Lib
