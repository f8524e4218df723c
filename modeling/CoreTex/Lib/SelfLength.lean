import Mathlib.Algebra.Order.Group.Nat
import Mathlib.Tactic.Ring

/-!
# CoreTex.Lib.SelfLength

Numbers that state the length of the text they stand in. A text of `rest` characters and one
number written in base `b` has the length it states when the number `n` is a solution of
`rest + digitCount b n = n`.

There is always a solution (`exists_statesItself`). Two solutions differ by one, and they exist
exactly when the longer one is a power of the base (`two_solutions`).
-/

namespace CoreTex.Lib

/-- How many digits `n` has in base `b`. -/
def digitCount (b n : Nat) : Nat :=
  (Nat.toDigits b n).length

/-- The number is the length of the text around it and its own digits. -/
def StatesItself (b rest n : Nat) : Prop :=
  rest + digitCount b n = n

instance (b rest n : Nat) : Decidable (StatesItself b rest n) :=
  inferInstanceAs (Decidable (_ = _))

section

variable {b : Nat} (hb : 1 < b)

theorem digitCount_pos {n : Nat} : 0 < digitCount b n :=
  Nat.length_toDigits_pos

theorem StatesItself.pos {rest n : Nat} (h : StatesItself b rest n) : 0 < n := by
  rw [← h]
  exact Nat.add_pos_right rest digitCount_pos

include hb in
theorem digitCount_le_iff {n d : Nat} (hd : 0 < d) : digitCount b n ≤ d ↔ n < b ^ d :=
  Nat.length_toDigits_le_iff hb hd

include hb in
theorem digitCount_eq_iff {n d : Nat} (hn : 0 < n) :
    digitCount b n = d + 1 ↔ b ^ d ≤ n ∧ n < b ^ (d + 1) := by
  have hupper := digitCount_le_iff hb (n := n) (Nat.succ_pos d)
  cases d with
  | zero =>
      have hpos := digitCount_pos (b := b) (n := n)
      simp only [Nat.zero_add, pow_zero, Nat.succ_eq_add_one] at hupper ⊢
      omega
  | succ d =>
      have hlower := digitCount_le_iff hb (n := n) (Nat.succ_pos d)
      simp only [Nat.succ_eq_add_one] at hupper hlower
      omega

include hb in
/-- A solution, by its number of digits. -/
theorem statesItself_iff {rest n : Nat} (hn : 0 < n) : StatesItself b rest n ↔
    ∃ d, n = rest + (d + 1) ∧ b ^ d ≤ n ∧ n < b ^ (d + 1) := by
  constructor
  · intro h
    have hpos := digitCount_pos (b := b) (n := n)
    have hdigits : digitCount b n = (digitCount b n - 1) + 1 := by omega
    refine ⟨digitCount b n - 1, ?_, (digitCount_eq_iff hb hn).mp hdigits⟩
    rw [← hdigits]
    exact h.symm
  · intro ⟨d, hd, hwindow⟩
    rw [StatesItself, (digitCount_eq_iff hb hn).mpr hwindow]
    exact hd.symm

include hb in
/-- A width that is enough for the length written with it has a solution within it: the least
such width. -/
theorem exists_statesItself_lt {rest k : Nat} (hk : rest + (k + 1) < b ^ (k + 1)) :
    ∃ n, 0 < n ∧ n < b ^ (k + 1) ∧ StatesItself b rest n := by
  have henough : ∃ d, rest + (d + 1) < b ^ (d + 1) := ⟨k, hk⟩
  let d := Nat.find henough
  have hd : rest + (d + 1) < b ^ (d + 1) := Nat.find_spec henough
  have hdk : b ^ (d + 1) ≤ b ^ (k + 1) :=
    Nat.pow_le_pow_right (Nat.zero_lt_of_lt hb) (Nat.succ_le_succ (Nat.find_min' henough hk))
  refine ⟨rest + (d + 1), by omega, by omega,
    (statesItself_iff hb (by omega)).mpr ⟨d, rfl, ?_, hd⟩⟩
  cases hcase : d with
  | zero => simp
  | succ j =>
      -- one digit fewer was not enough
      have hshort : ¬ rest + (j + 1) < b ^ (j + 1) :=
        Nat.find_min henough (show j < Nat.find henough by omega)
      omega

include hb in
theorem exists_statesItself (rest : Nat) : ∃ n, 0 < n ∧ StatesItself b rest n := by
  have hpow : rest + 1 < b ^ (rest + 1) := Nat.lt_pow_self hb
  have hdouble : 2 * b ^ (rest + 1) ≤ b ^ (rest + 1 + 1) := by
    rw [pow_succ b (rest + 1), Nat.mul_comm 2]
    exact Nat.mul_le_mul_left _ hb
  obtain ⟨n, hn, -, hstates⟩ :=
    exists_statesItself_lt hb (show rest + (rest + 1 + 1) < b ^ (rest + 1 + 1) by omega)
  exact ⟨n, hn, hstates⟩

include hb in
/-- Solutions of different widths: the widths are next to each other, at a power of the base. -/
theorem wider_solution {rest d e : Nat} (hlt : d < e) (hd : rest + (d + 1) < b ^ (d + 1))
    (he : b ^ e ≤ rest + (e + 1)) : e = d + 1 ∧ rest + (d + 1) + 1 = b ^ (d + 1) := by
  obtain ⟨k, rfl⟩ := Nat.exists_eq_add_of_lt hlt
  have hk : k + 1 ≤ b ^ k := Nat.lt_pow_self hb
  have hbase : 2 ≤ b ^ (d + 1) := le_trans hb (Nat.le_self_pow (Nat.succ_ne_zero d) b)
  have hsplit : b ^ (d + k + 1) = b ^ (d + 1) * b ^ k := by
    rw [← pow_add]
    congr 1
    omega
  have hgrow : b ^ (d + 1) * (k + 1) ≤ b ^ (d + k + 1) :=
    hsplit ▸ Nat.mul_le_mul_left _ hk
  have hk2 : 2 * k ≤ b ^ (d + 1) * k := Nat.mul_le_mul_right k hbase
  rw [Nat.mul_add, Nat.mul_one] at hgrow
  omega

include hb in
/-- Two solutions exist exactly at a power of the base, and they are the last number before it
and the power itself. -/
theorem two_solutions {rest m n : Nat} (hmn : m < n) (hm : 0 < m) :
    StatesItself b rest m ∧ StatesItself b rest n ↔
      ∃ d, 0 < d ∧ rest + d + 1 = b ^ d ∧ m = rest + d ∧ n = rest + d + 1 := by
  rw [statesItself_iff hb hm, statesItself_iff hb (hm.trans hmn)]
  constructor
  · intro ⟨⟨d, hd, _, hdUpper⟩, e, he, heLower, _⟩
    obtain ⟨rfl, hpow⟩ := wider_solution hb (show d < e by omega) (hd ▸ hdUpper) (he ▸ heLower)
    exact ⟨d + 1, Nat.succ_pos d, hpow, hd, he⟩
  · intro ⟨d, hd, hpow, hm, hn⟩
    obtain ⟨k, rfl⟩ : ∃ k, d = k + 1 := ⟨d - 1, by omega⟩
    have hpred : b ^ k < b ^ (k + 1) := Nat.pow_lt_pow_right hb (Nat.lt_succ_self k)
    have hsucc : b ^ (k + 1) < b ^ (k + 1 + 1) := Nat.pow_lt_pow_right hb (Nat.lt_succ_self _)
    exact ⟨⟨k, hm, by omega, by omega⟩, k + 1, by omega, by omega, by omega⟩

end

end CoreTex.Lib
