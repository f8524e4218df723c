import Mathlib.Data.List.Prime
import Mathlib.NumberTheory.LucasPrimality

/-!
# CoreTex.Lib.ModPow

Modular powers by repeated squaring, cheap enough for the kernel to run at the width of a
cryptographic field, and Lucas's primality test on top of them: a base of order `n - 1` modulo
`n`, together with the primes of `n - 1`, shows that `n` is prime (`prime_of_lucasTest`).
-/

namespace CoreTex.Lib

/-! ### Modular powers -/

/-- The loop of repeated squaring: the exponent is halved, the base squared, and the
accumulator takes the base where the exponent is odd. -/
def powModLoop (m : Nat) : Nat → Nat → Nat → Nat → Nat
  | 0, acc, _, _ => acc
  | fuel + 1, acc, b, e =>
    powModLoop m fuel (if e % 2 = 1 then acc * b % m else acc) (b * b % m) (e / 2)

/-- `b ^ e % m`. -/
def powMod (b e m : Nat) : Nat :=
  powModLoop m (e.log2 + 1) (1 % m) b e

/-- The loop multiplies its accumulator by the power, up to the modulus. -/
theorem powModLoop_modEq (m : Nat) {fuel e : Nat} (acc b : Nat) (h : e < 2 ^ fuel) :
    powModLoop m fuel acc b e ≡ acc * b ^ e [MOD m] := by
  induction fuel generalizing e acc b with
  | zero =>
      have he : e = 0 := by simpa using h
      simp [powModLoop, he, Nat.ModEq]
  | succ fuel ih =>
      have hlt : e / 2 < 2 ^ fuel := by rw [Nat.pow_succ] at h; omega
      have hsq : (b * b % m) ^ (e / 2) ≡ b ^ (2 * (e / 2)) [MOD m] := by
        rw [pow_mul, sq]
        exact (Nat.mod_modEq _ _).pow _
      rw [powModLoop]
      refine (ih _ _ hlt).trans ?_
      split
      · next hodd =>
        have he : e = 2 * (e / 2) + 1 := by omega
        have hacc := (Nat.mod_modEq (acc * b) m).mul hsq
        rwa [Nat.mul_assoc, ← Nat.pow_succ', Nat.succ_eq_add_one, ← he] at hacc
      · next heven =>
        have he : e = 2 * (e / 2) := by omega
        have hacc := hsq.mul_left acc
        rwa [← he] at hacc

theorem powModLoop_lt {m : Nat} (hm : 0 < m) {acc : Nat} (hacc : acc < m) (fuel b e : Nat) :
    powModLoop m fuel acc b e < m := by
  induction fuel generalizing acc b e with
  | zero => exact hacc
  | succ fuel ih =>
      rw [powModLoop]
      apply ih
      split
      · exact Nat.mod_lt _ hm
      · exact hacc

theorem powMod_eq (b e : Nat) {m : Nat} (hm : 0 < m) : powMod b e m = b ^ e % m := by
  have hlt := powModLoop_lt hm (Nat.mod_lt 1 hm) (e.log2 + 1) b e
  have hmod := powModLoop_modEq m (1 % m) b (Nat.lt_log2_self (n := e))
  have hone := (Nat.mod_modEq 1 m).mul_right (b ^ e)
  rw [Nat.one_mul] at hone
  show powModLoop m (e.log2 + 1) (1 % m) b e = b ^ e % m
  rw [← Nat.mod_eq_of_lt hlt]
  exact hmod.trans hone

/-- A power modulo `m`, as an element of the ring of residues. -/
theorem cast_powMod (b e : Nat) {m : Nat} (hm : 0 < m) :
    ((powMod b e m : Nat) : ZMod m) = (b : ZMod m) ^ e := by
  rw [powMod_eq b e hm, ZMod.natCast_mod, Nat.cast_pow]

theorem powMod_eq_one_iff (b e : Nat) {m : Nat} (hm : 1 < m) :
    powMod b e m = 1 ↔ (b : ZMod m) ^ e = 1 := by
  have hone : ((1 : Nat) : ZMod m) = 1 := Nat.cast_one
  rw [powMod_eq b e (Nat.lt_of_succ_lt hm), ← hone, ← Nat.cast_pow,
    ZMod.natCast_eq_natCast_iff', Nat.mod_eq_of_lt hm]

/-! ### Lucas's test -/

/-- Lucas's test of `n` with base `a`, given the prime powers of `n - 1`. -/
def lucasTest (n a : Nat) (factors : List (Nat × Nat)) : Bool :=
  1 < n && (factors.map fun f => f.1 ^ f.2).prod == n - 1 && powMod a (n - 1) n == 1 &&
    factors.all fun f => powMod a ((n - 1) / f.1) n != 1

/-- A number that passes the test with prime factors is prime. -/
theorem prime_of_lucasTest {n a : Nat} {factors : List (Nat × Nat)}
    (hprimes : ∀ f ∈ factors, f.1.Prime) (h : lucasTest n a factors = true) : n.Prime := by
  simp only [lucasTest, Bool.and_eq_true, decide_eq_true_eq, beq_iff_eq, List.all_eq_true,
    bne_iff_ne] at h
  obtain ⟨⟨⟨hn, hprod⟩, hone⟩, hne⟩ := h
  apply lucas_primality n (a : ZMod n) ((powMod_eq_one_iff _ _ hn).mp hone)
  intro q hq hdvd hpow
  -- a prime of n - 1 divides one of the prime powers, so it is one of the listed primes
  rw [← hprod, Prime.dvd_prod_iff hq.prime] at hdvd
  obtain ⟨_, hmem, hqf⟩ := hdvd
  obtain ⟨f, hf, rfl⟩ := List.mem_map.mp hmem
  have heq : q = f.1 := (Nat.prime_dvd_prime_iff_eq hq (hprimes f hf)).mp (hq.dvd_of_dvd_pow hqf)
  exact hne f hf ((powMod_eq_one_iff _ _ hn).mpr (heq ▸ hpow))

/-! ### Chains of certificates -/

/-- Trial division by the numbers from `d` on, until the square passes `n`. -/
def noDivisorFrom (n : Nat) : Nat → Nat → Bool
  | 0, _ => false
  | fuel + 1, d => n < d * d || (n % d != 0 && noDivisorFrom n fuel (d + 1))

theorem not_dvd_of_noDivisorFrom {n fuel d : Nat} (h : noDivisorFrom n fuel d = true) {k : Nat}
    (hdk : d ≤ k) (hk : k * k ≤ n) : ¬ k ∣ n := by
  induction fuel generalizing d with
  | zero => simp [noDivisorFrom] at h
  | succ fuel ih =>
      simp only [noDivisorFrom, Bool.or_eq_true, decide_eq_true_eq, Bool.and_eq_true,
        bne_iff_ne] at h
      rcases h with hlt | ⟨hmod, hrest⟩
      · have := Nat.mul_le_mul hdk hdk
        omega
      · rcases Nat.eq_or_lt_of_le hdk with rfl | hlt
        · exact fun hdvd => hmod (Nat.mod_eq_zero_of_dvd hdvd)
        · exact ih hrest hlt

/-- Trial division, for candidates up to 1000². -/
def smallPrime (n : Nat) : Bool :=
  1 < n && noDivisorFrom n 1000 2

theorem prime_of_smallPrime {n : Nat} (h : smallPrime n = true) : n.Prime := by
  simp only [smallPrime, Bool.and_eq_true, decide_eq_true_eq] at h
  exact Nat.prime_def_le_sqrt.mpr
    ⟨h.1, fun d hd hle => not_dvd_of_noDivisorFrom h.2 hd (Nat.le_sqrt.mp hle)⟩

/-- A number, the base that shows it prime and the prime powers of its predecessor. -/
structure LucasCertificate where
  n : Nat
  base : Nat
  factors : List (Nat × Nat)

/-- Every certificate of the chain passes Lucas's test with factors that are small primes or
were certified before it. -/
def checkChain (known : List Nat) : List LucasCertificate → Bool
  | [] => true
  | c :: chain =>
    (c.factors.all fun f => smallPrime f.1 || known.contains f.1) &&
      lucasTest c.n c.base c.factors && checkChain (c.n :: known) chain

theorem prime_of_mem_chain {chain : List LucasCertificate} {known : List Nat}
    (h : checkChain known chain = true) (hknown : ∀ q ∈ known, q.Prime) :
    ∀ c ∈ chain, c.n.Prime := by
  induction chain generalizing known with
  | nil => simp
  | cons c chain ih =>
      simp only [checkChain, Bool.and_eq_true, List.all_eq_true, Bool.or_eq_true,
        List.contains_iff_mem] at h
      obtain ⟨⟨hfactors, htest⟩, hchain⟩ := h
      have hc : c.n.Prime := by
        refine prime_of_lucasTest (fun f hf => ?_) htest
        rcases hfactors f hf with hsmall | hmem
        · exact prime_of_smallPrime hsmall
        · exact hknown f.1 hmem
      have hknown' : ∀ q ∈ c.n :: known, q.Prime := by
        intro q hq
        rcases List.mem_cons.mp hq with rfl | hq
        · exact hc
        · exact hknown q hq
      intro c' hc'
      rcases List.mem_cons.mp hc' with rfl | hc'
      · exact hc
      · exact ih hchain hknown' c' hc'

end CoreTex.Lib
