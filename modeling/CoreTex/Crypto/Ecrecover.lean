import CoreTex.Crypto.Order

/-!
# CoreTex.Crypto.Ecrecover

Scalar multiplication, decompression and address recovery against the group of the curve.

Multiplication by a scalar below the order never adds opposite points, so `mul` is right
everywhere (`mul_encode`). Recovery meets the defect of `add` once, in the sum of `s·R` and
`-e·G`: it returns an address where the key should be the point at infinity
(`recovers_iff`).
-/

namespace CoreTex.Secp256k1

open CoreTex.Lib
open WeierstrassCurve.Affine (Point)

/-! ### Scalar multiplication -/

/-- One run of the loop: the addend is added in as often as the scalar says. The partial sums
stay below `N` times the point, so no sum is of opposite points. -/
theorem mulLoop_encode {A : Point curve} {fuel result addend scalar : Nat}
    (hfuel : scalar < 2 ^ fuel) (hsum : result + addend * scalar < N) :
    mulLoop fuel (encode (result • A)) (encode (addend • A)) scalar =
      encode ((result + addend * scalar) • A) := by
  induction fuel generalizing result addend scalar with
  | zero =>
      have hs : scalar = 0 := by simpa using hfuel
      simp [mulLoop, hs]
  | succ fuel ih =>
      have hlt : scalar / 2 < 2 ^ fuel := by rw [Nat.pow_succ] at hfuel; omega
      rw [mulLoop]
      by_cases h0 : scalar = 0
      · simp [h0]
      rw [if_neg h0, double_encode, ← two_nsmul, ← mul_nsmul']
      by_cases hodd : scalar % 2 = 1
      · have hs : scalar = 2 * (scalar / 2) + 1 := by omega
        have hprod : addend * scalar = addend + 2 * addend * (scalar / 2) := by
          conv_lhs => rw [hs]
          ring
        have hok : ¬(result • A ≠ 0 ∧ addend • A = -(result • A)) := by
          rintro ⟨hr, hopp⟩
          have hr0 : 0 < result := by
            rcases Nat.eq_zero_or_pos result with rfl | h
            · simp at hr
            · exact h
          have hA : A ≠ 0 := by
            rintro rfl
            simp at hr
          apply nsmul_ne_zero hA (k := result + addend) (by omega) (by omega)
          rw [add_nsmul, hopp, add_neg_cancel]
        rw [if_pos hodd, (add_encode_eq_iff _ _).mpr hok, ← add_nsmul, ih hlt (by omega), hprod,
          Nat.add_assoc]
      · have hs : scalar = 2 * (scalar / 2) := by omega
        have hprod : addend * scalar = 2 * addend * (scalar / 2) := by
          conv_lhs => rw [hs]
          ring
        rw [if_neg hodd, ih hlt (by omega), hprod]

theorem mul_encode (A : Point curve) (k : Nat) : mul (encode A) k = encode (k • A) := by
  have hlt : k % N < N := Nat.mod_lt _ (by decide)
  have h := @mulLoop_encode A _ 0 1 (k % N) Nat.lt_log2_self (by omega)
  rw [zero_nsmul, encode_zero, one_nsmul, Nat.zero_add, Nat.one_mul, mod_N_nsmul] at h
  exact h

/-! ### Decompression -/

/-- The point of the curve with abscissa `x` whose ordinate has the parity asked for. -/
def IsPointAt (x : Nat) (odd : Bool) (R : Point curve) : Prop :=
  ∃ (y : Field) (h : curve.Nonsingular (x : Field) y),
    R = .some (x : Field) y h ∧ decide (y.val % 2 = 1) = odd

theorem IsPointAt.unique {x : Nat} {odd : Bool} {R R' : Point curve} (h : IsPointAt x odd R)
    (h' : IsPointAt x odd R') : R = R' := by
  obtain ⟨y, hy, rfl, hpar⟩ := h
  obtain ⟨y', hy', rfl, hpar'⟩ := h'
  obtain rfl := y_eq_of_parity hy.left hy'.left (hpar.trans hpar'.symm)
  rfl

theorem neg_parity {y : Field} (hy : y ≠ 0) :
    decide ((-y).val % 2 = 1) = !decide (y.val % 2 = 1) := by
  have hP : P % 2 = 1 := by decide
  have hlt : y.val < P := ZMod.val_lt y
  rw [ZMod.neg_val, if_neg hy, ← decide_not, decide_eq_decide]
  omega

/-- Both parities are there at an abscissa of the curve. -/
theorem exists_isPointAt {x : Nat} {y : Field} (h : curve.Equation (x : Field) y) (odd : Bool) :
    ∃ R, IsPointAt x odd R := by
  by_cases hpar : decide (y.val % 2 = 1) = odd
  · exact ⟨_, y, nonsingular_curve h, rfl, hpar⟩
  · have hneg : curve.Equation (x : Field) (-y) := by
      rw [← negY_curve x y]
      exact (WeierstrassCurve.Affine.equation_neg _ _).mpr h
    refine ⟨_, -y, nonsingular_curve hneg, rfl, ?_⟩
    rw [neg_parity (y_ne_zero h)]
    revert hpar
    cases decide (y.val % 2 = 1) <;> cases odd <;> simp

/-- `P` is 3 modulo 4: the power `(P + 1) / 4` of a square is one of its roots. -/
theorem sq_pow_sqrt {a y : Field} (h : y ^ 2 = a) : (a ^ ((P + 1) / 4)) ^ 2 = a := by
  rw [← h, ← pow_mul, ← pow_mul, show 2 * ((P + 1) / 4 * 2) = P + 1 by decide]
  have hcard : y ^ P = y := ZMod.pow_card y
  rw [pow_succ, hcard, sq]

/-- The body of `decompress` on an abscissa in range, over the field. -/
theorem decompress_eq {x : Nat} (hx : 0 < x ∧ x < P) (odd : Bool) {a b : Field}
    (ha : a = (x : Field) ^ 3 + 7) (hb : b = a ^ ((P + 1) / 4)) :
    decompress x odd =
      if b ^ 2 = a then
        some ((x : Int), if decide (b.val % 2 = 1) = odd then (b.val : Int) else P - b.val)
      else none := by
  have halpha : (pyPow x 3 P + 7) % P = ((a.val : Nat) : Int) := by
    rw [pyPow_eq_val, emod_eq_val, ha]
    push_cast
    rw [ZMod.natCast_zmod_val]
  have hbeta : pyPow ((a.val : Nat) : Int) ((P + 1) / 4) P = ((b.val : Nat) : Int) := by
    rw [pyPow_eq_val, intCast_val, hb]
  have hsq : pyPow ((b.val : Nat) : Int) 2 P = (((b ^ 2).val : Nat) : Int) := by
    rw [pyPow_eq_val, intCast_val]
  have hpar : (((b.val : Nat) : Int) % 2 = 1) ↔ b.val % 2 = 1 := by omega
  rw [decompress, if_neg (not_not.mpr hx)]
  simp only [halpha, hbeta, hsq, ne_eq, natCast_val_inj, hpar, ite_not]

/-- Decompression finds the point at the abscissa with the parity asked for. -/
theorem decompress_of_isPointAt {x : Nat} (hx : 0 < x ∧ x < P) {odd : Bool} {R : Point curve}
    (hR : IsPointAt x odd R) : decompress x odd = encode R := by
  obtain ⟨y, h, rfl, hpar⟩ := hR
  have hy0 : y ≠ 0 := y_ne_zero h.left
  have hlt : y.val < P := ZMod.val_lt y
  have hy : y ^ 2 = (x : Field) ^ 3 + 7 := (equation_curve _ _).mp h.left
  have hroot := sq_pow_sqrt hy
  rw [decompress_eq hx odd rfl rfl, if_pos hroot, encode_some, ZMod.val_natCast_of_lt hx.2]
  rcases sq_eq_sq_iff_eq_or_eq_neg.mp (hroot.trans hy.symm) with heq | hneg
  · rw [heq, if_pos hpar]
  · have hback : (P : Int) - ((P - y.val : Nat) : Int) = (y.val : Nat) := by omega
    rw [hneg, neg_parity hy0, hpar, if_neg (by simp), ZMod.neg_val, if_neg hy0, hback]

/-- It finds none only off the curve. -/
theorem decompress_eq_none {x : Nat} (hx : 0 < x ∧ x < P) {odd : Bool}
    (h : decompress x odd = none) (y : Field) : ¬ curve.Equation (x : Field) y := by
  intro heq
  obtain ⟨R, hR⟩ := exists_isPointAt heq odd
  rw [decompress_of_isPointAt hx hR, encode_eq_none_iff] at h
  obtain ⟨_, _, rfl, _⟩ := hR
  exact WeierstrassCurve.Affine.Point.some_ne_zero _ h

/-- A decompressed point is the one asked for. -/
theorem isPointAt_of_decompress {x : Nat} (hx : 0 < x ∧ x < P) {odd : Bool} {q : Int × Int}
    (h : decompress x odd = some q) : ∃ R, IsPointAt x odd R ∧ encode R = some q := by
  rw [decompress_eq hx odd rfl rfl] at h
  split at h
  · next hsq =>
    obtain ⟨R, hR⟩ := exists_isPointAt ((equation_curve (x : Field) _).mpr hsq) odd
    refine ⟨R, hR, ?_⟩
    rw [← decompress_of_isPointAt hx hR, decompress_eq hx odd rfl rfl, if_pos hsq, h]
  · exact absurd h (by simp)

/-! ### Recovery -/

/-- A 65-byte signature `r ‖ s ‖ v`. -/
structure Signature where
  bytes : Bytes
  length_bytes : bytes.length = 65

namespace Signature

variable (sig : Signature)

def r : Nat := readBE (sig.bytes.take 32)
def s : Nat := readBE ((sig.bytes.drop 32).take 32)
def v : Nat := (sig.bytes.getD 64 0).toNat

/-- The parity the recovery id names. -/
def odd : Bool := sig.v == 1 || sig.v == 28

/-- The fields are in their ranges, and `s` is the smaller of the two twins. -/
def InRange : Prop :=
  (0 < sig.r ∧ sig.r < N) ∧ (0 < sig.s ∧ sig.s < N) ∧ sig.s ≤ N / 2 ∧
    (sig.v = 0 ∨ sig.v = 1 ∨ sig.v = 27 ∨ sig.v = 28)

end Signature

/-- `split_signature` accepts the signatures in range. -/
theorem splitSignature_eq_ok {sig : Signature} (h : sig.InRange) :
    ∃ recovery, splitSignature sig.bytes = .ok (sig.r, sig.s, recovery) ∧
      decide (recovery % 2 = 1) = sig.odd := by
  obtain ⟨hr, hs, hhalf, hv⟩ := h
  have hlow : ¬ sig.s > halfN := by rw [halfN]; omega
  simp only [Signature.r, Signature.s, Signature.v] at hr hs hlow hv
  rw [splitSignature, if_neg (by simp [sig.length_bytes])]
  simp only [hr, hs, hlow, and_self, not_true_eq_false, if_false]
  simp only [Signature.odd, Signature.r, Signature.s, Signature.v]
  generalize (sig.bytes.getD 64 0).toNat = v at hv
  rcases hv with rfl | rfl | rfl | rfl <;> simp

theorem splitSignature_eq_error {sig : Signature} (h : ¬ sig.InRange) :
    ∃ err, splitSignature sig.bytes = .error err := by
  simp only [Signature.InRange, Signature.r, Signature.s, Signature.v] at h
  rw [splitSignature, if_neg (by simp [sig.length_bytes])]
  dsimp only
  split
  · exact ⟨_, rfl⟩
  split
  · exact ⟨_, rfl⟩
  split
  · exact ⟨_, rfl⟩
  next hr hs hhalf =>
  rw [halfN] at hhalf
  split
  · omega
  split
  · omega
  · exact ⟨_, rfl⟩

variable (keccak256 : Bytes → Digest)

/-- The key `r⁻¹ (s·R - e·G)`, with the inverse taken modulo the group order. -/
def recoveredKey (r s e : Nat) (R : Point curve) : Point curve :=
  ((r : ZMod N)⁻¹).val • (s • R - e • generator)

/-- The sum inside the recovery is of two opposite points. -/
def IsDegenerate (digest : Digest) (sig : Signature) : Prop :=
  ∃ R, IsPointAt sig.r sig.odd R ∧ sig.s • R = readBE digest.bytes • generator

/-- The arithmetic of `ecrecover` on a signature in range. -/
theorem ecrecover_eq {digest : Digest} {sig : Signature} (h : sig.InRange) :
    ecrecover keccak256 digest.bytes sig.bytes =
      match decompress sig.r sig.odd with
      | none => .error ⟨"r does not name a point on secp256k1; the signature is malformed"⟩
      | some point =>
        match mul (add (mul (some point) sig.s)
            (mul (some (GX, GY)) (N - readBE digest.bytes % N))) ((sig.r : ZMod N)⁻¹).val with
        | none => .error ⟨"signature recovery produced the point at infinity"⟩
        | some q => .ok (addressOf keccak256 q) := by
  obtain ⟨recovery, hsplit, hodd⟩ := splitSignature_eq_ok h
  have hinv : (inv sig.r N).toNat = ((sig.r : ZMod N)⁻¹).val := by
    rw [inv_eq_val (by decide), Int.toNat_natCast, Int.cast_natCast]
  rw [ecrecover, if_neg (by simp [digest.length_bytes]), hsplit]
  show (match decompress sig.r (decide (recovery % 2 = 1)) with
    | none => _
    | some point => _) = _
  rw [hodd, hinv] <;> rfl

theorem neg_nsmul_generator (k : Nat) : (N - k % N) • generator = -(k • generator) := by
  have hlt : k % N < N := Nat.mod_lt _ (by decide)
  rw [eq_neg_iff_add_eq_zero, ← mod_N_nsmul k, ← add_nsmul, Nat.sub_add_cancel (by omega),
    N_nsmul]

/-- On the point `R` the code computes the key over its own sum. -/
theorem ecrecover_of_isPointAt {digest : Digest} {sig : Signature} (h : sig.InRange)
    {R : Point curve} (hR : IsPointAt sig.r sig.odd R) :
    ecrecover keccak256 digest.bytes sig.bytes =
      match mul (add (encode (sig.s • R)) (encode (-(readBE digest.bytes • generator))))
          ((sig.r : ZMod N)⁻¹).val with
      | none => .error ⟨"signature recovery produced the point at infinity"⟩
      | some q => .ok (addressOf keccak256 q) := by
  have hlt : sig.r < P := Nat.lt_trans h.1.2 (by decide)
  have hG : mul (some ((GX : Int), (GY : Int))) (N - readBE digest.bytes % N) =
      encode (-(readBE digest.bytes • generator)) := by
    rw [← encode_generator, mul_encode, neg_nsmul_generator]
  have hcoords := hR
  obtain ⟨y, hy, rfl, -⟩ := hcoords
  have hsR := mul_encode (.some (sig.r : Field) y hy) sig.s
  rw [encode_some] at hsR
  rw [ecrecover_eq keccak256 h, decompress_of_isPointAt ⟨h.1.1, hlt⟩ hR, encode_some]
  dsimp only
  rw [hsR, hG]

/-- What is asked of one recovery: the address of the key where there is one, and a refusal
exactly where the signature is out of range, no point has abscissa `r`, or the key is the
point at infinity. -/
structure Recovers (digest : Digest) (sig : Signature) : Prop where
  returns : sig.InRange → ∀ R, IsPointAt sig.r sig.odd R →
    ∀ q, encode (recoveredKey sig.r sig.s (readBE digest.bytes) R) = some q →
      ecrecover keccak256 digest.bytes sig.bytes = .ok (addressOf keccak256 q)
  refuses : (∃ err, ecrecover keccak256 digest.bytes sig.bytes = .error err) ↔
    ¬ sig.InRange ∨ (∀ y, ¬ curve.Equation (sig.r : Field) y) ∨
      ∃ R, IsPointAt sig.r sig.odd R ∧
        recoveredKey sig.r sig.s (readBE digest.bytes) R = 0

theorem inv_val_pos {sig : Signature} (h : sig.InRange) :
    0 < ((sig.r : ZMod N)⁻¹).val ∧ ((sig.r : ZMod N)⁻¹).val < N := by
  have hne : (sig.r : ZMod N)⁻¹ ≠ 0 := by
    rw [ne_eq, inv_eq_zero, ZMod.natCast_eq_zero_iff]
    exact fun hdvd => absurd (Nat.le_of_dvd h.1.1 hdvd) (by have := h.1.2; omega)
  exact ⟨Nat.pos_of_ne_zero ((ZMod.val_ne_zero _).mpr hne), ZMod.val_lt _⟩

theorem IsPointAt.ne_zero {x : Nat} {odd : Bool} {R : Point curve} (h : IsPointAt x odd R) :
    R ≠ 0 := by
  obtain ⟨_, _, rfl, _⟩ := h
  exact WeierstrassCurve.Affine.Point.some_ne_zero _

theorem ecrecover_out_of_range {digest : Digest} {sig : Signature} (h : ¬ sig.InRange) :
    ∃ err, ecrecover keccak256 digest.bytes sig.bytes = .error err := by
  obtain ⟨err, herr⟩ := splitSignature_eq_error h
  refine ⟨err, ?_⟩
  rw [ecrecover, if_neg (by simp [digest.length_bytes]), herr]
  rfl

theorem ecrecover_off_curve {digest : Digest} {sig : Signature} (h : sig.InRange)
    (hnone : decompress sig.r sig.odd = none) :
    ∃ err, ecrecover keccak256 digest.bytes sig.bytes = .error err := by
  rw [ecrecover_eq keccak256 h, hnone]
  exact ⟨_, rfl⟩

/-- Where the sum is of two opposite points the key is infinity and the code returns all the
same. -/
theorem ecrecover_degenerate {digest : Digest} {sig : Signature} (h : sig.InRange)
    {R : Point curve} (hR : IsPointAt sig.r sig.odd R)
    (hdeg : sig.s • R = readBE digest.bytes • generator) :
    recoveredKey sig.r sig.s (readBE digest.bytes) R = 0 ∧
      ∃ address, ecrecover keccak256 digest.bytes sig.bytes = .ok address := by
  have hU : sig.s • R ≠ 0 := nsmul_ne_zero hR.ne_zero h.2.1.1 h.2.1.2
  have hinv := inv_val_pos h
  constructor
  · rw [recoveredKey, hdeg, sub_self, nsmul_zero]
  · have hQ : ((sig.r : ZMod N)⁻¹).val • (sig.s • R + sig.s • R) ≠ 0 :=
      nsmul_ne_zero (add_self_ne_zero hU) hinv.1 hinv.2
    rw [ecrecover_of_isPointAt keccak256 h hR, ← hdeg, add_encode, if_pos ⟨hU, rfl⟩, mul_encode]
    cases hq : encode (((sig.r : ZMod N)⁻¹).val • (sig.s • R + sig.s • R)) with
    | none => exact absurd (encode_eq_none_iff.mp hq) hQ
    | some q => exact ⟨_, rfl⟩

/-- Elsewhere the code computes the key. -/
theorem ecrecover_regular {digest : Digest} {sig : Signature} (h : sig.InRange)
    {R : Point curve} (hR : IsPointAt sig.r sig.odd R)
    (hreg : sig.s • R ≠ readBE digest.bytes • generator) :
    ecrecover keccak256 digest.bytes sig.bytes =
      match encode (recoveredKey sig.r sig.s (readBE digest.bytes) R) with
      | none => .error ⟨"signature recovery produced the point at infinity"⟩
      | some q => .ok (addressOf keccak256 q) := by
  have hadd := (add_encode_eq_iff (sig.s • R) (-(readBE digest.bytes • generator))).mpr
    fun hopp => hreg (neg_injective hopp.2).symm
  rw [ecrecover_of_isPointAt keccak256 h hR, hadd, mul_encode, ← sub_eq_add_neg]
  rfl

theorem recovers_of_not_inRange {digest : Digest} {sig : Signature} (h : ¬ sig.InRange) :
    Recovers keccak256 digest sig where
  returns hin := absurd hin h
  refuses := iff_of_true (ecrecover_out_of_range keccak256 h) (Or.inl h)

theorem recovers_of_off_curve {digest : Digest} {sig : Signature} (h : sig.InRange)
    (hnone : decompress sig.r sig.odd = none) : Recovers keccak256 digest sig := by
  have hoff := decompress_eq_none ⟨h.1.1, Nat.lt_trans h.1.2 (by decide)⟩ hnone
  refine ⟨fun _ R hR => ?_, iff_of_true (ecrecover_off_curve keccak256 h hnone)
    (Or.inr (Or.inl hoff))⟩
  obtain ⟨y, hy, -⟩ := hR
  exact absurd hy.left (hoff y)

theorem recovers_of_regular {digest : Digest} {sig : Signature} (h : sig.InRange)
    {R : Point curve} (hR : IsPointAt sig.r sig.odd R)
    (hreg : sig.s • R ≠ readBE digest.bytes • generator) : Recovers keccak256 digest sig := by
  have hcode := ecrecover_regular keccak256 h hR hreg
  constructor
  · intro _ R' hR' q hq
    obtain rfl := hR.unique hR'
    rw [hcode, hq]
  · constructor
    · rintro ⟨err, herr⟩
      refine Or.inr (Or.inr ⟨R, hR, ?_⟩)
      rw [hcode] at herr
      cases hq : encode (recoveredKey sig.r sig.s (readBE digest.bytes) R) with
      | none => exact encode_eq_none_iff.mp hq
      | some q => rw [hq] at herr; exact absurd herr (by simp)
    · rintro (hout | hoff | ⟨R', hR', hkey⟩)
      · exact absurd h hout
      · obtain ⟨y, hy, -⟩ := hR
        exact absurd hy.left (hoff y)
      · obtain rfl := hR.unique hR'
        rw [hcode, hkey]
        exact ⟨_, rfl⟩

/-- Addition is the group law off the pairs of opposite points, and recovery does what is asked
of it off the signatures whose sum is of such a pair. -/
theorem recovers_iff (A B : Point curve) (digest : Digest) (sig : Signature) :
    (add (encode A) (encode B) = encode (A + B) ↔ ¬(A ≠ 0 ∧ B = -A)) ∧
      (Recovers keccak256 digest sig ↔ ¬(sig.InRange ∧ IsDegenerate digest sig)) := by
  refine ⟨add_encode_eq_iff A B, ?_⟩
  constructor
  · rintro hrec ⟨h, R, hR, hdeg⟩
    obtain ⟨hkey, address, hok⟩ := ecrecover_degenerate keccak256 h hR hdeg
    obtain ⟨err, herr⟩ := hrec.refuses.mpr (Or.inr (Or.inr ⟨R, hR, hkey⟩))
    rw [hok] at herr
    exact absurd herr (by simp)
  · intro hnot
    by_cases h : sig.InRange
    · cases hd : decompress sig.r sig.odd with
      | none => exact recovers_of_off_curve keccak256 h hd
      | some q =>
          obtain ⟨R, hR, -⟩ :=
            isPointAt_of_decompress ⟨h.1.1, Nat.lt_trans h.1.2 (by decide)⟩ hd
          exact recovers_of_regular keccak256 h hR fun hdeg => hnot ⟨h, R, hR, hdeg⟩
    · exact recovers_of_not_inRange keccak256 h

/-- The message hash 1 under the signature `r = x(G)`, `s = 1`: the key would be
`r⁻¹ (G - G)`. -/
def degenerateDigest : Digest := ⟨writeBE 32 1, length_writeBE 32 1⟩

def degenerateSignature : Signature :=
  ⟨writeBE 32 GX ++ writeBE 32 1 ++ [27], by simp⟩

theorem inRange_degenerate : degenerateSignature.InRange := by
  unfold Signature.InRange
  decide +kernel

theorem isPointAt_generator : IsPointAt degenerateSignature.r degenerateSignature.odd generator := by
  have hr : degenerateSignature.r = GX := by decide +kernel
  have hpar : decide ((GY : Field).val % 2 = 1) = degenerateSignature.odd := by decide +kernel
  rw [hr]
  exact ⟨(GY : Field), nonsingular_generator, rfl, hpar⟩

/-- `_add(G, -G)` is the double of the generator where the sum is infinity, and a signature
over it is recovered to an address. -/
theorem add_opposite_generator :
    encode (generator + -generator) = none ∧
      add (encode generator) (encode (-generator)) ≠ none ∧
      recoveredKey degenerateSignature.r degenerateSignature.s
        (readBE degenerateDigest.bytes) generator = 0 ∧
      ∃ address, ecrecover tailDigest degenerateDigest.bytes degenerateSignature.bytes
        = .ok address := by
  have hs : degenerateSignature.s = 1 := by decide +kernel
  have he : readBE degenerateDigest.bytes = 1 := by decide +kernel
  have hdeg : degenerateSignature.s • generator = readBE degenerateDigest.bytes • generator := by
    rw [hs, he]
  refine ⟨?_, ?_, ecrecover_degenerate tailDigest inRange_degenerate isPointAt_generator hdeg⟩
  · rw [add_neg_cancel, encode_zero]
  · rw [add_encode, if_pos ⟨generator_ne_zero, rfl⟩, ne_eq, encode_eq_none_iff]
    exact add_self_ne_zero generator_ne_zero

end CoreTex.Secp256k1
