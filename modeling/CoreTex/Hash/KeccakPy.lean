import CoreTex.Hash.Keccak256

/-!
# CoreTex.Hash.KeccakPy

Keccak-256 on 64-bit integers (`keccak256.py`), and the agreement of the two
implementations.

`Represents` relates the integers to the standard's lanes. It holds of the zero state and
every step of a round keeps it.
-/

namespace CoreTex.Hash

open CoreTex.Lib CoreTex.Lib.Keccak

/-! ### The implementation -/

/-- The state `a[x][y]`. -/
abbrev PyState := Vector (Vector Nat 5) 5

/-- `a[x][y]`. -/
def PyState.lane (a : PyState) (x y : Fin 5) : Nat :=
  (a.get x).get y

/-- `a[x][y] = value`. -/
def PyState.put (a : PyState) (x y : Fin 5) (value : Nat) : PyState :=
  Vector.set a x ((a.get x).set y value)

/-- A state whose lanes are computed one by one. -/
def PyState.ofFn (value : Fin 5 → Fin 5 → Nat) : PyState :=
  Vector.ofFn fun x => Vector.ofFn fun y => value x y

/-- `_ROUND_CONSTANTS`. -/
def pyRoundConstants : Vector Nat 24 := #v[
  0x0000000000000001, 0x0000000000008082, 0x800000000000808A, 0x8000000080008000,
  0x000000000000808B, 0x0000000080000001, 0x8000000080008081, 0x8000000000008009,
  0x000000000000008A, 0x0000000000000088, 0x0000000080008009, 0x000000008000000A,
  0x000000008000808B, 0x800000000000008B, 0x8000000000008089, 0x8000000000008003,
  0x8000000000008002, 0x8000000000000080, 0x000000000000800A, 0x800000008000000A,
  0x8000000080008081, 0x8000000000008080, 0x0000000080000001, 0x8000000080008008]

/-- `_ROTATION`, by column and row. -/
def pyRotation : PyState := #v[
  #v[0, 36, 3, 41, 18],
  #v[1, 44, 10, 45, 2],
  #v[62, 6, 43, 15, 61],
  #v[28, 55, 25, 21, 56],
  #v[27, 20, 39, 8, 14]]

/-- `_rol`: the mask keeps the low 64 bits. -/
def pyRol (value shift : Nat) : Nat :=
  let shift := shift % 64
  ((value <<< shift) ||| (value >>> (64 - shift))) % 2 ^ 64

/-- `~value & _MASK`. -/
def pyInvert (value : Nat) : Nat :=
  ((-(value : Int) - 1) % 2 ^ 64).toNat

/-- The theta step. -/
def pyTheta (a : PyState) : PyState :=
  let c := fun x => a.lane x 0 ^^^ a.lane x 1 ^^^ a.lane x 2 ^^^ a.lane x 3 ^^^ a.lane x 4
  let d := fun x : Fin 5 => c (x - 1) ^^^ pyRol (c (x + 1)) 1
  .ofFn fun x y => a.lane x y ^^^ d x

/-- The pairs `(x, y)` in the order of the two loops. -/
def pairs : List (Fin 5 × Fin 5) :=
  (List.finRange 5).flatMap fun x => (List.finRange 5).map fun y => (x, y)

/-- The rho and pi step: lane `(x, y)` is rotated and written at `b[y][(2x + 3y) % 5]`. -/
def pyRhoPi (a : PyState) : PyState :=
  pairs.foldl (fun b p =>
    b.put p.2 (2 * p.1 + 3 * p.2) (pyRol (a.lane p.1 p.2) (pyRotation.lane p.1 p.2)))
    (.ofFn fun _ _ => 0)

/-- The chi step. -/
def pyChi (b : PyState) : PyState :=
  .ofFn fun x y => b.lane x y ^^^ (pyInvert (b.lane (x + 1) y) &&& b.lane (x + 2) y)

/-- One round. -/
def pyRound (a : PyState) (rnd : Fin 24) : PyState :=
  let a := pyChi (pyRhoPi (pyTheta a))
  a.put 0 0 (a.lane 0 0 ^^^ pyRoundConstants.get rnd)

/-- `_keccak_f1600`. -/
def pyKeccakF1600 (a : PyState) : PyState :=
  (List.finRange 24).foldl pyRound a

/-- The loop that appends zeros up to a multiple of the rate. -/
def pyFill (padded : Bytes) : Bytes :=
  if h : padded.length % 136 ≠ 0 then pyFill (padded ++ [0]) else padded
termination_by (136 - padded.length % 136) % 136
decreasing_by
  rw [List.length_append, List.length_singleton]
  omega

/-- The padded message. -/
def pyPadded (data : Bytes) : Bytes :=
  let padded := pyFill (data ++ [0x01])
  padded.dropLast ++ [padded.getLastD 0 ||| 0x80]

/-- One block added to the state: lane `i` of the block goes to `state[i % 5][i // 5]`. -/
def pyAbsorb (state : PyState) (block : Bytes) : PyState :=
  .ofFn fun x y =>
    let i := lanePlace x y
    if i < 136 / 8 then state.lane x y ^^^ readLE ((block.drop (i * 8)).take 8) else state.lane x y

/-- `value.to_bytes(8, "little")`. -/
def pyLaneBytes (value : Nat) : Bytes :=
  (List.range 8).map fun k => UInt8.ofNat (value / 256 ^ k)

/-- One pass of the squeezing loop over the lanes of the rate, up to the digest's length. -/
def pySqueezePass (state : PyState) : List Nat → Bytes → Bytes
  | [], out => out
  | i :: lanes, out =>
    let out := out ++ pyLaneBytes (state.lane (Fin.ofNat 5 (i % 5)) (Fin.ofNat 5 (i / 5)))
    if 32 ≤ out.length then out else pySqueezePass state lanes out

/-- The squeezing loop. A pass adds at least one lane, so 32 passes are more than enough. -/
def pySqueeze : Nat → PyState → Bytes → Bytes
  | 0, _, out => out
  | fuel + 1, state, out =>
    if out.length < 32 then
      let out := pySqueezePass state (List.range (136 / 8)) out
      pySqueeze fuel (if out.length < 32 then pyKeccakF1600 state else state) out
    else out

/-- `keccak256` of `keccak256.py`. -/
def keccak256Py (data : Bytes) : Bytes :=
  let padded := pyPadded data
  let state := (List.range ((padded.length + 135) / 136)).foldl (fun state k =>
    pyKeccakF1600 (pyAbsorb state ((padded.drop (136 * k)).take 136))) (.ofFn fun _ _ => 0)
  (pySqueeze 32 state []).take 32

/-! ### The rounds -/

@[simp] theorem lane_ofFn (value : Fin 5 → Fin 5 → Nat) (x y : Fin 5) :
    (PyState.ofFn value).lane x y = value x y := by
  simp [PyState.ofFn, PyState.lane]

theorem lane_put (a : PyState) (x y : Fin 5) (value : Nat) (x' y' : Fin 5) :
    (a.put x y value).lane x' y' = if (x, y) = (x', y') then value else a.lane x' y' := by
  rw [PyState.lane, PyState.put, get_set]
  by_cases hx : x = x'
  · subst hx
    simp [get_set, PyState.lane]
  · simp [hx, PyState.lane]

/-- The integers are the standard's lanes. -/
def Represents (a : PyState) (s : KeccakState) : Prop :=
  ∀ x y, a.lane x y = (s x y).toNat

theorem pyRol_toNat (v : Lane) (n : Nat) : pyRol v.toNat n = (v.rotateLeft n).toNat := by
  have hright : v.toNat >>> (64 - n % 64) % 2 ^ 64 = v.toNat >>> (64 - n % 64) := by
    refine Nat.mod_eq_of_lt ((Nat.shiftRight_le _ _).trans_lt v.isLt)
  rw [pyRol, BitVec.rotateLeft_def, BitVec.toNat_or, BitVec.toNat_shiftLeft,
    BitVec.toNat_ushiftRight, Nat.or_mod_two_pow, hright]

theorem pyInvert_toNat (v : Lane) : pyInvert v.toNat = (~~~ v).toNat := by
  have hlt := v.isLt
  rw [pyInvert, BitVec.toNat_not]
  omega

theorem Represents.theta {a : PyState} {s : KeccakState} (h : Represents a s) :
    Represents (pyTheta a) (theta s) := by
  intro x y
  simp only [pyTheta, lane_ofFn, h _ _, ← BitVec.toNat_xor, pyRol_toNat]
  rfl

theorem mem_pairs (p : Fin 5 × Fin 5) : p ∈ pairs := by
  simp [pairs]

theorem pyRotation_lane (x y : Fin 5) : pyRotation.lane x y = offset x y := by
  revert x y
  decide

/-- The scatter writes lane `(x + 3y, x)` at `(x, y)`. -/
theorem Represents.rhoPi {a : PyState} {s : KeccakState} (h : Represents a s) :
    Represents (pyRhoPi a) (pi (rho s)) := by
  intro x y
  have hplace : Function.Injective fun p : Fin 5 × Fin 5 => (p.2, 2 * p.1 + 3 * p.2) := by
    have hall : ∀ y x x' : Fin 5, 2 * x + 3 * y = 2 * x' + 3 * y → x = x' := by decide
    intro p q hpq
    obtain ⟨hy, hx⟩ := Prod.ext_iff.mp hpq
    dsimp only at hy hx
    rw [hy] at hx
    exact Prod.ext (hall _ _ _ hx) hy
  have hback : 2 * (x + 3 * y) + 3 * x = y := by
    revert x y
    decide
  have hget := read_foldl_write (fun (b : PyState) p => b.lane p.1 p.2)
    (fun b p v => b.put p.1 p.2 v) (fun b p v q => lane_put b p.1 p.2 v q.1 q.2) hplace
    (fun p => pyRol (a.lane p.1 p.2) (pyRotation.lane p.1 p.2)) (.ofFn fun _ _ => 0)
    (mem_pairs (x + 3 * y, x))
  dsimp only at hget
  rw [hback, h, pyRol_toNat, pyRotation_lane] at hget
  exact hget

theorem Represents.chi {a : PyState} {s : KeccakState} (h : Represents a s) :
    Represents (pyChi a) (chi s) := by
  intro x y
  simp only [pyChi, lane_ofFn, h _ _, pyInvert_toNat, ← BitVec.toNat_and, ← BitVec.toNat_xor]
  rfl

theorem pyRoundConstants_get (r : Fin 24) :
    pyRoundConstants.get r = (roundConstant r).toNat := by
  revert r
  decide +kernel

theorem Represents.round {a : PyState} {s : KeccakState} (h : Represents a s) (r : Fin 24) :
    Represents (pyRound a r) (round s r) := by
  intro x y
  have hlanes := h.theta.rhoPi.chi
  rw [pyRound, lane_put, Keccak.round, iota]
  by_cases hxy : x = 0 ∧ y = 0
  · obtain ⟨rfl, rfl⟩ := hxy
    rw [if_pos rfl, if_pos ⟨rfl, rfl⟩, hlanes, pyRoundConstants_get, BitVec.toNat_xor]
  · rw [if_neg (fun heq => hxy (by simpa [eq_comm] using heq)), if_neg hxy, hlanes]

theorem Represents.permute {a : PyState} {s : KeccakState} (h : Represents a s) :
    Represents (pyKeccakF1600 a) (permute s) := by
  have hrounds : List.range 24 = (List.finRange 24).map Fin.val := rfl
  rw [pyKeccakF1600, Keccak.permute, hrounds, List.foldl_map]
  generalize List.finRange 24 = l
  induction l generalizing a s with
  | nil => exact h
  | cons r l ih => exact ih (h.round r)

/-! ### The sponge -/

theorem readLE_lt (bytes : Bytes) : readLE bytes < 256 ^ bytes.length := by
  induction bytes with
  | nil => simp [readLE]
  | cons b bytes ih =>
      have hb : b.toNat < 256 := b.toNat_lt
      have hcons : readLE (b :: bytes) = b.toNat + 256 * readLE bytes := rfl
      rw [hcons, List.length_cons, Nat.pow_succ]
      omega

theorem Represents.absorb {a : PyState} {s : KeccakState} (h : Represents a s) (block : Bytes) :
    Represents (pyAbsorb a block) (absorb s block) := by
  intro x y
  have hrate : 8 * lanePlace x y < rate ↔ lanePlace x y < 136 / 8 := by
    unfold rate
    omega
  have hlt : readLE ((block.drop (8 * lanePlace x y)).take 8) < 2 ^ 64 := by
    refine (readLE_lt _).trans_le ?_
    exact (Nat.pow_le_pow_right (by decide) (List.length_take_le 8 _)).trans (by decide)
  simp only [pyAbsorb, lane_ofFn, Keccak.absorb, h _ _]
  by_cases hplace : lanePlace x y < 136 / 8
  · rw [if_pos hplace, if_pos (hrate.mpr hplace), BitVec.toNat_xor, laneAt, BitVec.toNat_ofNat,
      Nat.mod_eq_of_lt hlt, Nat.mul_comm]
  · rw [if_neg hplace, if_neg (mt hrate.mp hplace)]

/-- The filling loop appends as many zeros as are missing. -/
theorem pyFill_eq (padded : Bytes) :
    pyFill padded = padded ++ List.replicate ((136 - padded.length % 136) % 136) 0 := by
  fun_induction pyFill padded with
  | case1 padded h ih =>
      have hcount : (136 - padded.length % 136) % 136 =
          (136 - (padded.length + 1) % 136) % 136 + 1 := by omega
      rw [ih, hcount, List.replicate_succ, List.length_append, List.length_singleton]
      simp
  | case2 padded h =>
      have hcount : (136 - padded.length % 136) % 136 = 0 := by omega
      simp [hcount]

theorem pyPadded_eq (data : Bytes) : pyPadded data = data ++ padding data.length := by
  have hmod : data.length % 136 < 136 := Nat.mod_lt _ (by decide)
  have hcount : (136 - (data.length + 1) % 136) % 136 = 135 - data.length % 136 := by omega
  rw [pyPadded, pyFill_eq, List.length_append, List.length_singleton, hcount]
  unfold padding rate
  generalize data.length % 136 = m at hmod
  by_cases hfull : m = 135
  · subst hfull
    simp
    decide
  · have hzeros : List.replicate (135 - m) (0 : UInt8) = List.replicate (136 - m - 2) 0 ++ [0] := by
      rw [show 135 - m = 136 - m - 2 + 1 by omega, List.replicate_succ']
    have hlast : data ++ [1] ++ List.replicate (135 - m) (0 : UInt8) =
        (data ++ [1] ++ List.replicate (136 - m - 2) 0) ++ [0] := by
      rw [hzeros, List.append_assoc _ _ [0]]
    simp only [hlast, List.dropLast_concat, List.getLastD_concat]
    rw [if_neg (by omega)]
    simp

theorem length_pyLaneBytes (value : Nat) : (pyLaneBytes value).length = 8 := by
  simp [pyLaneBytes]

/-- One pass squeezes the first four lanes, and the loop ends. -/
theorem pySqueeze_eq (a : PyState) : pySqueeze 32 a [] =
    pyLaneBytes (a.lane 0 0) ++ pyLaneBytes (a.lane 1 0) ++ pyLaneBytes (a.lane 2 0) ++
      pyLaneBytes (a.lane 3 0) := by
  have hlanes : List.range (136 / 8) = 0 :: 1 :: 2 :: 3 :: List.range' 4 13 := rfl
  have hpass : pySqueezePass a (List.range (136 / 8)) [] =
      pyLaneBytes (a.lane 0 0) ++ pyLaneBytes (a.lane 1 0) ++ pyLaneBytes (a.lane 2 0) ++
        pyLaneBytes (a.lane 3 0) := by
    rw [hlanes]
    simp [pySqueezePass, length_pyLaneBytes]
    rfl
  rw [pySqueeze, if_pos (by decide), hpass, pySqueeze, if_neg]
  simp [length_pyLaneBytes]

/-- **The 64-bit implementation is Keccak-256.** -/
theorem keccak256Py_eq_digest (data : Bytes) : keccak256Py data = digest data := by
  have hblocks : (pyPadded data).length = 136 * (data.length / 136 + 1) := by
    rw [pyPadded_eq, length_padded, rate]
  have hcount : ((pyPadded data).length + 135) / 136 = (pyPadded data).length / rate := by
    rw [hblocks, rate]
    omega
  have hstate : ∀ l : List Nat, ∀ a s, Represents a s → Represents
      (l.foldl (fun state k =>
        pyKeccakF1600 (pyAbsorb state (((pyPadded data).drop (136 * k)).take 136))) a)
      (l.foldl (fun s k => permute (absorb s (blockAt (pyPadded data) k))) s) := by
    intro l
    induction l with
    | nil => exact fun a s h => h
    | cons k l ih => exact fun a s h => ih _ _ (h.absorb _).permute
  have hzero : Represents (.ofFn fun _ _ => 0) fun _ _ => 0 := by
    intro x y
    rw [lane_ofFn]
    rfl
  have hfinal := hstate (List.range ((pyPadded data).length / rate)) _ _ hzero
  simp only [keccak256Py, digest, hcount]
  rw [pySqueeze_eq, hfinal, hfinal, hfinal, hfinal, List.take_of_length_le, ← pyPadded_eq]
  · rfl
  · simp [length_pyLaneBytes]

/-- **The two implementations agree with the standard and with each other.** -/
theorem keccak256_agree (data : Bytes) :
    keccak256Ts data = digest data ∧ keccak256Py data = digest data ∧
      keccak256Ts data = keccak256Py data :=
  ⟨keccak256Ts_eq_digest data, keccak256Py_eq_digest data,
    (keccak256Ts_eq_digest data).trans (keccak256Py_eq_digest data).symm⟩

end CoreTex.Hash
