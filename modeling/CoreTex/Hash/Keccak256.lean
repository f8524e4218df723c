import CoreTex.Lib.Keccak
import Mathlib.Data.List.FinRange
import Mathlib.Data.List.GetD
import Mathlib.Tactic.FinCases
import Mathlib.Tactic.IntervalCases

/-!
# CoreTex.Hash.Keccak256

Keccak-256 on 32-bit halves (`state/keccak256.ts`).

`Halves.state` reads the two arrays of halves as the standard's state. Every step of a round
commutes with it, and the last block is the rest of the message with the standard's padding.
-/

namespace CoreTex.Hash

open CoreTex.Lib CoreTex.Lib.Keccak

/-! ### 32-bit halves -/

/-- An unsigned 32-bit half of a lane. -/
abbrev Half := BitVec 32

/-- `stateHi` and `stateLo`. -/
structure Halves where
  hi : Vector Half 25
  lo : Vector Half 25

/-- `RC`. -/
def RC : Vector (Half × Half) 24 := #v[
  (0x00000000, 0x00000001), (0x00000000, 0x00008082),
  (0x80000000, 0x0000808A), (0x80000000, 0x80008000),
  (0x00000000, 0x0000808B), (0x00000000, 0x80000001),
  (0x80000000, 0x80008081), (0x80000000, 0x00008009),
  (0x00000000, 0x0000008A), (0x00000000, 0x00000088),
  (0x00000000, 0x80008009), (0x00000000, 0x8000000A),
  (0x00000000, 0x8000808B), (0x80000000, 0x0000008B),
  (0x80000000, 0x00008089), (0x80000000, 0x00008003),
  (0x80000000, 0x00008002), (0x80000000, 0x00000080),
  (0x00000000, 0x0000800A), (0x80000000, 0x8000000A),
  (0x80000000, 0x80008081), (0x80000000, 0x00008080),
  (0x00000000, 0x80000001), (0x80000000, 0x80008008)]

/-- `RHO`. -/
def RHO : Vector Nat 25 := #v[
  0, 1, 62, 28, 27,
  36, 44, 6, 55, 20,
  3, 10, 43, 25, 39,
  41, 45, 15, 21, 8,
  18, 2, 61, 56, 14]

/-- `PI`. -/
def PI : Vector (Fin 25) 25 := #v[
  0, 10, 20, 5, 15,
  16, 1, 11, 21, 6,
  7, 17, 2, 12, 22,
  23, 8, 18, 3, 13,
  14, 24, 9, 19, 4]

/-- `rot64`. Shift counts stay between 1 and 31. -/
def rot64 (hi lo : Half) (n : Nat) : Half × Half :=
  let n := ((n % 64) + 64) % 64
  if n = 0 then (hi, lo)
  else if n = 32 then (lo, hi)
  else if n < 32 then
    ((hi <<< n) ||| (lo >>> (32 - n)), (lo <<< n) ||| (hi >>> (32 - n)))
  else
    let n := n - 32
    ((lo <<< n) ||| (hi >>> (32 - n)), (hi <<< n) ||| (lo >>> (32 - n)))

/-- The index of a lane. -/
def laneIndex (x y : Fin 5) : Fin 25 :=
  ⟨x + 5 * y, by omega⟩

/-- The column of an index. -/
def column (i : Fin 25) : Fin 5 :=
  ⟨i % 5, by omega⟩

/-- The row of an index. -/
def row (i : Fin 25) : Fin 5 :=
  ⟨i / 5, by omega⟩

/-- `BC_hi` or `BC_lo`: the halves of the column parities. -/
def columnParity (half : Vector Half 25) : Vector Half 5 :=
  Vector.ofFn fun x => (List.finRange 5).foldl (fun h y => h ^^^ half.get (laneIndex x y)) 0

/-- The theta loops. Every lane is written once, from its own old value. -/
def thetaHalves (s : Halves) : Halves :=
  let hi := columnParity s.hi
  let lo := columnParity s.lo
  let th := fun x : Fin 5 => rot64 (hi.get (x + 1)) (lo.get (x + 1)) 1
  let dh := fun x : Fin 5 => hi.get (x + 4) ^^^ (th x).1
  let dl := fun x : Fin 5 => lo.get (x + 4) ^^^ (th x).2
  { hi := Vector.ofFn fun i => s.hi.get i ^^^ dh (column i)
    lo := Vector.ofFn fun i => s.lo.get i ^^^ dl (column i) }

/-- The combined rho and pi loop: lane `i` is rotated and written at `PI[i]`. -/
def rhoPiHalves (s : Halves) : Halves :=
  (List.finRange 25).foldl (fun tmp i =>
    let r := rot64 (s.hi.get i) (s.lo.get i) (RHO.get i)
    { hi := tmp.hi.set (PI.get i) r.1
      lo := tmp.lo.set (PI.get i) r.2 })
    { hi := Vector.replicate 25 0, lo := Vector.replicate 25 0 }

/-- The chi loops over one array of halves. -/
def chiHalf (tmp : Vector Half 25) : Vector Half 25 :=
  Vector.ofFn fun i => tmp.get i ^^^
    (~~~ tmp.get (laneIndex (column i + 1) (row i)) &&& tmp.get (laneIndex (column i + 2) (row i)))

/-- One round. -/
def roundHalves (s : Halves) (r : Fin 24) : Halves :=
  let tmp := rhoPiHalves (thetaHalves s)
  let hi := chiHalf tmp.hi
  let lo := chiHalf tmp.lo
  { hi := hi.set 0 (hi.get 0 ^^^ (RC.get r).1)
    lo := lo.set 0 (lo.get 0 ^^^ (RC.get r).2) }

/-- `keccakF1600`. -/
def keccakF1600 (s : Halves) : Halves :=
  (List.finRange 24).foldl roundHalves s

/-- Four bytes of the data from an index on, least significant first, as the inner loop of
`absorbBlock` ors them together. A byte past the end is 0. -/
def halfAt (data : Bytes) (base : Nat) : Half :=
  (List.range 4).foldl (fun h b =>
    h ||| (BitVec.ofNat 32 (data.getD (base + b) 0).toNat <<< (b * 8))) 0

/-- `absorbBlock`. -/
def absorbBlock (s : Halves) (data : Bytes) (offset rate : Nat) : Halves :=
  { hi := Vector.ofFn fun i =>
      if i < rate / 8 then s.hi.get i ^^^ halfAt data (offset + i * 8 + 4) else s.hi.get i
    lo := Vector.ofFn fun i =>
      if i < rate / 8 then s.lo.get i ^^^ halfAt data (offset + i * 8) else s.lo.get i }

/-- The absorbing loop: whole blocks from an offset on. -/
def absorbFull (data : Bytes) (s : Halves) (offset : Nat) : Halves × Nat :=
  if h : offset + 136 ≤ data.length then
    absorbFull data (keccakF1600 (absorbBlock s data offset 136)) (offset + 136)
  else (s, offset)
termination_by data.length - offset
decreasing_by
  omega

/-- The last block: what is left of the data, `0x01` after it, and `0x80` in the last byte. -/
def lastBlock (data : Bytes) (offset : Nat) : Bytes :=
  let rest := data.drop offset
  let last := (rest ++ List.replicate (136 - rest.length) 0).set (data.length - offset) 0x01
  last.set 135 (last.getD 135 0 ||| 0x80)

/-- The eight bytes of a lane in the digest. -/
def squeezeLane (s : Halves) (lane : Fin 25) : Bytes :=
  let lo := s.lo.get lane
  let hi := s.hi.get lane
  [lo &&& 0xff, (lo >>> 8) &&& 0xff, (lo >>> 16) &&& 0xff, (lo >>> 24) &&& 0xff,
    hi &&& 0xff, (hi >>> 8) &&& 0xff, (hi >>> 16) &&& 0xff, (hi >>> 24) &&& 0xff].map
    fun b => UInt8.ofNat b.toNat

/-- `keccak256` of `keccak256.ts`. -/
def keccak256Ts (data : Bytes) : Bytes :=
  let (s, offset) :=
    absorbFull data { hi := Vector.replicate 25 0, lo := Vector.replicate 25 0 } 0
  let s := keccakF1600 (absorbBlock s (lastBlock data offset) 0 136)
  squeezeLane s 0 ++ squeezeLane s 1 ++ squeezeLane s 2 ++ squeezeLane s 3

/-! ### Rotation of split lanes -/

/-- The lane of two halves. -/
def join (hi lo : Half) : Lane :=
  hi ++ lo

@[simp] theorem join_xor (a b c d : Half) : join a b ^^^ join c d = join (a ^^^ c) (b ^^^ d) :=
  BitVec.xor_append

@[simp] theorem join_and (a b c d : Half) : join a b &&& join c d = join (a &&& c) (b &&& d) :=
  BitVec.and_append

@[simp] theorem not_join (a b : Half) : ~~~ join a b = join (~~~ a) (~~~ b) :=
  BitVec.not_append

/-- A half rotation that moves fewer than 32 bits across. -/
theorem shifted_append (hi lo : Half) {k : Nat} (hk : 0 < k) (hlt : k < 32) (i : Nat)
    (hi' : i < 64) :
    (((hi <<< k) ||| (lo >>> (32 - k))) ++ ((lo <<< k) ||| (hi >>> (32 - k)))).getLsbD i =
      (hi ++ lo).getLsbD (if i < k then 64 - k + i else i - k) := by
  simp only [BitVec.getLsbD_append, BitVec.getLsbD_or, BitVec.getLsbD_shiftLeft,
    BitVec.getLsbD_ushiftRight]
  by_cases h1 : i < 32
  · by_cases h2 : i < k
    · rw [if_pos h2]
      simp [h1, h2, show ¬ 64 - k + i < 32 by omega, show 32 - k + i = 64 - k + i - 32 by omega]
    · rw [if_neg h2]
      have : 32 ≤ 32 - k + i := by omega
      simp [h1, h2, show i - k < 32 by omega, BitVec.getLsbD_of_ge hi _ this]
  · by_cases h2 : i - 32 < k
    · rw [if_neg (show ¬ i < k by omega)]
      simp [h1, h2, show i - k < 32 by omega, show 32 - k + (i - 32) = i - k by omega]
    · rw [if_neg (show ¬ i < k by omega)]
      have : 32 ≤ 32 - k + (i - 32) := by omega
      simp [h1, h2, show ¬ i - k < 32 by omega, BitVec.getLsbD_of_ge lo _ this,
        show i - 32 < 32 by omega, show i - 32 - k = i - k - 32 by omega]

/-- Rotating the halves is rotating the lane. -/
theorem join_rot64 (hi lo : Half) (n : Nat) :
    join (rot64 hi lo n).1 (rot64 hi lo n).2 = (join hi lo).rotateLeft n := by
  unfold join
  have hn : ((n % 64) + 64) % 64 = n % 64 := by omega
  have hlt : n % 64 < 64 := Nat.mod_lt _ (by decide)
  refine BitVec.eq_of_getLsbD_eq fun i hi' => ?_
  have hrot : ((hi ++ lo).rotateLeft n).getLsbD i =
      (hi ++ lo).getLsbD (if i < n % 64 then 64 - n % 64 + i else i - n % 64) := by
    rw [BitVec.getLsbD_rotateLeft]
    by_cases h : i < n % 64 <;> simp [h, hi']
  rw [hrot]
  simp only [rot64, hn]
  generalize n % 64 = k at hlt
  by_cases h0 : k = 0
  · simp [h0]
  by_cases h32 : k = 32
  · subst h32
    simp only [BitVec.getLsbD_append]
    by_cases h : i < 32
    · simp [h, show ¬ 32 + i < 32 by omega]
    · simp [h, show i - 32 < 32 by omega]
  by_cases hsmall : k < 32
  · simp only [h0, h32, hsmall, if_true, if_false]
    exact shifted_append hi lo (by omega) hsmall i hi'
  · simp only [h0, h32, hsmall, if_false]
    rw [shifted_append lo hi (by omega) (by omega) i hi', BitVec.getLsbD_append,
      BitVec.getLsbD_append]
    grind

/-! ### The rounds on halves -/

/-- The standard's state that the halves spell. -/
def Halves.state (s : Halves) : KeccakState := fun x y =>
  join (s.hi.get (laneIndex x y)) (s.lo.get (laneIndex x y))

@[simp] theorem column_laneIndex (x y : Fin 5) : column (laneIndex x y) = x := by
  ext
  simp [column, laneIndex]

@[simp] theorem row_laneIndex (x y : Fin 5) : row (laneIndex x y) = y := by
  ext
  simp only [row, laneIndex]
  omega

@[simp] theorem get_ofFn {α : Type} {n : Nat} (f : Fin n → α) (i : Fin n) :
    (Vector.ofFn f).get i = f i := by
  show (Vector.ofFn f)[i.val] = f i
  rw [Vector.getElem_ofFn]

theorem get_set {α : Type} {n : Nat} (v : Vector α n) (i j : Fin n) (a : α) :
    (v.set i a).get j = if i = j then a else v.get j := by
  show (v.set i a)[j.val] = if i = j then a else v[j.val]
  rw [Vector.getElem_set]
  simp only [Fin.ext_iff]

theorem join_columnParity (s : Halves) (x : Fin 5) :
    join ((columnParity s.hi).get x) ((columnParity s.lo).get x) = parity s.state x := by
  have hrows : List.finRange 5 = [0, 1, 2, 3, 4] := rfl
  simp [columnParity, hrows, parity, Halves.state]

theorem state_thetaHalves (s : Halves) : (thetaHalves s).state = theta s.state := by
  funext x y
  have hprev : x + 4 = x - 1 := by omega
  rw [theta, thetaEffect, ← join_columnParity, ← join_columnParity, ← join_rot64, ← hprev]
  simp [thetaHalves, Halves.state]

/-- Writes at distinct places leave each place with its own value. -/
theorem read_foldl_write {σ ι κ α : Type} [DecidableEq ι] (read : σ → ι → α)
    (write : σ → ι → α → σ)
    (hread : ∀ s i a j, read (write s i a) j = if i = j then a else read s j)
    {place : κ → ι} (hplace : place.Injective) (value : κ → α) (s : σ) {l : List κ} {k : κ}
    (hk : k ∈ l) : read (l.foldl (fun s k => write s (place k) (value k)) s) (place k) = value k := by
  induction l using List.reverseRecOn with
  | nil => simp at hk
  | append_singleton l j ih =>
      rw [List.foldl_append, List.foldl_cons, List.foldl_nil, hread]
      by_cases hjk : place j = place k
      · rw [if_pos hjk, hplace hjk]
      · rw [if_neg hjk]
        rcases List.mem_append.mp hk with hk | hk
        · exact ih hk
        · exact absurd (congrArg place (List.mem_singleton.mp hk).symm) hjk

theorem RHO_get (x y : Fin 5) : RHO.get (laneIndex x y) = offset x y := by
  revert x y
  decide

theorem PI_get (x y : Fin 5) : PI.get (laneIndex (x + 3 * y) x) = laneIndex x y := by
  revert x y
  decide

theorem PI_injective : Function.Injective PI.get := by
  have hall : ∀ i j : Fin 25, PI.get i = PI.get j → i = j := by decide
  exact fun i j => hall i j

theorem rhoPiHalves_get (s : Halves) (i : Fin 25) :
    ((rhoPiHalves s).hi.get (PI.get i), (rhoPiHalves s).lo.get (PI.get i)) =
      rot64 (s.hi.get i) (s.lo.get i) (RHO.get i) := by
  refine read_foldl_write (fun (t : Halves) i => (t.hi.get i, t.lo.get i))
    (fun t i r => { hi := t.hi.set i r.1, lo := t.lo.set i r.2 }) ?_ PI_injective
    (fun i => rot64 (s.hi.get i) (s.lo.get i) (RHO.get i)) _ (List.mem_finRange i)
  intro t i r j
  by_cases hij : i = j <;> simp [get_set, hij]

theorem state_rhoPiHalves (s : Halves) : (rhoPiHalves s).state = pi (rho s.state) := by
  funext x y
  have hget := rhoPiHalves_get s (laneIndex (x + 3 * y) x)
  rw [PI_get, Prod.ext_iff] at hget
  obtain ⟨hhi, hlo⟩ := hget
  dsimp only at hhi hlo
  rw [Halves.state, hhi, hlo, join_rot64, RHO_get]
  rfl

theorem join_chiHalf (s : Halves) (x y : Fin 5) :
    join ((chiHalf s.hi).get (laneIndex x y)) ((chiHalf s.lo).get (laneIndex x y)) =
      chi s.state x y := by
  simp [chiHalf, chi, Halves.state]

theorem join_RC (r : Fin 24) : join (RC.get r).1 (RC.get r).2 = roundConstant r := by
  revert r
  decide +kernel

theorem state_roundHalves (s : Halves) (r : Fin 24) :
    (roundHalves s r).state = round s.state r := by
  funext x y
  have hzero : (0 : Fin 25) = laneIndex x y ↔ x = 0 ∧ y = 0 := by
    revert x y
    decide
  rw [Keccak.round, ← state_thetaHalves, ← state_rhoPiHalves, iota, ← join_chiHalf, ← join_RC, join_xor,
    Halves.state, roundHalves]
  generalize rhoPiHalves (thetaHalves s) = t
  have hset := fun (half : Vector Half 25) (a : Half) => get_set half 0 (laneIndex x y) a
  simp only [Fin.val_zero] at hset
  rw [hset, hset]
  by_cases h : x = 0 ∧ y = 0
  · rw [if_pos h, if_pos (hzero.mpr h), if_pos (hzero.mpr h), ← hzero.mpr h]
  · rw [if_neg h, if_neg (mt hzero.mp h), if_neg (mt hzero.mp h)]

theorem state_keccakF1600 (s : Halves) : (keccakF1600 s).state = permute s.state := by
  have hrounds : List.range 24 = (List.finRange 24).map Fin.val := rfl
  rw [keccakF1600, permute, hrounds, List.foldl_map]
  generalize List.finRange 24 = l
  induction l generalizing s with
  | nil => rfl
  | cons r l ih => rw [List.foldl_cons, List.foldl_cons, ih, state_roundHalves]

/-! ### Bytes of split lanes -/

theorem toNat_join (hi lo : Half) : (join hi lo).toNat = hi.toNat * 2 ^ 32 + lo.toNat := by
  have h : (join hi lo).toNat = hi.toNat <<< 32 ||| lo.toNat := BitVec.toNat_append hi lo
  rw [h, ← Nat.shiftLeft_add_eq_or_of_lt lo.isLt, Nat.shiftLeft_eq]

/-- A byte ored in above the bits already there is added. -/
theorem toNat_or_byte {h : Half} {k : Nat} (hh : h.toNat < 2 ^ k) (hk : k ≤ 24) (b : UInt8) :
    (h ||| BitVec.ofNat 32 b.toNat <<< k).toNat = h.toNat + b.toNat * 2 ^ k := by
  have hb : b.toNat < 2 ^ 8 := b.toNat_lt
  have hpow : 2 ^ 8 * 2 ^ k ≤ 2 ^ 32 := by
    rw [← Nat.pow_add]
    exact Nat.pow_le_pow_right (by decide) (by omega)
  have hfits : b.toNat * 2 ^ k < 2 ^ 32 :=
    (Nat.mul_lt_mul_of_pos_right hb (Nat.two_pow_pos k)).trans_le hpow
  have hsmall : b.toNat % 2 ^ 32 = b.toNat := Nat.mod_eq_of_lt (hb.trans (by decide))
  rw [BitVec.toNat_or, BitVec.toNat_shiftLeft, BitVec.toNat_ofNat, hsmall, Nat.shiftLeft_eq,
    Nat.mod_eq_of_lt hfits, ← Nat.shiftLeft_eq, Nat.or_comm, ← Nat.shiftLeft_add_eq_or_of_lt hh,
    Nat.add_comm]

theorem toNat_halfAt (data : Bytes) (base : Nat) :
    (halfAt data base).toNat = (data.getD base 0).toNat + (data.getD (base + 1) 0).toNat * 2 ^ 8 +
      (data.getD (base + 2) 0).toNat * 2 ^ 16 + (data.getD (base + 3) 0).toNat * 2 ^ 24 := by
  have hbyte : ∀ i, (data.getD i 0).toNat < 2 ^ 8 := fun i => UInt8.toNat_lt _
  have h0 := toNat_or_byte (h := 0) (k := 0) (by decide) (by decide) (data.getD base 0)
  rw [show (0 : Half).toNat = 0 from rfl, Nat.zero_add, Nat.pow_zero, Nat.mul_one] at h0
  have h1 := toNat_or_byte (h0.trans_lt (hbyte base)) (by decide) (data.getD (base + 1) 0)
  have hlt1 := hbyte base
  have hlt2 := hbyte (base + 1)
  have hlt3 := hbyte (base + 2)
  rw [h0] at h1
  have h2 := toNat_or_byte (k := 16) (h1.trans_lt (by omega)) (by decide) (data.getD (base + 2) 0)
  rw [h1] at h2
  have h3 := toNat_or_byte (k := 24) (h2.trans_lt (by omega)) (by decide) (data.getD (base + 3) 0)
  rw [h2] at h3
  exact h3

/-- The halves of eight bytes are the lane they spell. -/
theorem laneAt_eq_join {data : Bytes} {offset i : Nat} (hi : i < 17)
    (hdata : offset + 136 ≤ data.length) :
    laneAt ((data.drop offset).take rate) i =
      join (halfAt data (offset + i * 8 + 4)) (halfAt data (offset + i * 8)) := by
  have hbytes : (((data.drop offset).take rate).drop (8 * i)).take 8 =
      (List.range 8).map fun b => data.getD (offset + i * 8 + b) 0 := by
    refine List.ext_getElem ?_ fun b hb _ => ?_
    · simp [rate]
      omega
    · have : offset + (8 * i + b) = offset + i * 8 + b := by omega
      rw [List.getElem_map, List.getElem_range]
      simp only [List.getElem_take, List.getElem_drop, this]
      rw [List.getD_eq_getElem]
  have height : List.range 8 = [0, 1, 2, 3, 4, 5, 6, 7] := rfl
  refine BitVec.eq_of_toNat_eq ?_
  rw [laneAt, hbytes, height, toNat_join, toNat_halfAt, toNat_halfAt, BitVec.toNat_ofNat]
  have hbyte : ∀ i, (data.getD i 0).toNat < 256 := fun i => UInt8.toNat_lt _
  have h := fun b => hbyte (offset + i * 8 + b)
  have h0 := h 0
  have h1 := h 1
  have h2 := h 2
  have h3 := h 3
  have h4 := h 4
  have h5 := h 5
  have h6 := h 6
  have h7 := h 7
  simp only [List.map_cons, List.map_nil, readLE, List.foldr_cons, List.foldr_nil, Nat.add_zero,
    Nat.add_assoc, Nat.reduceAdd] at *
  omega

theorem state_absorbBlock {s : Halves} {data : Bytes} {offset : Nat}
    (hdata : offset + 136 ≤ data.length) :
    (absorbBlock s data offset 136).state = absorb s.state ((data.drop offset).take rate) := by
  funext x y
  have hplace : (laneIndex x y).val = lanePlace x y := rfl
  have hrate : 8 * lanePlace x y < rate ↔ lanePlace x y < 136 / 8 := by
    unfold rate
    omega
  rw [absorb, Halves.state, absorbBlock, get_ofFn, get_ofFn, hplace]
  by_cases h : lanePlace x y < 136 / 8
  · rw [if_pos (hrate.mpr h), if_pos h, if_pos h, laneAt_eq_join h hdata, Halves.state, join_xor]
  · rw [if_neg (mt hrate.mp h), if_neg h, if_neg h, Halves.state]

/-- The absorbing loop absorbs the whole blocks that are left. -/
theorem absorbFull_eq {data : Bytes} {n k : Nat} (hk : k + n = data.length / rate) (s : Halves) :
    (absorbFull data s (136 * k)).2 = 136 * (data.length / rate) ∧
      (absorbFull data s (136 * k)).1.state =
        (List.range' k n).foldl (fun a k => permute (absorb a (blockAt data k))) s.state := by
  have hdiv := Nat.div_add_mod data.length 136
  have hmod : data.length % 136 < 136 := Nat.mod_lt _ (by decide)
  unfold rate at *
  induction n generalizing k s with
  | zero =>
      rw [absorbFull, dif_neg (by omega), ← hk]
      exact ⟨rfl, rfl⟩
  | succ n ih =>
      have hblock : 136 * k + 136 ≤ data.length := by omega
      rw [absorbFull, dif_pos hblock, ← Nat.mul_succ, List.range'_succ, List.foldl_cons]
      have h := ih (k := k + 1) (by omega) (keccakF1600 (absorbBlock s data (136 * k) 136))
      rw [state_keccakF1600, state_absorbBlock hblock] at h
      exact h

/-- The last block is what is left of the message, and the standard's padding. -/
theorem lastBlock_eq (data : Bytes) :
    lastBlock data (136 * (data.length / 136)) =
      data.drop (136 * (data.length / 136)) ++ padding data.length := by
  have hdiv := Nat.div_add_mod data.length 136
  have hmod : data.length % 136 < 136 := Nat.mod_lt _ (by decide)
  have hlength : (data.drop (136 * (data.length / 136))).length = data.length % 136 := by
    rw [List.length_drop]
    omega
  have hrest : data.length - 136 * (data.length / 136) = data.length % 136 := by omega
  unfold lastBlock padding rate
  dsimp only
  rw [hrest, hlength]
  generalize data.drop (136 * (data.length / 136)) = rest at hlength
  generalize data.length % 136 = m at hlength hmod
  by_cases hfull : m = 135
  · subst hfull
    have hset : (rest ++ List.replicate (136 - 135) (0 : UInt8)).set 135 1 = rest ++ [1] := by
      rw [List.set_append_right _ _ (by omega), hlength]
      rfl
    have hget : (rest ++ [(1 : UInt8)]).getD 135 0 = 1 := by
      rw [List.getD_append_right _ _ _ _ (by omega), hlength]
      rfl
    simp only [hset, hget]
    rw [List.set_append_right _ _ (by omega), hlength]
    rfl
  · have hzeros : List.replicate (136 - m) (0 : UInt8) =
        0 :: (List.replicate (134 - m) 0 ++ [0]) := by
      rw [show 136 - m = (134 - m) + 1 + 1 by omega, List.replicate_succ, List.replicate_succ']
    have hset : (rest ++ List.replicate (136 - m) (0 : UInt8)).set m 1 =
        (rest ++ 1 :: List.replicate (134 - m) 0) ++ [0] := by
      rw [hzeros, List.set_append_right _ _ (by omega), hlength, Nat.sub_self, List.set_cons_zero]
      simp
    have hprefix : (rest ++ (1 : UInt8) :: List.replicate (134 - m) 0).length = 135 := by
      simp [hlength]
      omega
    have hget : ((rest ++ (1 : UInt8) :: List.replicate (134 - m) 0) ++ [0]).getD 135 0 = 0 := by
      rw [List.getD_append_right _ _ _ _ (by omega), hprefix]
      rfl
    simp only [hset, hget]
    rw [List.set_append_right _ _ (by omega), hprefix, if_neg (by omega)]
    simp [show 136 - m - 2 = 134 - m by omega]

theorem laneBytes_join (hi lo : Half) : laneBytes (join hi lo) =
    [lo &&& 0xff, (lo >>> 8) &&& 0xff, (lo >>> 16) &&& 0xff, (lo >>> 24) &&& 0xff,
      hi &&& 0xff, (hi >>> 8) &&& 0xff, (hi >>> 16) &&& 0xff, (hi >>> 24) &&& 0xff].map
      fun b => UInt8.ofNat b.toNat := by
  have hmask : ∀ h : Half, (h &&& 0xff).toNat = h.toNat % 256 := by
    intro h
    rw [BitVec.toNat_and]
    exact Nat.and_two_pow_sub_one_eq_mod h.toNat 8
  have hshift : ∀ (h : Half) (k : Nat), (h >>> k).toNat = h.toNat / 2 ^ k := by
    intro h k
    rw [BitVec.toNat_ushiftRight, Nat.shiftRight_eq_div_pow]
  have hbyte : ∀ m n : Nat, m % 256 = n % 256 → UInt8.ofNat m = UInt8.ofNat n := by
    intro m n h
    exact UInt8.toNat_inj.mp (by rw [UInt8.toNat_ofNat', UInt8.toNat_ofNat', h])
  have height : List.range 8 = [0, 1, 2, 3, 4, 5, 6, 7] := rfl
  have hlt := lo.isLt
  simp only [laneBytes, height, toNat_join, List.map_cons, List.map_nil, hmask, hshift]
  congr 1
  · exact hbyte _ _ (by omega)
  congr 1
  · exact hbyte _ _ (by omega)
  congr 1
  · exact hbyte _ _ (by omega)
  congr 1
  · exact hbyte _ _ (by omega)
  congr 1
  · exact hbyte _ _ (by omega)
  congr 1
  · exact hbyte _ _ (by omega)
  congr 1
  · exact hbyte _ _ (by omega)
  congr 1
  exact hbyte _ _ (by omega)

theorem state_zero :
    Halves.state { hi := Vector.replicate 25 0, lo := Vector.replicate 25 0 } = fun _ _ => 0 := by
  funext x y
  have hget : ∀ i : Fin 25, (Vector.replicate 25 (0 : Half)).get i = 0 := by decide
  rw [Halves.state, hget]
  rfl

theorem length_lastBlock (data : Bytes) :
    (lastBlock data (136 * (data.length / 136))).length = 136 := by
  have hdiv := Nat.div_add_mod data.length 136
  have hmod : data.length % 136 < 136 := Nat.mod_lt _ (by decide)
  rw [lastBlock_eq, List.length_append, length_padding, List.length_drop, rate]
  omega

/-- **The split-lane implementation is Keccak-256.** -/
theorem keccak256Ts_eq_digest (data : Bytes) : keccak256Ts data = digest data := by
  have hblocks : 0 + data.length / rate = data.length / rate := Nat.zero_add _
  obtain ⟨hoffset, hstate⟩ := absorbFull_eq hblocks
    { hi := Vector.replicate 25 0, lo := Vector.replicate 25 0 }
  rw [state_zero, ← List.range_eq_range'] at hstate
  have hlength := length_lastBlock data
  have hlane : ∀ (s : Halves) (x : Fin 5), squeezeLane s (laneIndex x 0) =
      laneBytes (s.state x 0) := fun s x => (laneBytes_join _ _).symm
  have hdigest := absorbAll_padded data
  simp only [keccak256Ts, digest]
  rw [Nat.mul_zero] at hoffset hstate
  generalize absorbFull data { hi := Vector.replicate 25 0, lo := Vector.replicate 25 0 } 0 = full
    at hoffset hstate
  obtain ⟨s, offset⟩ := full
  obtain rfl : offset = 136 * (data.length / 136) := hoffset
  have hfits : 0 + 136 ≤ (lastBlock data (136 * (data.length / 136))).length := by
    rw [hlength]
  have hlast := state_absorbBlock (s := s) hfits
  rw [List.drop_zero, rate, List.take_of_length_le (Nat.le_of_eq hlength), lastBlock_eq] at hlast
  have hfinal : (keccakF1600 (absorbBlock s (lastBlock data (136 * (data.length / 136))) 0 136)).state
      = absorbAll (data ++ padding data.length) := by
    rw [state_keccakF1600, lastBlock_eq, hlast, hdigest, show s.state = absorbAll data from hstate,
      rate]
  rw [← hfinal, ← hlane, ← hlane, ← hlane, ← hlane]
  rfl

end CoreTex.Hash
