import CoreTex.Lib.Bytes
import Mathlib.Data.List.Basic

/-!
# CoreTex.Lib.Keccak

Keccak-f[1600] and the Keccak-256 sponge, as the standard defines them.

The state is 25 lanes of 64 bits, addressed by column `x` and row `y`. Rotation offsets
come from the walk through the lanes and round constants from the linear feedback shift
register, so no table is trusted: an implementation's tables are compared with these.
-/

namespace CoreTex.Lib.Keccak

/-! ### The permutation -/

instance neZeroFive : NeZero 5 := ⟨by decide⟩

/-- A lane. -/
abbrev Lane := BitVec 64

/-- The state, by column and row. -/
abbrev KeccakState := Fin 5 → Fin 5 → Lane

/-- The column parities. -/
def parity (a : KeccakState) (x : Fin 5) : Lane :=
  a x 0 ^^^ a x 1 ^^^ a x 2 ^^^ a x 3 ^^^ a x 4

/-- What theta adds to every lane of a column. -/
def thetaEffect (a : KeccakState) (x : Fin 5) : Lane :=
  parity a (x - 1) ^^^ (parity a (x + 1)).rotateLeft 1

def theta (a : KeccakState) : KeccakState := fun x y =>
  a x y ^^^ thetaEffect a x

/-- The lanes other than the origin, in the order the rotation offsets are dealt. -/
def walk : Nat → Fin 5 × Fin 5
  | 0 => (1, 0)
  | t + 1 => ((walk t).2, 2 * (walk t).1 + 3 * (walk t).2)

/-- The rotation offset of a lane: a triangular number, by its place on the walk. -/
def offset (x y : Fin 5) : Nat :=
  ((List.range 24).find? fun t => walk t = (x, y)).elim 0 fun t => (t + 1) * (t + 2) / 2 % 64

def rho (a : KeccakState) : KeccakState := fun x y =>
  (a x y).rotateLeft (offset x y)

def pi (a : KeccakState) : KeccakState := fun x y =>
  a (x + 3 * y) x

def chi (a : KeccakState) : KeccakState := fun x y =>
  a x y ^^^ (~~~ a (x + 1) y &&& a (x + 2) y)

/-- One step of the shift register `x^8 + x^6 + x^5 + x^4 + 1`. -/
def shiftRegister (r : BitVec 8) : BitVec 8 :=
  (r <<< 1) ^^^ if r.msb then 0x71 else 0

/-- The register's low bit after `t` steps. -/
def registerBit (t : Nat) : Bool :=
  (shiftRegister^[t] 1).getLsbD 0

/-- The constant of a round: bit `2^j - 1` is the register's bit after `j + 7 * round` steps. -/
def roundConstant (round : Nat) : Lane :=
  (List.range 7).foldl (fun c j =>
    if registerBit (j + 7 * round) then c ||| (1 <<< (2 ^ j - 1)) else c) 0

def iota (round : Nat) (a : KeccakState) : KeccakState := fun x y =>
  if x = 0 ∧ y = 0 then a x y ^^^ roundConstant round else a x y

def round (a : KeccakState) (r : Nat) : KeccakState :=
  iota r (chi (pi (rho (theta a))))

/-- Keccak-f[1600]. -/
def permute (a : KeccakState) : KeccakState :=
  (List.range 24).foldl round a

/-! ### The sponge -/

/-- Bytes absorbed and squeezed between two permutations. -/
def rate : Nat := 136

/-- The number eight bytes spell, least significant first. -/
def readLE (bytes : Bytes) : Nat :=
  bytes.foldr (fun b acc => b.toNat + 256 * acc) 0

/-- The lane that starts at a byte of a block. -/
def laneAt (block : Bytes) (i : Nat) : Lane :=
  BitVec.ofNat 64 (readLE ((block.drop (8 * i)).take 8))

/-- A lane's place in a block. -/
def lanePlace (x y : Fin 5) : Nat :=
  x + 5 * y

/-- A block added to the lanes of the rate. -/
def absorb (a : KeccakState) (block : Bytes) : KeccakState := fun x y =>
  if 8 * lanePlace x y < rate then a x y ^^^ laneAt block (lanePlace x y) else a x y

/-- `0x01`, zeros and `0x80`, or both marks in one byte. -/
def padding (length : Nat) : Bytes :=
  let q := rate - length % rate
  if q = 1 then [0x81] else [0x01] ++ List.replicate (q - 2) 0 ++ [0x80]

/-- The block of a text that starts at a multiple of the rate. -/
def blockAt (bytes : Bytes) (k : Nat) : Bytes :=
  (bytes.drop (rate * k)).take rate

/-- All whole blocks of a text absorbed. -/
def absorbAll (bytes : Bytes) : KeccakState :=
  (List.range (bytes.length / rate)).foldl
    (fun a k => permute (absorb a (blockAt bytes k))) fun _ _ => 0

/-- The bytes of a lane, least significant first. -/
def laneBytes (lane : Lane) : Bytes :=
  (List.range 8).map fun k => UInt8.ofNat (lane.toNat / 256 ^ k)

/-- Keccak-256. -/
def digest (message : Bytes) : Bytes :=
  let a := absorbAll (message ++ padding message.length)
  laneBytes (a 0 0) ++ laneBytes (a 1 0) ++ laneBytes (a 2 0) ++ laneBytes (a 3 0)

/-! ### Padding -/

theorem length_padding (length : Nat) : (padding length).length = rate - length % rate := by
  have : length % rate < rate := Nat.mod_lt _ (by decide)
  unfold padding
  simp only
  split <;> simp <;> omega

/-- A padded message is one block longer than the message's whole blocks. -/
theorem length_padded (message : Bytes) :
    (message ++ padding message.length).length = rate * (message.length / rate + 1) := by
  have hlt : message.length % rate < rate := Nat.mod_lt _ (by decide)
  have hdiv := Nat.div_add_mod message.length rate
  rw [List.length_append, length_padding, Nat.mul_add]
  omega

/-- The blocks before the last one are the message's own. -/
theorem blockAt_padded {message : Bytes} {k : Nat} (h : k < message.length / rate) :
    blockAt (message ++ padding message.length) k = blockAt message k := by
  have hk : rate * (k + 1) ≤ message.length :=
    (Nat.mul_le_mul_left rate h).trans (Nat.mul_div_le _ _)
  rw [Nat.mul_add, Nat.mul_one] at hk
  rw [blockAt, blockAt, List.drop_append_of_le_length (by omega),
    List.take_append_of_le_length (by rw [List.length_drop]; omega)]

/-- The last block: what is left of the message, and the padding. -/
theorem blockAt_last (message : Bytes) :
    blockAt (message ++ padding message.length) (message.length / rate) =
      message.drop (rate * (message.length / rate)) ++ padding message.length := by
  have hle : rate * (message.length / rate) ≤ message.length := Nat.mul_div_le _ _
  have hdiv := Nat.div_add_mod message.length rate
  have hlt : message.length % rate < rate := Nat.mod_lt _ (by decide)
  rw [blockAt, List.drop_append_of_le_length hle, List.take_of_length_le]
  rw [List.length_append, List.length_drop, length_padding]
  omega

/-- A padded message is absorbed block by block, and its last block after the others. -/
theorem absorbAll_padded (message : Bytes) :
    absorbAll (message ++ padding message.length) =
      permute (absorb (absorbAll message)
        (message.drop (rate * (message.length / rate)) ++ padding message.length)) := by
  have hblocks : ∀ a : KeccakState, (List.range (message.length / rate)).foldl
      (fun a k => permute (absorb a (blockAt (message ++ padding message.length) k))) a =
      (List.range (message.length / rate)).foldl
        (fun a k => permute (absorb a (blockAt message k))) a := by
    intro a
    refine List.foldl_ext _ _ _ fun a k hk => ?_
    rw [blockAt_padded (List.mem_range.mp hk)]
  rw [absorbAll, length_padded, Nat.mul_div_cancel_left _ (by decide), List.range_succ,
    List.foldl_append, List.foldl_cons, List.foldl_nil, blockAt_last, hblocks, absorbAll]

end CoreTex.Lib.Keccak
