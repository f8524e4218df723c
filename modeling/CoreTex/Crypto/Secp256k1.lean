import CoreTex.Lib.Bytes
import CoreTex.Lib.ModPow
import CoreTex.State.Merkle

/-!
# CoreTex.Crypto.Secp256k1

`coretex_validator/secp256k1.py`: address recovery over affine integer coordinates. The
module is a literal translation; what its point arithmetic computes is stated in
`CoreTex.Crypto.GroupLaw`.

Keccak-256 is a parameter.
-/

namespace CoreTex.Secp256k1

open CoreTex.Lib

/-- The field prime, the curve order and the generator. -/
def P : Nat := 0xFFFFFFFFFFFFFFFFFFFFFFFFFFFFFFFFFFFFFFFFFFFFFFFFFFFFFFFEFFFFFC2F
def N : Nat := 0xFFFFFFFFFFFFFFFFFFFFFFFFFFFFFFFEBAAEDCE6AF48A03BBFD25E8CD0364141
def GX : Nat := 0x79BE667EF9DCBBAC55A06295CE870B07029BFCDB2DCE28D959F2815B16F81798
def GY : Nat := 0x483ADA7726A3C4655DA4FBFC0E1108A8FD17B448A68554199C47D08FFB10D4B8

/-- EIP-2: any `s` above this is the malleable twin of a canonical signature. -/
def halfN : Nat := N / 2

/-- `SignatureError`, with its text. -/
structure SignatureError where
  message : String
deriving DecidableEq, Repr

/-- An affine point as the code holds it; `none` is the point at infinity. -/
abbrev Coords := Option (Int × Int)

/-- `pow(value, exponent, modulus)` for a positive modulus. -/
def pyPow (value : Int) (exponent modulus : Nat) : Int :=
  powMod (value % modulus).toNat exponent modulus

def inv (value : Int) (modulus : Nat) : Int :=
  pyPow value (modulus - 2) modulus

def double : Coords → Coords
  | none => none
  | some (x, y) =>
    if y = 0 then none
    else
      let lam := (3 * x * x % P) * inv (2 * y % P) P % P
      let nx := (lam * lam - 2 * x) % P
      some (nx, (lam * (x - nx) - y) % P)

def add (a b : Coords) : Coords :=
  match a, b with
  | none, b => b
  | a, none => a
  | some (ax, ay), some (bx, by') =>
    if ax = bx then
      if (ay + by') % P = 0 then double a else if ay ≠ by' then none else double a
    else
      let lam := (by' - ay) * inv ((bx - ax) % P) P % P
      let nx := (lam * lam - ax - bx) % P
      some (nx, (lam * (ax - nx) - ay) % P)

/-- The `while scalar` loop of `_mul`, over as many rounds as the scalar has bits. -/
def mulLoop : Nat → Coords → Coords → Nat → Coords
  | 0, result, _, _ => result
  | fuel + 1, result, addend, scalar =>
    if scalar = 0 then result
    else
      mulLoop fuel (if scalar % 2 = 1 then add result addend else result) (double addend)
        (scalar / 2)

def mul (point : Coords) (scalar : Nat) : Coords :=
  mulLoop ((scalar % N).log2 + 1) none point (scalar % N)

/-- The curve point at `x` with the requested parity, or `none` if `x` is off the curve. -/
def decompress (x : Nat) (odd : Bool) : Coords :=
  if ¬(0 < x ∧ x < P) then none
  else
    let alpha := (pyPow x 3 P + 7) % P
    let beta := pyPow alpha ((P + 1) / 4) P
    if pyPow beta 2 P ≠ alpha then none
    else
      let y := if decide (beta % 2 = 1) = odd then beta else P - beta
      some (x, y)

/-- A 65-byte `r ‖ s ‖ v` signature, range-checked: `(r, s, recovery)`. -/
def splitSignature (signature : Bytes) : Except SignatureError (Nat × Nat × Nat) :=
  if signature.length ≠ 65 then
    let len := signature.length
    .error ⟨s!"a signature is 65 bytes (r‖s‖v); this one is {len}"⟩
  else
    let r := readBE (signature.take 32)
    let s := readBE ((signature.drop 32).take 32)
    let v := (signature.getD 64 0).toNat
    if ¬(0 < r ∧ r < N) then .error ⟨"r is not in [1, n)"⟩
    else if ¬(0 < s ∧ s < N) then .error ⟨"s is not in [1, n)"⟩
    else if s > halfN then
      .error ⟨"s is above n/2: this is the EIP-2 malleable twin of a canonical signature. It is " ++
        "REFUSED rather than normalised, because accepting both encodings would let two " ++
        "distinct signatures authenticate one payload"⟩
    else if v = 27 ∨ v = 28 then .ok (r, s, v - 27)
    else if v = 0 ∨ v = 1 then .ok (r, s, v)
    else .error ⟨s!"v must be 27/28 (or 0/1); it is {v}"⟩

variable (keccak256 : Bytes → Digest)

/-- The address of an affine public key. -/
def addressOf (q : Int × Int) : String :=
  let uncompressed := writeBE 32 q.1.toNat ++ writeBE 32 q.2.toNat
  bytesToHex ((keccak256 uncompressed).bytes.drop 12)

/-- The address that signed `digest`. -/
def ecrecover (digest signature : Bytes) : Except SignatureError String :=
  if digest.length ≠ 32 then .error ⟨"the signed digest must be exactly 32 bytes"⟩
  else do
    let (r, s, recovery) ← splitSignature signature
    match decompress r (recovery % 2 = 1) with
    | none =>
      .error ⟨"r does not name a point on secp256k1; the signature is malformed"⟩
    | some point =>
      let e := readBE digest % N
      let rInv := (inv r N).toNat
      match mul (add (mul (some point) s) (mul (some (GX, GY)) (N - e))) rInv with
      | none => .error ⟨"signature recovery produced the point at infinity"⟩
      | some q => .ok (addressOf keccak256 q)

end CoreTex.Secp256k1
