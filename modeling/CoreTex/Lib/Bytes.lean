import Mathlib.Data.List.Induction
import Mathlib.Tactic.Common
import Mathlib.Tactic.Ring

/-!
# CoreTex.Lib.Bytes

Byte strings, their fixed-width big-endian numbers and their lower-case hex text.

`writeBE` and `readBE` are inverse to each other on numbers that fit and on byte
strings of the width (`readBE_writeBE`, `writeBE_readBE`).
-/

namespace CoreTex.Lib

/-- A byte string. -/
abbrev Bytes := List UInt8

/-! ### Big-endian numbers -/

/-- The `n` low-order bytes of `v`, most significant first. -/
def writeBE : Nat → Nat → Bytes
  | 0, _ => []
  | n + 1, v => writeBE n (v / 256) ++ [UInt8.ofNat (v % 256)]

/-- The number a byte string spells, most significant byte first. -/
def readBE (bytes : Bytes) : Nat :=
  bytes.foldl (fun acc b => acc * 256 + b.toNat) 0

@[simp] theorem length_writeBE (n v : Nat) : (writeBE n v).length = n := by
  induction n generalizing v with
  | zero => rfl
  | succ n ih => simp [writeBE, ih]

theorem readBE_append_singleton (bytes : Bytes) (b : UInt8) :
    readBE (bytes ++ [b]) = readBE bytes * 256 + b.toNat := by
  simp [readBE]

theorem readBE_cons (b : UInt8) (bytes : Bytes) :
    readBE (b :: bytes) = b.toNat * 256 ^ bytes.length + readBE bytes := by
  induction bytes using List.reverseRecOn with
  | nil => simp [readBE]
  | append_singleton bytes c ih =>
      rw [← List.cons_append, readBE_append_singleton, ih, readBE_append_singleton,
        List.length_append, List.length_singleton, Nat.pow_succ]
      ring

theorem readBE_writeBE (n v : Nat) : readBE (writeBE n v) = v % 256 ^ n := by
  induction n generalizing v with
  | zero => simp [writeBE, readBE, Nat.mod_one]
  | succ n ih =>
      have hb : (UInt8.ofNat (v % 256)).toNat = v % 256 := by
        rw [UInt8.toNat_ofNat']; omega
      rw [writeBE, readBE_append_singleton, ih, hb, Nat.pow_succ, Nat.mul_comm (256 ^ n) 256,
        Nat.mod_mul]
      omega

theorem readBE_lt (bytes : Bytes) : readBE bytes < 256 ^ bytes.length := by
  induction bytes using List.reverseRecOn with
  | nil => simp [readBE]
  | append_singleton bytes b ih =>
      have hb : b.toNat < 256 := b.toNat_lt
      rw [readBE_append_singleton, List.length_append, List.length_singleton, Nat.pow_succ]
      omega

theorem writeBE_readBE (bytes : Bytes) : writeBE bytes.length (readBE bytes) = bytes := by
  induction bytes using List.reverseRecOn with
  | nil => rfl
  | append_singleton bytes b ih =>
      have hb : b.toNat < 256 := b.toNat_lt
      have hdiv : (readBE bytes * 256 + b.toNat) / 256 = readBE bytes := by omega
      have hmod : (readBE bytes * 256 + b.toNat) % 256 = b.toNat := by omega
      rw [readBE_append_singleton, List.length_append, List.length_singleton, writeBE, hdiv, hmod,
        ih, UInt8.ofNat_toNat]

/-- The high and the low half of a number, written apart, are the number. -/
theorem writeBE_add (m n v : Nat) : writeBE (m + n) v = writeBE m (v / 256 ^ n) ++ writeBE n v := by
  induction n generalizing v with
  | zero => simp [writeBE]
  | succ n ih =>
      rw [← Nat.add_assoc, writeBE, ih, writeBE, List.append_assoc, Nat.div_div_eq_div_mul,
        Nat.pow_succ, Nat.mul_comm (256 ^ n) 256]

/-- Writing keeps the low-order bytes only. -/
theorem writeBE_mod (n v : Nat) : writeBE n (v % 256 ^ n) = writeBE n v := by
  have h := writeBE_readBE (writeBE n v)
  rwa [length_writeBE, readBE_writeBE] at h

/-! ### Hex text -/

/-- The lower-case hex digit of a number below 16. -/
def hexDigit (n : Nat) : Char :=
  if n < 10 then Char.ofNat (48 + n) else Char.ofNat (87 + n)

/-- The two hex digits of a byte. -/
def hexByte (b : UInt8) : List Char :=
  [hexDigit (b.toNat / 16), hexDigit (b.toNat % 16)]

/-- The hex digits of a byte string, two for each byte. -/
def hexChars (bytes : Bytes) : List Char :=
  bytes.flatMap hexByte

@[simp] theorem length_hexChars (bytes : Bytes) : (hexChars bytes).length = 2 * bytes.length := by
  induction bytes with
  | nil => rfl
  | cons b bytes ih =>
      simp only [hexChars, List.flatMap_cons, List.length_append, List.length_cons] at ih ⊢
      simp only [ih, hexByte, List.length_cons, List.length_nil]
      omega

theorem hexDigit_injective {m n : Nat} (hm : m < 16) (hn : n < 16)
    (h : hexDigit m = hexDigit n) : m = n := by
  revert h
  have : ∀ a : Fin 16, ∀ b : Fin 16, hexDigit a = hexDigit b → a = b := by decide
  intro h
  exact congrArg Fin.val (this ⟨m, hm⟩ ⟨n, hn⟩ h)

theorem hexByte_injective {a b : UInt8} (h : hexByte a = hexByte b) : a = b := by
  simp only [hexByte, List.cons.injEq, and_true] at h
  have ha : a.toNat < 256 := a.toNat_lt
  have hb : b.toNat < 256 := b.toNat_lt
  have hdiv := hexDigit_injective (by omega) (by omega) h.1
  have hmod := hexDigit_injective (by omega) (by omega) h.2
  exact UInt8.toNat_inj.mp (by omega)

/-- Distinct byte strings have distinct hex text. -/
theorem hexChars_injective {a b : Bytes} (h : hexChars a = hexChars b) : a = b := by
  induction a generalizing b with
  | nil =>
      have := congrArg List.length h
      simp only [length_hexChars, List.length_nil] at this
      exact (List.eq_nil_of_length_eq_zero (by omega)).symm
  | cons x a ih =>
      cases b with
      | nil => simp [hexChars, hexByte] at h
      | cons y b =>
          simp only [hexChars, List.flatMap_cons] at h
          obtain ⟨hxy, hab⟩ := List.append_inj h rfl
          rw [hexByte_injective hxy, ih hab]

end CoreTex.Lib
