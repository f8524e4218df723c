import CoreTex.Lib.JsonParse

/-!
# CoreTex.Lib.PyText

Text operations of a Python host on code points: `bytes.fromhex`, `str.strip` and the ASCII part
of `str.lower`.

`fromHex_hexChars` reads the lower-case hex text of a byte string back.
-/

namespace CoreTex.Lib

/-- The text of code points, for an error message. -/
def text (s : PyStr) : String :=
  String.ofList (s.map Char.ofNat)

/-- `str.lower`, on text whose letters are ASCII. -/
def lower (s : PyStr) : PyStr :=
  s.map fun c => if 65 ≤ c ∧ c ≤ 90 then c + 32 else c

/-- The characters `str.strip` takes off. -/
def isPySpace (c : Nat) : Bool :=
  [9, 10, 11, 12, 13, 28, 29, 30, 31, 32, 133, 160, 0x1680, 0x2000, 0x2001, 0x2002, 0x2003,
    0x2004, 0x2005, 0x2006, 0x2007, 0x2008, 0x2009, 0x200a, 0x2028, 0x2029, 0x202f, 0x205f,
    0x3000].contains c

def strip (s : PyStr) : PyStr :=
  ((s.dropWhile isPySpace).reverse.dropWhile isPySpace).reverse

/-- `bytes.fromhex`: pairs of hex digits, with ASCII white space between pairs; none where it
raises `ValueError`. -/
def fromHex : PyStr → Option Bytes
  | [] => some []
  | [c] => if c = 32 ∨ 9 ≤ c ∧ c ≤ 13 then some [] else none
  | c :: d :: rest =>
    if c = 32 ∨ 9 ≤ c ∧ c ≤ 13 then fromHex (d :: rest)
    else
      match hexValue c, hexValue d with
      | some high, some low => (fromHex rest).map (UInt8.ofNat (high * 16 + low) :: ·)
      | _, _ => none

theorem le_hexDigit {n : Nat} (h : n < 16) : 48 ≤ (hexDigit n).toNat := by
  have hall : ∀ d : Fin 16, 48 ≤ (hexDigit d).toNat := by decide
  exact hall ⟨n, h⟩

/-- Hex text reads back as the bytes it spells. -/
theorem fromHex_hexChars (bytes : Bytes) :
    fromHex ((hexChars bytes).map Char.toNat) = some bytes := by
  induction bytes with
  | nil => rfl
  | cons b bytes ih =>
      have hb : b.toNat < 256 := b.toNat_lt
      have hhi : b.toNat / 16 < 16 := by omega
      have hlo : b.toNat % 16 < 16 := by omega
      have hge := le_hexDigit hhi
      have hsum : b.toNat / 16 * 16 + b.toNat % 16 = b.toNat := by omega
      simp only [hexChars, hexByte, List.flatMap_cons, List.cons_append, List.nil_append,
        List.map_cons] at ih ⊢
      rw [fromHex, if_neg (by omega), hexValue_hexDigit hhi, hexValue_hexDigit hlo, ih]
      show some (UInt8.ofNat (b.toNat / 16 * 16 + b.toNat % 16) :: bytes) = some (b :: bytes)
      rw [hsum, UInt8.ofNat_toNat]

end CoreTex.Lib
