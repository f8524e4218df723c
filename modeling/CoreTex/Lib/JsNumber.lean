import CoreTex.Lib.Bytes
import CoreTex.Lib.JsonParse

/-!
# CoreTex.Lib.JsNumber

Reading numbers from text the way a JavaScript host does: `parseInt` of base 16, which stops
at the first character it does not know, and `BigInt`, which refuses one.

Both read back the lower-case hex text of a byte string (`parseIntHex_hexByte`,
`bigInt_hexChars`).
-/

namespace CoreTex.Lib

/-- White space and line ends of the host's number grammar. -/
def isJsSpace (c : Char) : Bool :=
  [9, 10, 11, 12, 13, 32, 160, 0x1680, 0x2000, 0x2001, 0x2002, 0x2003, 0x2004, 0x2005, 0x2006,
    0x2007, 0x2008, 0x2009, 0x200a, 0x2028, 0x2029, 0x202f, 0x205f, 0x3000, 0xfeff].contains c.toNat

/-- The number that digits spell in a base of at most 16, or none at a foreign character. -/
def readDigits (base acc : Nat) : List Char → Option Nat
  | [] => some acc
  | c :: cs =>
    match hexValue c.toNat with
    | some v => if v < base then readDigits base (acc * base + v) cs else none
    | none => none

/-- A sign and what follows it. -/
def splitSign : List Char → Int × List Char
  | '-' :: cs => (-1, cs)
  | '+' :: cs => (1, cs)
  | cs => (1, cs)

/-- `parseInt(s, 16)`, none where it is `NaN`. -/
def parseIntHex (cs : List Char) : Option Int :=
  let (sign, body) := splitSign (cs.dropWhile isJsSpace)
  let body :=
    match body with
    | '0' :: 'x' :: rest => rest
    | '0' :: 'X' :: rest => rest
    | _ => body
  let digits := body.takeWhile fun c => (hexValue c.toNat).isSome
  if digits = [] then none else (readDigits 16 0 digits).map fun n => sign * (n : Int)

/-- Digits that must all be read, one at least. -/
def readAllDigits (base : Nat) (cs : List Char) : Option Int :=
  if cs = [] then none else (readDigits base 0 cs).map Int.ofNat

/-- `BigInt(s)`, none where it throws. -/
def bigInt (s : String) : Option Int :=
  let cs := ((s.toList.dropWhile isJsSpace).reverse.dropWhile isJsSpace).reverse
  match cs with
  | [] => some 0
  | '0' :: 'x' :: rest => readAllDigits 16 rest
  | '0' :: 'X' :: rest => readAllDigits 16 rest
  | '0' :: 'o' :: rest => readAllDigits 8 rest
  | '0' :: 'O' :: rest => readAllDigits 8 rest
  | '0' :: 'b' :: rest => readAllDigits 2 rest
  | '0' :: 'B' :: rest => readAllDigits 2 rest
  | _ =>
    let (sign, body) := splitSign cs
    (readAllDigits 10 body).map fun n => sign * n

/-! ### Hex text is read back -/

theorem isJsSpace_hexDigit {n : Nat} (h : n < 16) : isJsSpace (hexDigit n) = false := by
  have hall : ∀ d : Fin 16, isJsSpace (hexDigit d) = false := by decide
  exact hall ⟨n, h⟩

/-- Reading the digits of a byte string goes on from what was read before. -/
theorem readDigits_hexChars (bytes : Bytes) (acc : Nat) :
    readDigits 16 acc (hexChars bytes) = some (acc * 256 ^ bytes.length + readBE bytes) := by
  induction bytes generalizing acc with
  | nil => simp [hexChars, readDigits, readBE]
  | cons b bytes ih =>
      have hb : b.toNat < 256 := b.toNat_lt
      have hhi : b.toNat / 16 < 16 := by omega
      have hlo : b.toNat % 16 < 16 := by omega
      have hbyte : (acc * 16 + b.toNat / 16) * 16 + b.toNat % 16 = acc * 256 + b.toNat := by omega
      have hcons : hexChars (b :: bytes) =
          hexDigit (b.toNat / 16) :: hexDigit (b.toNat % 16) :: hexChars bytes := rfl
      rw [hcons, readDigits, hexValue_hexDigit hhi]
      dsimp only
      rw [if_pos hhi, readDigits, hexValue_hexDigit hlo]
      dsimp only
      rw [if_pos hlo, hbyte, ih, readBE_cons, List.length_cons, Nat.pow_succ]
      congr 1
      ring

/-- Two digits of one byte, as `parseInt` reads them. -/
theorem parseIntHex_hexByte (b : UInt8) : parseIntHex (hexByte b) = some (b.toNat : Int) := by
  have hall : ∀ hi lo : Fin 16,
      parseIntHex [hexDigit hi, hexDigit lo] = some ((hi.val * 16 + lo.val : Nat) : Int) := by
    decide +kernel
  have hb : b.toNat < 256 := b.toNat_lt
  have h := hall ⟨b.toNat / 16, by omega⟩ ⟨b.toNat % 16, by omega⟩
  have hbyte : b.toNat / 16 * 16 + b.toNat % 16 = b.toNat := by omega
  rw [hexByte, h, hbyte]

/-- `BigInt` of `0x` and the hex text of bytes is the number the bytes spell. -/
theorem bigInt_hexChars {bytes : Bytes} (h : bytes ≠ []) :
    bigInt ("0x" ++ String.ofList (hexChars bytes)) = some (readBE bytes : Int) := by
  obtain ⟨init, last, rfl⟩ : ∃ init last, bytes = init ++ [last] :=
    ⟨bytes.dropLast, bytes.getLast h, (List.dropLast_append_getLast h).symm⟩
  have hlo : last.toNat % 16 < 16 := by omega
  have hchars : hexChars (init ++ [last]) =
      hexChars init ++ [hexDigit (last.toNat / 16), hexDigit (last.toNat % 16)] := by
    simp [hexChars, hexByte]
  -- no space at either end
  have htrim : ((("0x" ++ String.ofList (hexChars (init ++ [last]))).toList.dropWhile
      isJsSpace).reverse.dropWhile isJsSpace).reverse = '0' :: 'x' :: hexChars (init ++ [last]) := by
    have hstart : ("0x" ++ String.ofList (hexChars (init ++ [last]))).toList =
        '0' :: 'x' :: hexChars (init ++ [last]) := by
      simp only [String.toList_append, String.toList_ofList]
      rfl
    have hzero : isJsSpace '0' = false := by decide
    rw [hstart, List.dropWhile_cons_of_neg (by simp [hzero]), hchars]
    simp only [List.reverse_cons, List.reverse_append, List.reverse_nil, List.nil_append,
      List.cons_append]
    rw [List.dropWhile_cons_of_neg (by simp [isJsSpace_hexDigit hlo])]
    simp
  have hne : hexChars (init ++ [last]) ≠ [] := by
    rw [hchars]
    simp
  unfold bigInt
  rw [htrim]
  show readAllDigits 16 (hexChars (init ++ [last])) = some _
  rw [readAllDigits, if_neg hne, readDigits_hexChars]
  simp

end CoreTex.Lib
