import CoreTex.Lib.Except
import CoreTex.Lib.Json

/-!
# CoreTex.Lib.JsonParse

Reading UTF-8 text and JSON as the host language's standard library does.

`loads` is a recursive-descent scanner over code points. Every object is handed to a hook
that turns its pairs, in document order and with any repeated keys, into a value or
refuses. The scanner's fuel bounds the nesting and the number of members; the length of
the text is enough of it, since every call consumes a character.
-/

namespace CoreTex.Lib

/-! ### UTF-8 -/

/-- Is `n` a code point with no shorter encoding than the one that spelled it? -/
def scalarFrom (least n : Nat) : Bool :=
  decide (least ≤ n ∧ n ≤ 0x10ffff ∧ ¬ (0xd800 ≤ n ∧ n ≤ 0xdfff))

/-- Strict decoding: `pending` continuation bytes are still due for a code point whose
bits so far are `acc` and whose encoding is legal from `least` on. -/
def decodeUtf8From : Nat → Nat → Nat → Bytes → Option PyStr
  | 0, _, _, [] => some []
  | _ + 1, _, _, [] => none
  | pending + 1, acc, least, b :: rest =>
      if b.toNat / 64 ≠ 2 then none
      else
        let acc' := acc * 64 + b.toNat % 64
        if pending ≠ 0 then decodeUtf8From pending acc' least rest
        else if scalarFrom least acc' then (decodeUtf8From 0 0 0 rest).map (acc' :: ·)
        else none
  | 0, _, _, b :: rest =>
      if b.toNat < 128 then (decodeUtf8From 0 0 0 rest).map (b.toNat :: ·)
      else if b.toNat / 32 = 6 then decodeUtf8From 1 (b.toNat % 32) 0x80 rest
      else if b.toNat / 16 = 14 then decodeUtf8From 2 (b.toNat % 16) 0x800 rest
      else if b.toNat / 8 = 30 then decodeUtf8From 3 (b.toNat % 8) 0x10000 rest
      else none

/-- `bytes.decode("utf-8")`. -/
def decodeUtf8 (bytes : Bytes) : Option PyStr :=
  decodeUtf8From 0 0 0 bytes

/-! ### Scanning tokens -/

/-- Skip insignificant whitespace. -/
def skipSpace (s : PyStr) : PyStr :=
  s.dropWhile fun c => c = 32 ∨ c = 9 ∨ c = 10 ∨ c = 13

/-- The rest of a text after a fixed word. -/
def afterWord (word s : PyStr) : Option PyStr :=
  if word.isPrefixOf s then some (s.drop word.length) else none

/-- The value of a hex digit of either case. -/
def hexValue (c : Nat) : Option Nat :=
  if 48 ≤ c ∧ c ≤ 57 then some (c - 48)
  else if 97 ≤ c ∧ c ≤ 102 then some (c - 87)
  else if 65 ≤ c ∧ c ≤ 70 then some (c - 55)
  else none

theorem hexValue_hexDigit {n : Nat} (h : n < 16) : hexValue (hexDigit n).toNat = some n := by
  have hall : ∀ d : Fin 16, hexValue (hexDigit d).toNat = some d.val := by decide
  exact hall ⟨n, h⟩

/-- The four hex digits of a `\u` escape. -/
def scanHex4 : PyStr → Option (Nat × PyStr)
  | a :: b :: c :: d :: rest => do
      let a ← hexValue a
      let b ← hexValue b
      let c ← hexValue c
      let d ← hexValue d
      some (((a * 16 + b) * 16 + c) * 16 + d, rest)
  | _ => none

/-- The character a one-letter escape stands for. -/
def shortEscape (c : Nat) : Option Nat :=
  if c = 34 ∨ c = 92 ∨ c = 47 then some c
  else if c = 98 then some 8
  else if c = 102 then some 12
  else if c = 110 then some 10
  else if c = 114 then some 13
  else if c = 116 then some 9
  else none

/-- An escape after its backslash. A high surrogate joins with the low surrogate of the
escape that follows it, and stands alone before anything else. -/
def scanEscape : PyStr → Option (Nat × PyStr)
  | [] => none
  | c :: rest =>
      if c ≠ 117 then (shortEscape c).map (·, rest)
      else do
        let (high, rest) ← scanHex4 rest
        match rest with
        | 92 :: 117 :: more =>
            if 0xd800 ≤ high ∧ high ≤ 0xdbff then do
              let (low, after) ← scanHex4 more
              if 0xdc00 ≤ low ∧ low ≤ 0xdfff then
                some (0x10000 + (high - 0xd800) * 1024 + (low - 0xdc00), after)
              else some (high, rest)
            else some (high, rest)
        | _ => some (high, rest)

/-- A string after its opening quote. Control characters must be escaped. -/
def scanString : Nat → PyStr → Option (PyStr × PyStr)
  | 0, _ => none
  | _ + 1, [] => none
  | fuel + 1, c :: rest =>
      if c = 34 then some ([], rest)
      else if c < 32 then none
      else do
        let (c, rest) ← if c = 92 then scanEscape rest else some (c, rest)
        let (tail, rest) ← scanString fuel rest
        some (c :: tail, rest)

/-- Is `c` an ASCII digit? -/
def isDigit (c : Nat) : Bool :=
  decide (48 ≤ c ∧ c ≤ 57)

/-- The number a string of digits spells. -/
def digitsValue (s : PyStr) : Nat :=
  s.foldl (fun acc c => acc * 10 + (c - 48)) 0

/-- The digits of an integer part: a single zero, or digits that do not start with one. -/
def scanIntegerPart (s : PyStr) : Option (PyStr × PyStr) :=
  match s with
  | 48 :: rest => some ([48], rest)
  | _ =>
      let digits := s.takeWhile isDigit
      if digits.isEmpty then none else some (digits, s.drop digits.length)

/-- The text after a fraction, or the text itself when it starts with none. -/
def skipFraction (s : PyStr) : PyStr :=
  match s with
  | 46 :: rest => if (rest.takeWhile isDigit).isEmpty then s else rest.dropWhile isDigit
  | _ => s

/-- The text after an exponent, or the text itself when it starts with none. -/
def skipExponent (s : PyStr) : PyStr :=
  match s with
  | e :: rest =>
      if e ≠ 101 ∧ e ≠ 69 then s
      else
        let digits := match rest with
          | sign :: more => if sign = 43 ∨ sign = 45 then more else rest
          | [] => rest
        if (digits.takeWhile isDigit).isEmpty then s else digits.dropWhile isDigit
  | [] => s

/-- A number: an integer, or a float when it has a fraction or an exponent. -/
def scanNumber (s : PyStr) : Option (Json × PyStr) := do
  let unsigned := (afterWord (py "-") s).getD s
  let (digits, rest) ← scanIntegerPart unsigned
  let after := skipExponent (skipFraction rest)
  if after.length < rest.length then some (.float (s.take (s.length - after.length)), after)
  else if unsigned.length < s.length then some (.int (-(digitsValue digits : Int)), rest)
  else some (.int (digitsValue digits), rest)

/-- A fixed word and the value it spells. -/
def constantWords : List (PyStr × Json) :=
  [(py "null", .null), (py "true", .bool true), (py "false", .bool false),
    (py "NaN", .float (py "NaN")), (py "Infinity", .float (py "Infinity")),
    (py "-Infinity", .float (py "-Infinity"))]

/-- A value that is neither a string nor a container. -/
def scanAtom (s : PyStr) : Option (Json × PyStr) :=
  (scanNumber s).or (constantWords.findSome? fun w => (afterWord w.1 s).map (w.2, ·))

/-! ### Scanning documents -/

section Scan

variable {ε : Type} (hook : List (PyStr × Json) → Except ε Json) (invalid : ε)

/-- A token that is there, or a syntax error. -/
def expect {ε α : Type} (invalid : ε) : Option α → Except ε α
  | some a => .ok a
  | none => .error invalid

mutual

/-- A value. -/
def scanValue : Nat → PyStr → Except ε (Json × PyStr)
  | 0, _ => .error invalid
  | fuel + 1, s =>
      match s with
      | 34 :: rest => do
          let (text, rest) ← expect invalid (scanString (rest.length + 1) rest)
          .ok (.str text, rest)
      | 123 :: rest =>
          match skipSpace rest with
          | 125 :: rest => do .ok (← hook [], rest)
          | rest => do
              let (pairs, rest) ← scanMembers fuel rest
              .ok (← hook pairs, rest)
      | 91 :: rest =>
          match skipSpace rest with
          | 93 :: rest => .ok (.arr [], rest)
          | rest => do
              let (items, rest) ← scanItems fuel rest
              .ok (.arr items, rest)
      | _ => expect invalid (scanAtom s)

/-- The members of an object from its first key on, and its closing brace. -/
def scanMembers : Nat → PyStr → Except ε (List (PyStr × Json) × PyStr)
  | 0, _ => .error invalid
  | fuel + 1, s => do
      let rest ← expect invalid (afterWord [34] s)
      let (key, rest) ← expect invalid (scanString (rest.length + 1) rest)
      let rest ← expect invalid (afterWord [58] (skipSpace rest))
      let (value, rest) ← scanValue fuel (skipSpace rest)
      match skipSpace rest with
      | 125 :: rest => .ok ([(key, value)], rest)
      | 44 :: rest => do
          let (pairs, rest) ← scanMembers fuel (skipSpace rest)
          .ok ((key, value) :: pairs, rest)
      | _ => .error invalid

/-- The items of an array from its first one on, and its closing bracket. -/
def scanItems : Nat → PyStr → Except ε (List Json × PyStr)
  | 0, _ => .error invalid
  | fuel + 1, s => do
      let (item, rest) ← scanValue fuel s
      match skipSpace rest with
      | 93 :: rest => .ok ([item], rest)
      | 44 :: rest => do
          let (items, rest) ← scanItems fuel (skipSpace rest)
          .ok (item :: items, rest)
      | _ => .error invalid

end

/-- `json.loads(text, object_pairs_hook=hook)`: one document, with nothing but whitespace
around it and no byte order mark. -/
def loads (text : PyStr) : Except ε Json := do
  refuseIf (text.head? = some 0xfeff) invalid
  let (document, rest) ← scanValue hook invalid (text.length + 1) (skipSpace text)
  refuseIf (skipSpace rest ≠ []) invalid
  .ok document

end Scan

end CoreTex.Lib
