import CoreTex.Lib.JsonParse
import Mathlib.Tactic.Tauto

/-!
# CoreTex.Lib.JsonRoundTrip

What the scanner reads back from serialized documents.

Every token lemma has the text that follows as a parameter, so that they compose along the
document; `Stops` says that this text cannot lengthen a number. `scanValue_ser` is the round
trip of one value, with the members and the items of a container beside it.
-/

namespace CoreTex.Lib

/-- Bytes of ASCII text as the characters they stand for. -/
def points (bytes : Bytes) : PyStr :=
  bytes.map UInt8.toNat

@[simp] theorem points_append (a b : Bytes) : points (a ++ b) = points a ++ points b :=
  List.map_append

@[simp] theorem points_cons (b : UInt8) (bytes : Bytes) :
    points (b :: bytes) = b.toNat :: points bytes := rfl

@[simp] theorem points_nil : points [] = [] := rfl

@[simp] theorem length_points (bytes : Bytes) : (points bytes).length = bytes.length :=
  List.length_map _

theorem decodeUtf8_ascii {bytes : Bytes} (h : ∀ b ∈ bytes, b.toNat < 128) :
    decodeUtf8 bytes = some (points bytes) := by
  rw [decodeUtf8]
  induction bytes with
  | nil => rfl
  | cons b bytes ih =>
      rw [decodeUtf8From, if_pos (h b List.mem_cons_self),
        ih fun b' hb' => h b' (List.mem_cons_of_mem _ hb')]
      rfl

/-- A text that begins with no whitespace. -/
theorem skipSpace_cons {c : Nat} {s : PyStr} (h : 32 < c) : skipSpace (c :: s) = c :: s := by
  rw [skipSpace, List.dropWhile_cons_of_neg]
  simp
  omega

/-! ### Strings -/

/-- A Unicode scalar value. -/
def IsScalar (c : Nat) : Prop :=
  c < 0xd800 ∨ 0xdfff < c ∧ c ≤ 0x10ffff

instance : DecidablePred IsScalar := fun c =>
  inferInstanceAs (Decidable (c < 0xd800 ∨ 0xdfff < c ∧ c ≤ 0x10ffff))

/-- A string without surrogates. -/
def Scalar (s : PyStr) : Prop :=
  ∀ c ∈ s, IsScalar c

instance : DecidablePred Scalar := fun s =>
  inferInstanceAs (Decidable (∀ c ∈ s, IsScalar c))

theorem toNat_hexDigit_lt (n : Nat) : (hexDigit (n % 16)).toNat < 128 := by
  have hall : ∀ d : Fin 16, (hexDigit d).toNat < 128 := by decide
  exact hall ⟨n % 16, Nat.mod_lt _ (by decide)⟩

theorem points_escapeUnit (n : Nat) :
    points (escapeUnit n) = 92 :: 117 :: [n / 4096 % 16, n / 256 % 16, n / 16 % 16, n % 16].map
      fun d => (hexDigit d).toNat := by
  have hdigit : ∀ m, (UInt8.ofNat (hexDigit (m % 16)).toNat).toNat = (hexDigit (m % 16)).toNat := by
    intro m
    have := toNat_hexDigit_lt m
    rw [UInt8.toNat_ofNat', Nat.mod_eq_of_lt (by omega)]
  simp [escapeUnit, points, hdigit]

theorem scanHex4_digits {n : Nat} (h : n < 65536) (rest : PyStr) :
    scanHex4 ([n / 4096 % 16, n / 256 % 16, n / 16 % 16, n % 16].map
      (fun d => (hexDigit d).toNat) ++ rest) = some (n, rest) := by
  have hvalue : ∀ m, hexValue (hexDigit (m % 16)).toNat = some (m % 16) := fun m =>
    hexValue_hexDigit (Nat.mod_lt _ (by decide))
  have hsum : ((n / 4096 % 16 * 16 + n / 256 % 16) * 16 + n / 16 % 16) * 16 + n % 16 = n := by
    omega
  simp [scanHex4, hvalue, hsum]

/-- A `\u` escape that is no high surrogate stands for itself, whatever follows. -/
theorem scanEscape_unit {n : Nat} (h : n < 65536) (hhigh : ¬ (0xd800 ≤ n ∧ n ≤ 0xdbff))
    (rest : PyStr) :
    scanEscape (117 :: ([n / 4096 % 16, n / 256 % 16, n / 16 % 16, n % 16].map
      (fun d => (hexDigit d).toNat) ++ rest)) = some (n, rest) := by
  rw [scanEscape, if_neg (by decide)]
  rw [scanHex4_digits h]
  simp only [Option.bind_eq_bind, Option.bind_some]
  split
  · rw [if_neg hhigh]
  · rfl

/-- Two `\u` escapes that are a surrogate pair stand for one code point. -/
theorem scanEscape_pair {high low : Nat} (hhigh : high < 1024) (hlow : low < 1024)
    (rest : PyStr) :
    scanEscape ((points (escapeUnit (55296 + high))).tail ++
      (points (escapeUnit (56320 + low)) ++ rest)) =
        some (0x10000 + high * 1024 + low, rest) := by
  have hfirst : 0xd800 ≤ 55296 + high ∧ 55296 + high ≤ 0xdbff := by omega
  have hsecond : 0xdc00 ≤ 56320 + low ∧ 56320 + low ≤ 0xdfff := by omega
  rw [points_escapeUnit, points_escapeUnit, List.tail_cons, List.cons_append, scanEscape,
    if_neg (by decide), scanHex4_digits (by omega)]
  simp only [Option.bind_eq_bind, Option.bind_some, List.cons_append]
  rw [if_pos hfirst, scanHex4_digits (by omega)]
  have hvalue : 0x10000 + (55296 + high - 0xd800) * 1024 + (56320 + low - 0xdc00) =
      0x10000 + high * 1024 + low := by
    omega
  simp only [Option.bind_some]
  rw [if_pos hsecond, hvalue]

/-- The scanner reads one escaped code point back. -/
theorem scanString_escapeCodePoint {c : Nat} (h : IsScalar c) (fuel : Nat) (rest : PyStr) :
    scanString (fuel + 1) (points (escapeCodePoint c) ++ rest) =
      (scanString fuel rest).bind fun r => some (c :: r.1, r.2) := by
  have hshort : ∀ e : Nat, e < 128 → e ≠ 117 → shortEscape e = some c →
      scanString (fuel + 1) (points [92, UInt8.ofNat e] ++ rest) =
        (scanString fuel rest).bind fun r => some (c :: r.1, r.2) := by
    intro e he hne hc
    have hbyte : (UInt8.ofNat e).toNat = e := by
      rw [UInt8.toNat_ofNat', Nat.mod_eq_of_lt (by omega)]
    have hpoints : points [92, UInt8.ofNat e] = [92, e] := by
      simp [hbyte]
    rw [hpoints, List.cons_append, scanString]
    simp [scanEscape, hne, hc]
  rw [escapeCodePoint]
  split
  · exact hshort 34 (by decide) (by decide) (by subst_vars; rfl)
  split
  · exact hshort 92 (by decide) (by decide) (by subst_vars; rfl)
  split
  · exact hshort 110 (by decide) (by decide) (by subst_vars; rfl)
  split
  · exact hshort 114 (by decide) (by decide) (by subst_vars; rfl)
  split
  · exact hshort 116 (by decide) (by decide) (by subst_vars; rfl)
  split
  · exact hshort 98 (by decide) (by decide) (by subst_vars; rfl)
  split
  · exact hshort 102 (by decide) (by decide) (by subst_vars; rfl)
  split
  next hquote hback _ _ _ _ _ hplain =>
    have hbyte : (UInt8.ofNat c).toNat = c := by
      rw [UInt8.toNat_ofNat', Nat.mod_eq_of_lt (by omega)]
    have hcontrol : ¬ c < 32 := by omega
    rw [points_cons, points_nil, hbyte, List.singleton_append, scanString]
    simp [hquote, hback, hcontrol]
  split
  next hsmall =>
    have hhigh : ¬ (0xd800 ≤ c ∧ c ≤ 0xdbff) := by
      rcases h with h | h <;> omega
    rw [points_escapeUnit, List.cons_append, scanString, if_neg (by decide), if_neg (by decide),
      if_pos rfl, List.cons_append, scanEscape_unit hsmall hhigh]
    rfl
  next hlarge =>
    have hle : c ≤ 0x10ffff := by
      rcases h with h | h <;> omega
    have hhead : points (escapeUnit (55296 + (c - 65536) / 1024 % 1024)) =
        92 :: (points (escapeUnit (55296 + (c - 65536) / 1024 % 1024))).tail := by
      rw [points_escapeUnit, List.tail_cons]
    have hsum : 0x10000 + (c - 65536) / 1024 % 1024 * 1024 + (c - 65536) % 1024 = c := by
      omega
    rw [points_append, hhead, List.append_assoc, List.cons_append, scanString,
      if_neg (by decide), if_neg (by decide), if_pos rfl,
      scanEscape_pair (Nat.mod_lt _ (by decide)) (Nat.mod_lt _ (by decide)), hsum]
    rfl

/-- The scanner reads a string literal back, after its opening quote. -/
theorem scanString_escaped {s : PyStr} (h : Scalar s) {fuel : Nat} (hfuel : s.length < fuel)
    (rest : PyStr) :
    scanString fuel (points (s.flatMap escapeCodePoint) ++ 34 :: rest) = some (s, rest) := by
  induction s generalizing fuel with
  | nil =>
      obtain ⟨fuel, rfl⟩ : ∃ n, fuel = n + 1 := ⟨fuel - 1, by simp at hfuel; omega⟩
      simp [scanString]
  | cons c s ih =>
      obtain ⟨fuel, rfl⟩ : ∃ n, fuel = n + 1 := ⟨fuel - 1, by simp at hfuel; omega⟩
      rw [List.length_cons] at hfuel
      rw [List.flatMap_cons, points_append, List.append_assoc,
        scanString_escapeCodePoint (h c List.mem_cons_self),
        ih (fun c' hc' => h c' (List.mem_cons_of_mem _ hc')) (by omega)]
      rfl

theorem length_escapeCodePoint_pos (c : Nat) : 0 < (escapeCodePoint c).length := by
  rw [escapeCodePoint]
  repeat' split
  all_goals simp [escapeUnit]

theorem length_le_flatMap_escape (s : PyStr) : s.length ≤ (s.flatMap escapeCodePoint).length := by
  induction s with
  | nil => simp
  | cons c s ih =>
      have := length_escapeCodePoint_pos c
      rw [List.flatMap_cons, List.length_append, List.length_cons]
      omega

/-- The scanner reads a string literal back with the fuel that every caller gives it. -/
theorem scanString_ser {s : PyStr} (h : Scalar s) (rest : PyStr) :
    scanString ((points (s.flatMap escapeCodePoint) ++ 34 :: rest).length + 1)
      (points (s.flatMap escapeCodePoint) ++ 34 :: rest) = some (s, rest) := by
  refine scanString_escaped h ?_ rest
  have := length_le_flatMap_escape s
  rw [List.length_append, length_points]
  omega

theorem points_serString (s : PyStr) (rest : PyStr) :
    points (serString s) ++ rest = 34 :: (points (s.flatMap escapeCodePoint) ++ 34 :: rest) := by
  simp [serString]

/-! ### Numbers -/

/-- What may follow a value: nothing, a comma or a closing bracket. -/
def Stops (rest : PyStr) : Prop :=
  ∀ c ∈ rest.head?, c = 44 ∨ c = 93 ∨ c = 125

theorem head_toDigits {n : Nat} (h : 0 < n) :
    ∃ c cs, Nat.toDigits 10 n = c :: cs ∧ c ≠ '0' := by
  induction n using Nat.strongRecOn with
  | ind n ih =>
      by_cases hsmall : n < 10
      · have hall : ∀ d : Fin 10, 0 < d.val → Nat.digitChar d ≠ '0' := by decide
        exact ⟨_, _, Nat.toDigits_of_lt_base hsmall, hall ⟨n, hsmall⟩ h⟩
      · obtain ⟨c, cs, heq, hc⟩ := ih (n / 10) (by omega) (by omega)
        exact ⟨c, _, by rw [Nat.toDigits_of_base_le (by decide) (by omega), heq]; rfl, hc⟩

theorem Stops.takeWhile {rest : PyStr} (h : Stops rest) : rest.takeWhile isDigit = [] := by
  cases rest with
  | nil => rfl
  | cons c rest =>
      rw [List.takeWhile_cons_of_neg]
      have := h c (by simp)
      rw [isDigit, decide_eq_true_eq]
      omega

theorem Stops.skipFraction {rest : PyStr} (h : Stops rest) : skipFraction rest = rest := by
  unfold CoreTex.Lib.skipFraction
  split
  · have := h 46 (by simp)
    omega
  · rfl

theorem Stops.skipExponent {rest : PyStr} (h : Stops rest) : skipExponent rest = rest := by
  cases rest with
  | nil => rfl
  | cons c rest =>
      have := h c (by simp)
      unfold CoreTex.Lib.skipExponent
      dsimp only
      rw [if_pos (by omega)]

/-- The characters of a number. -/
theorem points_ser_natCast (n : Nat) :
    points (Json.int n).ser = (Nat.toDigits 10 n).map Char.toNat := by
  rw [ser_natCast, points, List.map_map]
  refine List.map_congr_left fun c hc => ?_
  have := toNat_of_mem_toDigits hc
  show (UInt8.ofNat c.toNat).toNat = c.toNat
  rw [UInt8.toNat_ofNat', Nat.mod_eq_of_lt (by omega)]

theorem isDigit_of_mem_digits {n c : Nat} (h : c ∈ (Nat.toDigits 10 n).map Char.toNat) :
    isDigit c = true := by
  obtain ⟨d, hd, rfl⟩ := List.mem_map.mp h
  exact decide_eq_true (toNat_of_mem_toDigits hd)

theorem digitsValue_digits (n : Nat) :
    digitsValue ((Nat.toDigits 10 n).map Char.toNat) = n := by
  have hfold : ∀ (cs : List Char) (acc : Nat),
      (cs.map Char.toNat).foldl (fun acc c => acc * 10 + (c - 48)) acc =
        Nat.ofDigitChars 10 cs acc := by
    intro cs
    induction cs with
    | nil => exact fun _ => rfl
    | cons c cs ih =>
        intro acc
        rw [List.map_cons, List.foldl_cons, ih, Nat.ofDigitChars_cons, Nat.mul_comm acc]
        rfl
  rw [digitsValue, hfold, Nat.ofDigitChars_ten_toDigits]

/-- The scanner reads the digits of a number, and nothing of what stops it. -/
theorem scanIntegerPart_digits (n : Nat) {rest : PyStr} (h : Stops rest) :
    scanIntegerPart ((Nat.toDigits 10 n).map Char.toNat ++ rest) =
      some ((Nat.toDigits 10 n).map Char.toNat, rest) := by
  rcases Nat.eq_zero_or_pos n with rfl | hpos
  · rfl
  obtain ⟨c, cs, hdigits, hzero⟩ := head_toDigits hpos
  have htake : ((Nat.toDigits 10 n).map Char.toNat ++ rest).takeWhile isDigit =
      (Nat.toDigits 10 n).map Char.toNat := by
    rw [List.takeWhile_append_of_pos fun c hc => isDigit_of_mem_digits hc, h.takeWhile,
      List.append_nil]
  have hne : (Nat.toDigits 10 n).map Char.toNat ≠ [] := by
    rw [hdigits]
    simp
  unfold scanIntegerPart
  split
  next heq =>
    rw [hdigits, List.map_cons, List.cons_append, List.cons.injEq] at heq
    exact absurd (Char.toNat_inj.mp (heq.1.trans (by decide : 48 = '0'.toNat))) hzero
  next =>
    dsimp only
    rw [htake, List.drop_left, List.isEmpty_eq_false_iff.mpr hne]
    rfl

theorem ser_negSucc (m : Nat) :
    (Json.int (Int.negSucc m)).ser = 45 :: (Json.int (m + 1 : Nat)).ser := by
  rw [Json.ser, Json.ser, ascii, ascii]
  show (("-" ++ Nat.repr (m + 1)).toList).map _ = 45 :: (Nat.repr (m + 1)).toList.map _
  rw [String.toList_append]
  rfl

/-- The scanner reads a number back. -/
theorem scanNumber_ser (n : Int) {rest : PyStr} (h : Stops rest) :
    scanNumber (points (Json.int n).ser ++ rest) = some (.int n, rest) := by
  have hword : py "-" = [45] := by decide
  have hafter : skipExponent (skipFraction rest) = rest := by
    rw [h.skipFraction, h.skipExponent]
  cases n with
  | ofNat m =>
      have hminus : afterWord (py "-") (points (Json.int m).ser ++ rest) = none := by
        obtain ⟨c, cs, hdigits⟩ := List.exists_cons_of_ne_nil (Nat.toDigits_ne_nil (n := m) (b := 10))
        have hc := toNat_of_mem_toDigits (hdigits ▸ List.mem_cons_self : c ∈ Nat.toDigits 10 m)
        rw [points_ser_natCast, hdigits, hword, List.map_cons, List.cons_append, afterWord, if_neg]
        simp [List.isPrefixOf]
        omega
      rw [Int.ofNat_eq_natCast, scanNumber, hminus, Option.getD_none, points_ser_natCast,
        scanIntegerPart_digits m h]
      simp only [Option.bind_eq_bind, Option.bind_some, hafter, digitsValue_digits]
      rw [if_neg (by omega), if_neg (by omega)]
  | negSucc m =>
      have hminus : afterWord (py "-") (points (Json.int (Int.negSucc m)).ser ++ rest) =
          some (points (Json.int (m + 1 : Nat)).ser ++ rest) := by
        rw [ser_negSucc, hword]
        rfl
      rw [scanNumber, hminus, Option.getD_some, ser_negSucc, points_cons, points_ser_natCast,
        scanIntegerPart_digits (m + 1) h]
      simp only [Option.bind_eq_bind, Option.bind_some, hafter, digitsValue_digits]
      rw [if_neg (by omega), if_pos (by simp)]
      rfl

/-- A number is read back. -/
theorem scanAtom_int (n : Int) {rest : PyStr} (h : Stops rest) :
    scanAtom (points (Json.int n).ser ++ rest) = some (.int n, rest) := by
  rw [scanAtom, scanNumber_ser n h, Option.some_or]

/-! ### Documents -/

mutual

/-- A document without floats and surrogates, whose objects have distinct keys. -/
def Json.Plain : Json → Prop
  | .float _ => False
  | .str s => Scalar s
  | .arr items => PlainItems items
  | .obj pairs => (pairs.map Prod.fst).Nodup ∧ PlainPairs pairs
  | _ => True

def PlainItems : List Json → Prop
  | [] => True
  | x :: xs => x.Plain ∧ PlainItems xs

def PlainPairs : List (PyStr × Json) → Prop
  | [] => True
  | (k, x) :: xs => Scalar k ∧ x.Plain ∧ PlainPairs xs

end

theorem stops_comma (rest : PyStr) : Stops (44 :: rest) := fun c hc => by
  simp at hc
  omega

theorem stops_bracket (rest : PyStr) : Stops (93 :: rest) := fun c hc => by
  simp at hc
  omega

theorem stops_brace (rest : PyStr) : Stops (125 :: rest) := fun c hc => by
  simp at hc
  omega

/-- A number begins with a sign or a digit. -/
theorem head_ser_int (n : Int) : ∃ b bytes, (Json.int n).ser = b :: bytes ∧
    (b.toNat = 45 ∨ 48 ≤ b.toNat ∧ b.toNat ≤ 57) := by
  cases n with
  | ofNat m =>
      obtain ⟨c, cs, hdigits⟩ :=
        List.exists_cons_of_ne_nil (Nat.toDigits_ne_nil (n := m) (b := 10))
      have hc := toNat_of_mem_toDigits (hdigits ▸ List.mem_cons_self : c ∈ Nat.toDigits 10 m)
      have hbyte : (UInt8.ofNat c.toNat).toNat = c.toNat := by
        rw [UInt8.toNat_ofNat', Nat.mod_eq_of_lt (by omega)]
      have hser : (Json.int m).ser =
          UInt8.ofNat c.toNat :: cs.map fun c => UInt8.ofNat c.toNat := by
        rw [ser_natCast, hdigits, List.map_cons]
      exact ⟨_, _, hser, .inr (by rwa [hbyte])⟩
  | negSucc m => exact ⟨45, _, ser_negSucc m, .inl rfl⟩

/-- A serialized value begins with no whitespace and with no closing bracket. -/
theorem head_ser {d : Json} (h : d.Plain) :
    ∃ b bytes, d.ser = b :: bytes ∧ 32 < b.toNat ∧ b.toNat ≠ 93 ∧ b.toNat ≠ 125 := by
  cases d with
  | null => exact ⟨110, _, rfl, by decide⟩
  | bool b =>
      cases b
      · exact ⟨102, _, rfl, by decide⟩
      · exact ⟨116, _, rfl, by decide⟩
  | int n =>
      obtain ⟨b, bytes, hser, hb⟩ := head_ser_int n
      exact ⟨b, bytes, hser, by omega⟩
  | float literal => exact absurd h (by simp [Json.Plain])
  | str s => exact ⟨34, _, rfl, by decide⟩
  | arr items => exact ⟨91, _, rfl, by decide⟩
  | obj pairs => exact ⟨123, _, rfl, by decide⟩

theorem head_serItems {x : Json} {xs : List Json} (h : PlainItems (x :: xs)) :
    ∃ b bytes, serItems (x :: xs) = b :: bytes ∧ 32 < b.toNat ∧ b.toNat ≠ 93 := by
  rw [PlainItems] at h
  obtain ⟨b, bytes, hser, hspace, hbracket, -⟩ := head_ser h.1
  cases xs with
  | nil => exact ⟨b, bytes, by rw [serItems, hser], hspace, hbracket⟩
  | cons y ys => exact ⟨b, _, by rw [serItems, hser, List.cons_append]; rfl, hspace, hbracket⟩

theorem head_serPairs (k : PyStr) (x : Json) (pairs : List (PyStr × Json)) :
    ∃ bytes, serPairs ((k, x) :: pairs) = 34 :: bytes := by
  cases pairs with
  | nil => exact ⟨_, rfl⟩
  | cons e pairs => exact ⟨_, rfl⟩

theorem skipSpace_ser {d : Json} (h : d.Plain) (rest : PyStr) :
    skipSpace (points d.ser ++ rest) = points d.ser ++ rest := by
  obtain ⟨b, bytes, heq, hspace, -⟩ := head_ser h
  rw [heq, points_cons, List.cons_append, skipSpace_cons hspace]

section Documents

variable {ε : Type} (hook : List (PyStr × Json) → Except ε Json) (invalid : ε)

/-- A value that is no string and no container is an atom. -/
theorem scanValue_atom {c : Nat} {s : PyStr} (hquote : c ≠ 34) (hbrace : c ≠ 123)
    (hbracket : c ≠ 91) (fuel : Nat) :
    scanValue hook invalid (fuel + 1) (c :: s) = expect invalid (scanAtom (c :: s)) := by
  rw [scanValue]
  · intro rest heq
    cases heq
    exact hquote rfl
  · intro rest heq
    cases heq
    exact hbrace rfl
  · intro rest heq
    cases heq
    exact hbracket rfl

@[simp] theorem expect_some {α : Type} (a : α) : expect invalid (some a) = .ok a := rfl

/-- A member is read up to its colon. -/
theorem scanMembers_key (k after : PyStr) :
    afterWord [34] (points (serString k) ++ 58 :: after) =
        some (points (k.flatMap escapeCodePoint) ++ 34 :: 58 :: after) ∧
      afterWord [58] (skipSpace (58 :: after)) = some after := by
  rw [points_serString, skipSpace_cons (by decide)]
  exact ⟨rfl, rfl⟩

/-- The last member, and the closing brace. -/
theorem scanMembers_last {k : PyStr} {x : Json} (hk : Scalar k) (hx : x.Plain) {fuel : Nat}
    {rest : PyStr}
    (hvalue : scanValue hook invalid fuel (points x.ser ++ 125 :: rest) = .ok (x, 125 :: rest)) :
    scanMembers hook invalid (fuel + 1)
      (points (serString k) ++ 58 :: (points x.ser ++ 125 :: rest)) = .ok ([(k, x)], rest) := by
  obtain ⟨hquote, hcolon⟩ := scanMembers_key k (points x.ser ++ 125 :: rest)
  have hbrace : skipSpace (125 :: rest) = 125 :: rest := skipSpace_cons (by decide)
  rw [scanMembers]
  simp only [hquote, expect_some, ok_bind, scanString_ser hk, hcolon, skipSpace_ser hx, hvalue,
    hbrace]

/-- A member that others follow. -/
theorem scanMembers_more {k : PyStr} {x : Json} (hk : Scalar k) (hx : x.Plain) {fuel : Nat}
    {next rest : PyStr} {pairs : List (PyStr × Json)}
    (hvalue : scanValue hook invalid fuel (points x.ser ++ 44 :: next) = .ok (x, 44 :: next))
    (hnext : skipSpace next = next)
    (hpairs : scanMembers hook invalid fuel next = .ok (pairs, rest)) :
    scanMembers hook invalid (fuel + 1)
      (points (serString k) ++ 58 :: (points x.ser ++ 44 :: next)) =
        .ok ((k, x) :: pairs, rest) := by
  obtain ⟨hquote, hcolon⟩ := scanMembers_key k (points x.ser ++ 44 :: next)
  have hcomma : skipSpace (44 :: next) = 44 :: next := skipSpace_cons (by decide)
  rw [scanMembers]
  simp only [hquote, expect_some, ok_bind, scanString_ser hk, hcolon, skipSpace_ser hx, hvalue,
    hcomma, hnext, hpairs]

/-- What the scanner reads back with a given amount of fuel: a value, the items of an array with
the closing bracket, and the members of an object with the closing brace. -/
structure ReadsBack (fuel : Nat) : Prop where
  value : ∀ (d : Json) (rest : PyStr), d.Plain → d.ser.length < fuel → Stops rest →
    scanValue hook invalid fuel (points d.ser ++ rest) = .ok (d, rest)
  items : ∀ (x : Json) (xs : List Json) (rest : PyStr), PlainItems (x :: xs) →
    (serItems (x :: xs)).length + 1 < fuel →
      scanItems hook invalid fuel (points (serItems (x :: xs)) ++ 93 :: rest) =
        .ok (x :: xs, rest)
  members : ∀ (k : PyStr) (x : Json) (pairs : List (PyStr × Json)) (rest : PyStr),
    PlainPairs ((k, x) :: pairs) → (serPairs ((k, x) :: pairs)).length + 1 < fuel →
      scanMembers hook invalid fuel (points (serPairs ((k, x) :: pairs)) ++ 125 :: rest) =
        .ok ((k, x) :: pairs, rest)

variable {hook invalid}

theorem ReadsBack.value_succ {fuel : Nat} (ih : ReadsBack hook invalid fuel)
    (hhook : ∀ pairs : List (PyStr × Json), (pairs.map Prod.fst).Nodup →
      hook pairs = .ok (.obj pairs))
    {d : Json} {rest : PyStr} (h : d.Plain) (hfuel : d.ser.length < fuel + 1)
    (hrest : Stops rest) :
    scanValue hook invalid (fuel + 1) (points d.ser ++ rest) = .ok (d, rest) := by
  match d with
  | .null => rfl
  | .bool true => rfl
  | .bool false => rfl
  | .int n =>
      have hatom := scanAtom_int n hrest
      obtain ⟨b, bytes, hser, hb⟩ := head_ser_int n
      rw [hser, points_cons, List.cons_append] at hatom ⊢
      rw [scanValue_atom hook invalid (by omega) (by omega) (by omega), hatom]
      rfl
  | .float literal => exact absurd h (by simp [Json.Plain])
  | .str s =>
      rw [Json.Plain] at h
      rw [Json.ser, points_serString, scanValue, scanString_ser h]
      rfl
  | .arr [] => rfl
  | .arr (x :: xs) =>
      rw [Json.Plain] at h
      have hitems := ih.items x xs rest h (by simp [Json.ser] at hfuel; omega)
      obtain ⟨b, bytes, hser, hspace, hbracket⟩ := head_serItems h
      have htext : points (Json.arr (x :: xs)).ser ++ rest =
          91 :: (points (serItems (x :: xs)) ++ 93 :: rest) := by
        simp [Json.ser]
      rw [htext, scanValue]
      rw [hser, points_cons, List.cons_append] at hitems ⊢
      rw [skipSpace_cons hspace]
      split
      next heq =>
        rw [List.cons.injEq] at heq
        exact absurd heq.1 hbracket
      next =>
        rw [hitems]
        rfl
  | .obj [] =>
      have hempty := hhook [] List.nodup_nil
      rw [Json.ser, serPairs]
      simp [scanValue, skipSpace, hempty]
  | .obj ((k, x) :: pairs) =>
      rw [Json.Plain] at h
      have hmembers := ih.members k x pairs rest h.2 (by simp [Json.ser] at hfuel; omega)
      obtain ⟨bytes, hser⟩ := head_serPairs k x pairs
      have htext : points (Json.obj ((k, x) :: pairs)).ser ++ rest =
          123 :: (points (serPairs ((k, x) :: pairs)) ++ 125 :: rest) := by
        simp [Json.ser]
      rw [htext, scanValue]
      rw [hser, points_cons, List.cons_append] at hmembers ⊢
      rw [skipSpace_cons (by decide)]
      split
      next heq => cases heq
      next =>
        rw [hmembers]
        simp only [ok_bind]
        rw [hhook _ h.1]
        rfl

theorem ReadsBack.items_succ {fuel : Nat} (ih : ReadsBack hook invalid fuel) {x : Json}
    {xs : List Json} {rest : PyStr} (h : PlainItems (x :: xs))
    (hfuel : (serItems (x :: xs)).length + 1 < fuel + 1) :
    scanItems hook invalid (fuel + 1) (points (serItems (x :: xs)) ++ 93 :: rest) =
      .ok (x :: xs, rest) := by
  rw [PlainItems] at h
  cases xs with
  | nil =>
      rw [serItems] at hfuel ⊢
      rw [scanItems, ih.value x _ h.1 (by omega) (stops_bracket rest)]
      rfl
  | cons y ys =>
      rw [serItems, List.length_append, List.length_append, List.length_singleton] at hfuel
      have hitems := ih.items y ys rest h.2 (by omega)
      obtain ⟨b, bytes, hser, hspace, -⟩ := head_serItems h.2
      have htext : points (serItems (x :: y :: ys)) ++ 93 :: rest =
          points x.ser ++ 44 :: (points (serItems (y :: ys)) ++ 93 :: rest) := by
        simp [serItems]
      have hskip : skipSpace (points (serItems (y :: ys)) ++ 93 :: rest) =
          points (serItems (y :: ys)) ++ 93 :: rest := by
        rw [hser, points_cons, List.cons_append, skipSpace_cons hspace]
      have hcomma : skipSpace (44 :: (points (serItems (y :: ys)) ++ 93 :: rest)) =
          44 :: (points (serItems (y :: ys)) ++ 93 :: rest) := skipSpace_cons (by decide)
      rw [htext, scanItems, ih.value x _ h.1 (by omega) (stops_comma _)]
      simp only [ok_bind, hcomma, hskip, hitems]

theorem ReadsBack.members_succ {fuel : Nat} (ih : ReadsBack hook invalid fuel) {k : PyStr}
    {x : Json} {pairs : List (PyStr × Json)} {rest : PyStr} (h : PlainPairs ((k, x) :: pairs))
    (hfuel : (serPairs ((k, x) :: pairs)).length + 1 < fuel + 1) :
    scanMembers hook invalid (fuel + 1) (points (serPairs ((k, x) :: pairs)) ++ 125 :: rest) =
      .ok ((k, x) :: pairs, rest) := by
  rw [PlainPairs] at h
  obtain ⟨hkey, hx, hpairs⟩ := h
  cases pairs with
  | nil =>
      rw [serPairs, List.length_append, List.length_append, List.length_singleton] at hfuel
      have htext : points (serPairs [(k, x)]) ++ 125 :: rest =
          points (serString k) ++ 58 :: (points x.ser ++ 125 :: rest) := by
        simp [serPairs]
      rw [htext]
      exact scanMembers_last hook invalid hkey hx (ih.value x _ hx (by omega) (stops_brace rest))
  | cons e ys =>
      obtain ⟨k', y⟩ := e
      rw [serPairs, List.length_append, List.length_append, List.length_append,
        List.length_append, List.length_singleton, List.length_singleton] at hfuel
      have hmembers := ih.members k' y ys rest hpairs (by omega)
      obtain ⟨bytes, hser⟩ := head_serPairs k' y ys
      have htext : points (serPairs ((k, x) :: (k', y) :: ys)) ++ 125 :: rest =
          points (serString k) ++ 58 :: (points x.ser ++
            44 :: (points (serPairs ((k', y) :: ys)) ++ 125 :: rest)) := by
        simp [serPairs]
      rw [htext]
      refine scanMembers_more hook invalid hkey hx
        (ih.value x _ hx (by omega) (stops_comma _)) ?_ hmembers
      rw [hser, points_cons, List.cons_append, skipSpace_cons (by decide)]

/-- **The scanner reads serialized documents back**, by induction on the fuel. -/
theorem readsBack (hhook : ∀ pairs : List (PyStr × Json), (pairs.map Prod.fst).Nodup →
    hook pairs = .ok (.obj pairs)) (fuel : Nat) : ReadsBack hook invalid fuel := by
  induction fuel with
  | zero =>
      exact ⟨fun _ _ _ h => absurd h (Nat.not_lt_zero _), fun _ _ _ _ h =>
        absurd h (Nat.not_lt_zero _), fun _ _ _ _ _ h => absurd h (Nat.not_lt_zero _)⟩
  | succ fuel ih =>
      exact ⟨fun _ _ h hfuel hrest => ih.value_succ hhook h hfuel hrest,
        fun _ _ _ h hfuel => ih.items_succ h hfuel, fun _ _ _ _ h hfuel => ih.members_succ h hfuel⟩

/-- `loads` reads a serialized document back. -/
theorem loads_ser (hhook : ∀ pairs : List (PyStr × Json), (pairs.map Prod.fst).Nodup →
    hook pairs = .ok (.obj pairs)) {d : Json} (h : d.Plain) :
    loads hook invalid (points d.ser) = .ok d := by
  obtain ⟨b, bytes, hser, hspace, -⟩ := head_ser h
  have hmark : ¬ (points d.ser).head? = some 0xfeff := by
    have := b.toNat_lt
    rw [hser, points_cons, List.head?_cons, Option.some.injEq]
    omega
  have hskip := skipSpace_ser h []
  have hback : ReadsBack hook invalid ((points d.ser).length + 1) := readsBack hhook _
  have hread := hback.value d [] h (by simp) fun c hc => by simp at hc
  rw [List.append_nil] at hskip hread
  rw [loads, refuseIf_of_not hmark, hskip, ok_bind, hread, ok_bind]
  rfl

end Documents

end CoreTex.Lib
