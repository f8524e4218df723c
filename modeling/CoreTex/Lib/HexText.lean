import CoreTex.Lib.JsNumber
import CoreTex.Lib.PyText
import Mathlib.Data.List.TakeWhile
import Mathlib.Tactic.IntervalCases

/-!
# CoreTex.Lib.HexText

Hex text that is not known to be clean: what `bytes.fromhex` takes (`fromHex_eq_some`), and what
`parseInt` and `BigInt` take (`parseIntHex_pair`, `bigIntBody_eq_some`).

`hexSpelled` is the byte string that pairs of hex digits of either case spell. All three readers
agree with it on text of hex digits only.
-/

namespace CoreTex.Lib

/-- A hex digit of either case. -/
def IsHex (c : Char) : Prop :=
  (hexValue c.toNat).isSome = true

/-- ASCII white space. -/
def IsBlank (c : Char) : Prop :=
  c.toNat = 32 ∨ 9 ≤ c.toNat ∧ c.toNat ≤ 13

instance IsHex.decidable : DecidablePred IsHex := fun c =>
  inferInstanceAs (Decidable ((hexValue c.toNat).isSome = true))

instance IsBlank.decidable : DecidablePred IsBlank := fun c =>
  inferInstanceAs (Decidable (c.toNat = 32 ∨ 9 ≤ c.toNat ∧ c.toNat ≤ 13))

/-- The code points of text. -/
def codes (s : List Char) : PyStr :=
  s.map Char.toNat

/-- The bytes that pairs of hex digits spell. -/
def hexSpelled : List Char → Bytes
  | a :: b :: rest =>
    UInt8.ofNat ((hexValue a.toNat).getD 0 * 16 + (hexValue b.toNat).getD 0) :: hexSpelled rest
  | _ => []

/-- Induction over a list of even length, two items at a time. -/
theorem pairsInduction {α : Type} {motive : (l : List α) → l.length % 2 = 0 → Prop}
    (nil : motive [] rfl)
    (pair : ∀ a b l (h : l.length % 2 = 0) (h' : (a :: b :: l).length % 2 = 0),
      motive l h → motive (a :: b :: l) h')
    (l : List α) (h : l.length % 2 = 0) : motive l h := by
  match l with
  | [] => exact nil
  | [_] => simp at h
  | a :: b :: l =>
      have heven : l.length % 2 = 0 := by
        simp only [List.length_cons] at h
        omega
      exact pair a b l heven h (pairsInduction nil pair l heven)

/-! ### Digits and blanks -/

def hexAlphabet : List Char :=
  ['0', '1', '2', '3', '4', '5', '6', '7', '8', '9', 'a', 'b', 'c', 'd', 'e', 'f',
    'A', 'B', 'C', 'D', 'E', 'F']

/-- A check made of every entry of a list in turn. (`decide` on the quantifier itself would try
every character there is.) -/
theorem forall_mem_of_all {P : Char → Prop} [DecidablePred P] {l : List Char}
    (h : l.all (fun c => decide (P c)) = true) : ∀ c ∈ l, P c := by
  simpa [List.all_eq_true] using h

/-- The same for every two entries. -/
theorem forall_mem_pairs {P : Char → Char → Prop} [∀ a b, Decidable (P a b)] {l : List Char}
    (h : l.all (fun a => l.all fun b => decide (P a b)) = true) :
    ∀ a ∈ l, ∀ b ∈ l, P a b := by
  simpa [List.all_eq_true] using h

theorem hexValue_lt {c v : Nat} (h : hexValue c = some v) : v < 16 := by
  unfold hexValue at h
  split at h
  · cases h
    omega
  · split at h
    · cases h
      omega
    · split at h
      · cases h
        omega
      · cases h

theorem IsHex.range {c : Char} (h : IsHex c) :
    48 ≤ c.toNat ∧ c.toNat ≤ 57 ∨ 97 ≤ c.toNat ∧ c.toNat ≤ 102 ∨
      65 ≤ c.toNat ∧ c.toNat ≤ 70 := by
  by_contra hc
  have hnone : hexValue c.toNat = none := by
    rw [hexValue, if_neg (by omega), if_neg (by omega), if_neg (by omega)]
  rw [IsHex, hnone] at h
  cases h

theorem IsHex.mem_alphabet {c : Char} (h : IsHex c) : c ∈ hexAlphabet := by
  have hrange := h.range
  have hof : c = Char.ofNat c.toNat := (Char.ofNat_toNat c).symm
  generalize c.toNat = n at hrange hof
  subst hof
  rcases hrange with ⟨hlo, hhi⟩ | ⟨hlo, hhi⟩ | ⟨hlo, hhi⟩ <;> interval_cases n <;> decide

theorem IsHex.not_blank {c : Char} (h : IsHex c) : ¬ IsBlank c := by
  have := h.range
  unfold IsBlank
  omega

theorem IsHex.not_space {c : Char} (h : IsHex c) : isJsSpace c = false := by
  have hall : ∀ d ∈ hexAlphabet, isJsSpace d = false :=
    forall_mem_of_all (by decide)
  exact hall c h.mem_alphabet

theorem IsHex.ascii {c : Char} (h : IsHex c) : c.toNat < 128 := by
  have := h.range
  omega

theorem IsBlank.ascii {c : Char} (h : IsBlank c) : c.toNat < 128 := by
  unfold IsBlank at h
  omega

theorem IsBlank.space {c : Char} (h : IsBlank c) : isJsSpace c = true := by
  have hcode : c.toNat ∈ [9, 10, 11, 12, 13, 32] := by
    unfold IsBlank at h
    simp only [List.mem_cons, List.not_mem_nil, or_false]
    omega
  rw [isJsSpace, List.contains_iff_mem]
  simp only [List.mem_cons, List.not_mem_nil, or_false] at hcode ⊢
  omega

/-! ### `bytes.fromhex` -/

theorem fromHex_blank_cons {c : Char} (h : IsBlank c) (rest : PyStr) :
    fromHex (c.toNat :: rest) = fromHex rest := by
  unfold IsBlank at h
  cases rest with
  | nil => simp [fromHex, h]
  | cons d rest => rw [fromHex, if_pos h]

theorem fromHex_pair {c d : Char} (hc : IsHex c) (hd : IsHex d) (rest : PyStr) :
    fromHex (c.toNat :: d.toNat :: rest) = (fromHex rest).map
      (UInt8.ofNat ((hexValue c.toNat).getD 0 * 16 + (hexValue d.toNat).getD 0) :: ·) := by
  have hblank := hc.not_blank
  unfold IsBlank at hblank
  obtain ⟨high, hhigh⟩ := Option.isSome_iff_exists.mp hc
  obtain ⟨low, hlow⟩ := Option.isSome_iff_exists.mp hd
  rw [fromHex, if_neg hblank, hhigh, hlow]
  rfl

theorem fromHex_blanks_append {blanks : List Char} (h : ∀ c ∈ blanks, IsBlank c) (rest : PyStr) :
    fromHex (codes blanks ++ rest) = fromHex rest := by
  induction blanks with
  | nil => rfl
  | cons c blanks ih =>
      obtain ⟨hc, hblanks⟩ := List.forall_mem_cons.mp h
      exact (fromHex_blank_cons hc _).trans (ih hblanks)

/-- Pairs of digits are read, whatever follows them. -/
theorem fromHex_digits_append {digits : List Char} (h : ∀ c ∈ digits, IsHex c)
    (heven : digits.length % 2 = 0) (rest : PyStr) :
    fromHex (codes digits ++ rest) = (fromHex rest).map (hexSpelled digits ++ ·) := by
  induction digits, heven using pairsInduction with
  | nil => exact (Option.map_id' (x := fromHex rest)).symm
  | pair a b digits heven _ ih =>
      obtain ⟨ha, hb⟩ := List.forall_mem_cons.mp h
      obtain ⟨hb, hdigits⟩ := List.forall_mem_cons.mp hb
      have hcons : codes (a :: b :: digits) ++ rest =
          a.toNat :: b.toNat :: (codes digits ++ rest) := rfl
      rw [hcons, fromHex_pair ha hb, ih hdigits, hexSpelled, Option.map_map]
      rfl

theorem fromHex_blanks {blanks : List Char} (h : ∀ c ∈ blanks, IsBlank c) :
    fromHex (codes blanks) = some [] := by
  have := fromHex_blanks_append h []
  rwa [List.append_nil] at this

theorem fromHex_digits {digits : List Char} (h : ∀ c ∈ digits, IsHex c)
    (heven : digits.length % 2 = 0) : fromHex (codes digits) = some (hexSpelled digits) := by
  have := fromHex_digits_append h heven []
  rw [List.append_nil] at this
  rw [this, fromHex, Option.map_some, List.append_nil]

theorem length_hexSpelled {digits : List Char} (heven : digits.length % 2 = 0) :
    2 * (hexSpelled digits).length = digits.length := by
  induction digits, heven using pairsInduction with
  | nil => rfl
  | pair a b digits heven _ ih =>
      simp only [hexSpelled, List.length_cons]
      omega

/-- What `bytes.fromhex` takes holds nothing but digits and blanks, two digits a byte. -/
theorem fromHex_eq_some {s : List Char} {bytes : Bytes} (h : fromHex (codes s) = some bytes) :
    (∀ c ∈ s, IsHex c ∨ IsBlank c) ∧ s.countP (fun c => decide (IsHex c)) = 2 * bytes.length := by
  generalize hn : s.length = n
  induction n using Nat.strong_induction_on generalizing s bytes with
  | _ n ih =>
  cases s with
  | nil =>
      cases h
      simp
  | cons c s =>
      by_cases hblank : IsBlank c
      · have hrest : fromHex (codes s) = some bytes := (fromHex_blank_cons hblank _).symm.trans h
        obtain ⟨hall, hcount⟩ := ih s.length (by simp at hn; omega) hrest rfl
        refine ⟨List.forall_mem_cons.mpr ⟨.inr hblank, hall⟩, ?_⟩
        rw [List.countP_cons_of_neg (by simpa using fun hc => hc.not_blank hblank), hcount]
      · cases s with
        | nil =>
            have : fromHex (codes [c]) = none := by
              unfold IsBlank at hblank
              show fromHex [c.toNat] = none
              rw [fromHex, if_neg hblank]
            rw [this] at h
            cases h
        | cons d s =>
            have hcons : codes (c :: d :: s) = c.toNat :: d.toNat :: codes s := rfl
            have hblank' := hblank
            unfold IsBlank at hblank'
            rw [hcons, fromHex, if_neg hblank'] at h
            split at h
            · rename_i high low hc hd
              obtain ⟨tail, htail, rfl⟩ := Option.map_eq_some_iff.mp h
              obtain ⟨hall, hcount⟩ := ih s.length (by simp at hn; omega) htail rfl
              have hc' : IsHex c := by simp [IsHex, hc]
              have hd' : IsHex d := by simp [IsHex, hd]
              refine ⟨List.forall_mem_cons.mpr ⟨.inl hc',
                List.forall_mem_cons.mpr ⟨.inl hd', hall⟩⟩, ?_⟩
              rw [List.countP_cons_of_pos (by simpa using hc'),
                List.countP_cons_of_pos (by simpa using hd'), hcount, List.length_cons]
              omega
            · cases h

/-! ### `parseInt` and the digits of `BigInt` -/

/-- Two digits of either case, as `parseInt` reads them. -/
theorem parseIntHex_pair {a b : Char} (ha : IsHex a) (hb : IsHex b) :
    parseIntHex [a, b] =
      some (((hexValue a.toNat).getD 0 * 16 + (hexValue b.toNat).getD 0 : Nat) : Int) := by
  have hall : ∀ a ∈ hexAlphabet, ∀ b ∈ hexAlphabet, parseIntHex [a, b] =
      some (((hexValue a.toNat).getD 0 * 16 + (hexValue b.toNat).getD 0 : Nat) : Int) :=
    forall_mem_pairs (by decide +kernel)
  exact hall a ha.mem_alphabet b hb.mem_alphabet

theorem readDigits_hexSpelled {digits : List Char} (h : ∀ c ∈ digits, IsHex c)
    (heven : digits.length % 2 = 0) (acc : Nat) :
    readDigits 16 acc digits =
      some (acc * 256 ^ (hexSpelled digits).length + readBE (hexSpelled digits)) := by
  induction digits, heven using pairsInduction generalizing acc with
  | nil => simp [readDigits, hexSpelled, readBE]
  | pair a b digits heven _ ih =>
      obtain ⟨ha, hb⟩ := List.forall_mem_cons.mp h
      obtain ⟨hb, hdigits⟩ := List.forall_mem_cons.mp hb
      obtain ⟨high, hhigh⟩ := Option.isSome_iff_exists.mp ha
      obtain ⟨low, hlow⟩ := Option.isSome_iff_exists.mp hb
      have hhi := hexValue_lt hhigh
      have hlo := hexValue_lt hlow
      have hbyte : (UInt8.ofNat (high * 16 + low)).toNat = high * 16 + low :=
        UInt8.toNat_ofNat_of_lt (by rw [UInt8.size]; omega)
      rw [readDigits, hhigh]
      dsimp only
      rw [if_pos hhi, readDigits, hlow]
      dsimp only
      rw [if_pos hlo, ih hdigits, hexSpelled, hhigh, hlow, Option.getD_some,
        Option.getD_some, readBE_cons, List.length_cons, hbyte, Nat.pow_succ]
      congr 1
      ring

/-- A reader of digits takes nothing but hex digits. -/
theorem readDigits_isHex {base acc : Nat} {digits : List Char} {n : Nat}
    (h : readDigits base acc digits = some n) : ∀ c ∈ digits, IsHex c := by
  induction digits generalizing acc with
  | nil => simp
  | cons c digits ih =>
      rw [readDigits] at h
      split at h
      · rename_i v hv
        split at h
        · exact List.forall_mem_cons.mpr ⟨by simp [IsHex, hv], ih h⟩
        · cases h
      · cases h

theorem readDigits_cons {base acc : Nat} {c : Char} {digits : List Char} {n : Nat}
    (h : readDigits base acc (c :: digits) = some n) :
    ∃ v, hexValue c.toNat = some v ∧ v < base ∧ readDigits base (acc * base + v) digits = some n := by
  rw [readDigits] at h
  split at h
  · rename_i v hv
    split at h
    · exact ⟨v, hv, ‹_›, h⟩
    · cases h
  · cases h

/-- What is read before weighs with every digit that follows. -/
theorem readDigits_ge {base acc : Nat} {digits : List Char} {n : Nat}
    (h : readDigits base acc digits = some n) : acc * base ^ digits.length ≤ n := by
  induction digits generalizing acc with
  | nil =>
      cases h
      simp
  | cons c digits ih =>
      obtain ⟨v, -, -, hrest⟩ := readDigits_cons h
      calc acc * base ^ (digits.length + 1)
          = acc * base * base ^ digits.length := by ring
        _ ≤ (acc * base + v) * base ^ digits.length := Nat.mul_le_mul_right _ (by omega)
        _ ≤ n := ih hrest

/-- From a larger start the digits spell a larger number in base 16 than in base 10. -/
theorem readDigits_lt {a b : Nat} (hab : a < b) {digits : List Char} {m n : Nat}
    (hm : readDigits 10 a digits = some m) (hn : readDigits 16 b digits = some n) : m < n := by
  induction digits generalizing a b with
  | nil =>
      cases hm
      cases hn
      exact hab
  | cons c digits ih =>
      obtain ⟨v, hv, -, hm⟩ := readDigits_cons hm
      obtain ⟨w, hw, -, hn⟩ := readDigits_cons hn
      rw [hv] at hw
      cases hw
      exact ih (by omega) hm hn

/-- Digits that spell one number in both bases are zeros and a last digit. -/
theorem eq_zeros_of_readDigits {digits : List Char} {n : Nat} (hne : digits ≠ [])
    (hm : readDigits 10 0 digits = some n) (hn : readDigits 16 0 digits = some n) :
    ∃ d, digits = List.replicate (digits.length - 1) '0' ++ [d] ∧ n < 10 ∧
      hexValue d.toNat = some n := by
  induction digits with
  | nil => exact absurd rfl hne
  | cons c digits ih =>
      obtain ⟨v, hv, hlt, hm⟩ := readDigits_cons hm
      obtain ⟨w, hw, -, hn⟩ := readDigits_cons hn
      rw [hv] at hw
      cases hw
      rw [Nat.zero_mul, Nat.zero_add] at hm hn
      cases digits with
      | nil =>
          cases hm
          exact ⟨c, rfl, hlt, hv⟩
      | cons e digits =>
          -- a digit that is not zero weighs more in base 16
          have hzero : v = 0 := by
            by_contra hpos
            obtain ⟨w, hw, -, hm⟩ := readDigits_cons hm
            obtain ⟨w', hw', -, hn⟩ := readDigits_cons hn
            rw [hw] at hw'
            cases hw'
            exact Nat.lt_irrefl n (readDigits_lt (by omega) hm hn)
          subst hzero
          obtain ⟨d, hd, hn10, hdn⟩ := ih (List.cons_ne_nil _ _) hm hn
          have hc : c = '0' := by
            have hall : ∀ c ∈ hexAlphabet, hexValue c.toNat = some 0 → c = '0' :=
              forall_mem_of_all (by decide)
            exact hall c (IsHex.mem_alphabet (by simp [IsHex, hv])) hv
          refine ⟨d, ?_, hn10, hdn⟩
          rw [hc, hd]
          simp [List.replicate_succ]

/-! ### White space around a number -/

/-- Text without the white space at its ends. -/
def jsTrim (s : List Char) : List Char :=
  ((s.dropWhile isJsSpace).reverse.dropWhile isJsSpace).reverse

theorem jsTrim_spec (s : List Char) : ∃ lead trail, s = lead ++ jsTrim s ++ trail ∧
    (∀ c ∈ lead, isJsSpace c = true) ∧ ∀ c ∈ trail, isJsSpace c = true := by
  refine ⟨s.takeWhile isJsSpace, ((s.dropWhile isJsSpace).reverse.takeWhile isJsSpace).reverse,
    ?_, fun c hc => List.mem_takeWhile_imp hc, fun c hc =>
      List.mem_takeWhile_imp (List.mem_reverse.mp hc)⟩
  rw [jsTrim, List.append_assoc, ← List.reverse_append, List.takeWhile_append_dropWhile,
    List.reverse_reverse, List.takeWhile_append_dropWhile]

theorem jsTrim_append {lead cs trail : List Char} (hlead : ∀ c ∈ lead, isJsSpace c = true)
    (htrail : ∀ c ∈ trail, isJsSpace c = true) (hcs : ∀ c ∈ cs, isJsSpace c = false)
    (hne : cs ≠ []) : jsTrim (lead ++ cs ++ trail) = cs := by
  have hdrop : ∀ l : List Char, (∀ c ∈ l, isJsSpace c = false) → ∀ tail, l ≠ [] →
      (l ++ tail).dropWhile isJsSpace = l ++ tail := by
    intro l hl tail hlne
    cases l with
    | nil => exact absurd rfl hlne
    | cons c l =>
        have hc := hl c List.mem_cons_self
        rw [List.cons_append, List.dropWhile_cons_of_neg (by simp [hc])]
  rw [jsTrim, List.append_assoc, List.dropWhile_append_of_pos hlead, hdrop cs hcs trail hne,
    List.reverse_append, List.dropWhile_append_of_pos fun c hc => htrail c (List.mem_reverse.mp hc)]
  have := hdrop cs.reverse (fun c hc => hcs c (List.mem_reverse.mp hc)) [] (by simpa using hne)
  rw [List.append_nil] at this
  rw [this, List.reverse_reverse]

/-- Text that starts with two characters that are no white space loses some of its end only. -/
theorem jsTrim_cons_cons {a b : Char} (ha : isJsSpace a = false) (hb : isJsSpace b = false)
    (s : List Char) : ∃ rest trail, jsTrim (a :: b :: s) = a :: b :: rest ∧ s = rest ++ trail ∧
      ∀ c ∈ trail, isJsSpace c = true := by
  obtain ⟨lead, trail, hsplit, hlead, htrail⟩ := jsTrim_spec (a :: b :: s)
  generalize jsTrim (a :: b :: s) = cs at hsplit
  have hclash : ∀ (c : Char) (l : List Char), isJsSpace c = false → c ∈ l →
      (∀ c ∈ l, isJsSpace c = true) → False := by
    intro c l hc hmem hall
    rw [hall c hmem] at hc
    cases hc
  cases lead with
  | cons c lead =>
      simp only [List.cons_append, List.cons.injEq] at hsplit
      exact (hclash a (c :: lead) ha (hsplit.1 ▸ List.mem_cons_self) hlead).elim
  | nil =>
      rw [List.nil_append] at hsplit
      cases cs with
      | nil =>
          rw [List.nil_append] at hsplit
          exact (hclash a trail ha (by simp [← hsplit]) htrail).elim
      | cons c cs =>
          simp only [List.cons_append, List.cons.injEq] at hsplit
          obtain ⟨rfl, hsplit⟩ := hsplit
          cases cs with
          | nil =>
              rw [List.nil_append] at hsplit
              exact (hclash b trail hb (by simp [← hsplit]) htrail).elim
          | cons d rest =>
              simp only [List.cons_append, List.cons.injEq] at hsplit
              obtain ⟨rfl, rfl⟩ := hsplit
              exact ⟨rest, trail, rfl, rfl, htrail⟩

/-- `BigInt` of text without white space at its ends. -/
def bigIntBody (cs : List Char) : Option Int :=
  match cs with
  | [] => some 0
  | '0' :: 'x' :: rest => readAllDigits 16 rest
  | '0' :: 'X' :: rest => readAllDigits 16 rest
  | '0' :: 'o' :: rest => readAllDigits 8 rest
  | '0' :: 'O' :: rest => readAllDigits 8 rest
  | '0' :: 'b' :: rest => readAllDigits 2 rest
  | '0' :: 'B' :: rest => readAllDigits 2 rest
  | _ =>
    let (sign, body) := splitSign cs
    (readAllDigits 10 body).map fun n => sign * n

theorem bigInt_eq_body (s : String) : bigInt s = bigIntBody (jsTrim s.toList) :=
  rfl

theorem readAllDigits_eq_some {base : Nat} {cs : List Char} {n : Int} :
    readAllDigits base cs = some n ↔ cs ≠ [] ∧ ∃ m : Nat, readDigits base 0 cs = some m ∧ (m : Int) = n := by
  rw [readAllDigits]
  by_cases hne : cs = []
  · simp [hne]
  · rw [if_neg hne, Option.map_eq_some_iff]
    constructor
    · intro h
      exact ⟨hne, h⟩
    · intro h
      exact h.2

theorem splitSign_cases (cs : List Char) :
    (∃ x rest, (x = '-' ∨ x = '+') ∧ cs = x :: rest) ∨ splitSign cs = (1, cs) := by
  unfold splitSign
  split
  · exact .inl ⟨_, _, .inl rfl, rfl⟩
  · exact .inl ⟨_, _, .inr rfl, rfl⟩
  · exact .inr rfl

/-- What `BigInt` takes, by its first characters. -/
theorem bigIntBody_eq_some {cs : List Char} {n : Int} (h : bigIntBody cs = some n) :
    cs = [] ∨ (∃ x rest, (x = 'x' ∨ x = 'X') ∧ cs = '0' :: x :: rest ∧
        readAllDigits 16 rest = some n) ∨
      (∃ x rest, (x = 'o' ∨ x = 'O') ∧ cs = '0' :: x :: rest) ∨
      (∃ x rest, (x = 'b' ∨ x = 'B') ∧ cs = '0' :: x :: rest ∧
        readAllDigits 2 rest = some n) ∨
      (∃ x rest, (x = '-' ∨ x = '+') ∧ cs = x :: rest) ∨ readAllDigits 10 cs = some n := by
  unfold bigIntBody at h
  split at h
  · exact .inl rfl
  · exact .inr (.inl ⟨_, _, .inl rfl, rfl, h⟩)
  · exact .inr (.inl ⟨_, _, .inr rfl, rfl, h⟩)
  · exact .inr (.inr (.inl ⟨_, _, .inl rfl, rfl⟩))
  · exact .inr (.inr (.inl ⟨_, _, .inr rfl, rfl⟩))
  · exact .inr (.inr (.inr (.inl ⟨_, _, .inl rfl, rfl, h⟩)))
  · exact .inr (.inr (.inr (.inl ⟨_, _, .inr rfl, rfl, h⟩)))
  · refine .inr (.inr (.inr (.inr ?_)))
    rcases splitSign_cases cs with hsign | hsign
    · exact .inl hsign
    · refine .inr ?_
      rw [hsign] at h
      obtain ⟨m, hm, hn⟩ := Option.map_eq_some_iff.mp h
      rw [hm, ← hn, one_mul]

/-- Hex digits after `0x` or `0X`. -/
theorem bigIntBody_hex {x : Char} (hx : x = 'x' ∨ x = 'X') (rest : List Char) :
    bigIntBody ('0' :: x :: rest) = readAllDigits 16 rest := by
  rcases hx with rfl | rfl
  · rfl
  · rfl

/-! ### Lower case -/

theorem toLower_val {c : Char} (h : c.val ≥ 'A'.val ∧ c.val ≤ 'Z'.val) :
    c.toLower.val = c.val + 32 :=
  congrArg Char.val (dif_pos h)

theorem toLower_toLower (s : String) : s.toLower.toLower = s.toLower := by
  have hchar (c : Char) : c.toLower.toLower = c.toLower := by
    by_cases h : c.val ≥ 'A'.val ∧ c.val ≤ 'Z'.val
    · refine dif_neg fun hlower => ?_
      rw [toLower_val h] at hlower
      have hlo : 65 ≤ c.val.toNat := h.1
      have hhi : c.val.toNat ≤ 90 := h.2
      have hsum : (c.val + 32).toNat = c.val.toNat + 32 := by
        rw [UInt32.toNat_add]
        exact Nat.mod_eq_of_lt (by show c.val.toNat + 32 < 2 ^ 32; omega)
      have hle : (c.val + 32).toNat ≤ 90 := hlower.2
      omega
    · have hsame : c.toLower = c := dif_neg h
      rw [hsame, hsame]
  refine String.toList_injective ?_
  change ((s.map Char.toLower).map Char.toLower).toList = (s.map Char.toLower).toList
  rw [String.toList_map, String.toList_map, List.map_map]
  exact List.map_congr_left fun c _ => hchar c

end CoreTex.Lib
