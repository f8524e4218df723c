import CoreTex.Lib.Bytes
import Mathlib.Data.List.Lex
import Mathlib.Data.List.Perm.Basic
import Mathlib.Data.List.Sort

/-!
# CoreTex.Lib.Json

JSON documents as a host language's decoder builds them, and their canonical bytes.

A string is a list of code points, so a lone surrogate is a string. An object is an
association list in insertion order; `Json.WF` says its keys are distinct, at every
level. `Json.dumps` sorts the keys and writes compact ASCII, so it does not see the order
in which an object's keys were inserted: `sortKeys_obj_fields` computes the sorted form of
an object whose keys are a known closed set.
-/

namespace CoreTex.Lib

/-! ### Documents -/

/-- A string, by its code points. -/
abbrev PyStr := List Nat

instance : LawfulBEq PyStr :=
  inferInstance

/-- The code points of a literal. -/
def py (s : String) : PyStr :=
  s.toList.map Char.toNat

theorem py_injective {a b : String} (h : py a = py b) : a = b := by
  have hchars : a.toList = b.toList :=
    List.map_injective_iff.mpr (fun c d hcd => Char.toNat_inj.mp hcd) h
  exact String.toList_inj.mp hchars

@[simp] theorem py_inj {a b : String} : py a = py b ↔ a = b :=
  ⟨py_injective, congrArg py⟩

/-- A document. A float is kept as its literal text. -/
inductive Json
  | null
  | bool (b : Bool)
  | int (n : Int)
  | float (literal : PyStr)
  | str (s : PyStr)
  | arr (items : List Json)
  | obj (pairs : List (PyStr × Json))

/-- The value of a key. -/
def lookup {α : Type} (pairs : List (PyStr × α)) (key : PyStr) : Option α :=
  (pairs.find? fun e => e.1 = key).map Prod.snd

/-- Is a document this string? -/
def Json.isStr (j : Json) (s : String) : Bool :=
  match j with
  | .str t => decide (t = py s)
  | _ => false

@[simp] theorem Json.isStr_iff {j : Json} {s : String} : j.isStr s = true ↔ j = .str (py s) := by
  cases j <;> simp [Json.isStr]

/-- The value of a key that is known to be there. -/
def field (pairs : List (PyStr × Json)) (key : String) : Json :=
  (lookup pairs (py key)).getD .null

/-- `document.get(key)`. -/
def Json.get (document : Json) (key : String) : Json :=
  match document with
  | .obj pairs => field pairs key
  | _ => .null

/-- `document[key] = value`: in place when the key is there, at the end otherwise. -/
def assign (pairs : List (PyStr × Json)) (key : PyStr) (value : Json) : List (PyStr × Json) :=
  if pairs.any fun e => e.1 = key then
    pairs.map fun e => if e.1 = key then (key, value) else e
  else pairs ++ [(key, value)]

mutual

/-- Keys are distinct in every object of the document. -/
def Json.WF : Json → Prop
  | .arr items => WFItems items
  | .obj pairs => (pairs.map Prod.fst).Nodup ∧ WFPairs pairs
  | _ => True

def WFItems : List Json → Prop
  | [] => True
  | x :: xs => x.WF ∧ WFItems xs

def WFPairs : List (PyStr × Json) → Prop
  | [] => True
  | (_, x) :: xs => x.WF ∧ WFPairs xs

end

/-- A document whose objects have distinct keys. -/
abbrev Document := { document : Json // document.WF }

theorem wf_of_mem_pairs {pairs : List (PyStr × Json)} (h : WFPairs pairs) {k : PyStr} {x : Json}
    (hx : (k, x) ∈ pairs) : x.WF := by
  induction pairs with
  | nil => exact absurd hx List.not_mem_nil
  | cons e pairs ih =>
      obtain ⟨k', y⟩ := e
      rw [WFPairs] at h
      rcases List.mem_cons.mp hx with heq | hx
      · rw [Prod.mk.injEq] at heq
        exact heq.2 ▸ h.1
      · exact ih h.2 hx

/-! ### Sorted keys -/

/-- Code-point order on the keys of two pairs. -/
def KeyLe {α : Type} (a b : PyStr × α) : Prop :=
  a.1 ≤ b.1

instance {α : Type} : DecidableRel (KeyLe (α := α)) := fun a b =>
  inferInstanceAs (Decidable (a.1 ≤ b.1))

instance {α : Type} : Std.Total (KeyLe (α := α)) where
  total a b := le_total a.1 b.1

instance {α : Type} : IsTrans (PyStr × α) KeyLe where
  trans _ _ _ hab hbc := le_trans hab hbc

/-- The pairs of an object in ascending key order. -/
def sortPairs {α : Type} (pairs : List (PyStr × α)) : List (PyStr × α) :=
  pairs.insertionSort KeyLe

theorem sortPairs_perm {α : Type} (pairs : List (PyStr × α)) : (sortPairs pairs).Perm pairs :=
  List.perm_insertionSort _ pairs

/-- The keys stand in strictly ascending order. -/
def Ascending (fields : List String) : Prop :=
  fields.Pairwise fun a b => py a < py b

instance (fields : List String) : Decidable (Ascending fields) :=
  inferInstanceAs (Decidable (fields.Pairwise _))

theorem Ascending.nodup {fields : List String} (h : Ascending fields) : fields.Nodup := by
  refine List.Pairwise.imp ?_ h
  intro a b hab heq
  subst heq
  exact List.lt_irrefl _ hab

theorem sortPairs_of_ascending {α : Type} {fields : List String} (h : Ascending fields)
    (value : String → α) :
    sortPairs (fields.map fun f => (py f, value f)) = fields.map fun f => (py f, value f) := by
  refine List.Pairwise.insertionSort_eq (List.pairwise_map.mpr ?_)
  exact List.Pairwise.imp (fun hab => hab.le) h

/-- Two arrangements of pairs with distinct keys sort to one list. -/
theorem sortPairs_eq_of_perm {α : Type} {as bs : List (PyStr × α)} (hperm : as.Perm bs)
    (hnodup : (as.map Prod.fst).Nodup) : sortPairs as = sortPairs bs := by
  have hsorts := ((sortPairs_perm as).trans hperm).trans (sortPairs_perm bs).symm
  refine List.Perm.eq_of_pairwise ?_ (List.pairwise_insertionSort KeyLe as)
    (List.pairwise_insertionSort KeyLe bs) hsorts
  intro a b ha hb hab hba
  have ha := (sortPairs_perm as).mem_iff.mp ha
  have hb := hperm.mem_iff.mpr ((sortPairs_perm bs).mem_iff.mp hb)
  exact List.inj_on_of_nodup_map hnodup ha hb (le_antisymm hab hba)

mutual

/-- The document with the keys of every object in ascending order. -/
def Json.sortKeys : Json → Json
  | .arr items => .arr (sortKeysItems items)
  | .obj pairs => .obj (sortPairs (sortKeysPairs pairs))
  | j => j

def sortKeysItems : List Json → List Json
  | [] => []
  | x :: xs => x.sortKeys :: sortKeysItems xs

def sortKeysPairs : List (PyStr × Json) → List (PyStr × Json)
  | [] => []
  | (k, x) :: xs => (k, x.sortKeys) :: sortKeysPairs xs

end

theorem sortKeysPairs_eq_map (pairs : List (PyStr × Json)) :
    sortKeysPairs pairs = pairs.map fun e => (e.1, e.2.sortKeys) := by
  induction pairs with
  | nil => rfl
  | cons e pairs ih =>
      obtain ⟨k, x⟩ := e
      rw [sortKeysPairs, ih, List.map_cons]

/-! ### Serialization -/

/-- The bytes of ASCII text. -/
def ascii (s : String) : Bytes :=
  s.toList.map fun c => UInt8.ofNat c.toNat

/-- `\uXXXX`, in lower-case hex. -/
def escapeUnit (n : Nat) : Bytes :=
  [92, 117] ++ [n / 4096 % 16, n / 256 % 16, n / 16 % 16, n % 16].map fun d =>
    UInt8.ofNat (hexDigit d).toNat

/-- One code point of a string with `ensure_ascii`: a short escape, the character itself
when it is printable ASCII, else one or two `\uXXXX`. -/
def escapeCodePoint (n : Nat) : Bytes :=
  if n = 34 then [92, 34]
  else if n = 92 then [92, 92]
  else if n = 10 then [92, 110]
  else if n = 13 then [92, 114]
  else if n = 9 then [92, 116]
  else if n = 8 then [92, 98]
  else if n = 12 then [92, 102]
  else if 32 ≤ n ∧ n ≤ 126 then [UInt8.ofNat n]
  else if n < 65536 then escapeUnit n
  else
    escapeUnit (55296 + (n - 65536) / 1024 % 1024) ++ escapeUnit (56320 + (n - 65536) % 1024)

/-- A string literal. -/
def serString (s : PyStr) : Bytes :=
  [34] ++ s.flatMap escapeCodePoint ++ [34]

mutual

/-- Compact ASCII text, keys in the order they stand in. -/
def Json.ser : Json → Bytes
  | .null => ascii "null"
  | .bool true => ascii "true"
  | .bool false => ascii "false"
  | .int n => ascii (toString n)
  | .float literal => literal.map UInt8.ofNat
  | .str s => serString s
  | .arr items => [91] ++ serItems items ++ [93]
  | .obj pairs => [123] ++ serPairs pairs ++ [125]

def serItems : List Json → Bytes
  | [] => []
  | [x] => x.ser
  | x :: y :: rest => x.ser ++ [44] ++ serItems (y :: rest)

def serPairs : List (PyStr × Json) → Bytes
  | [] => []
  | [(k, x)] => serString k ++ [58] ++ x.ser
  | (k, x) :: e :: rest => serString k ++ [58] ++ x.ser ++ [44] ++ serPairs (e :: rest)

end

/-- `json.dumps(document, sort_keys=True, separators=(",", ":"), ensure_ascii=True)`. -/
def Json.dumps (j : Json) : Bytes :=
  j.sortKeys.ser

/-! ### Objects with a closed set of keys -/

/-- A pair with distinct keys is found by its key. -/
theorem lookup_of_mem {α : Type} {pairs : List (PyStr × α)}
    (hnodup : (pairs.map Prod.fst).Nodup) {k : PyStr} {x : α} (h : (k, x) ∈ pairs) : lookup pairs k = some x := by
  induction pairs with
  | nil => exact absurd h List.not_mem_nil
  | cons e pairs ih =>
      rw [List.map_cons, List.nodup_cons] at hnodup
      by_cases he : e.1 = k
      · rcases List.mem_cons.mp h with heq | h
        · subst heq
          simp [lookup]
        · exact absurd (he ▸ List.mem_map_of_mem (f := Prod.fst) h) hnodup.1
      · rcases List.mem_cons.mp h with heq | h
        · exact absurd (congrArg Prod.fst heq).symm he
        · rw [lookup, List.find?_cons_of_neg (by simpa using he)]
          exact ih hnodup.2 h

theorem mem_of_lookup {α : Type} {pairs : List (PyStr × α)} {k : PyStr} {x : α}
    (h : lookup pairs k = some x) : (k, x) ∈ pairs := by
  obtain ⟨e, he, rfl⟩ := Option.map_eq_some_iff.mp h
  have hk := List.find?_some he
  rw [decide_eq_true_eq] at hk
  exact hk ▸ List.mem_of_find?_eq_some he

/-- An object whose keys are exactly `fields` is, up to order, the object that lists the
fields with their values. -/
theorem perm_fields {pairs : List (PyStr × Json)} (hnodup : (pairs.map Prod.fst).Nodup)
    {fields : List String} (hfields : fields.Nodup)
    (hall : ∀ f ∈ fields, (lookup pairs (py f)).isSome)
    (honly : ∀ k ∈ pairs.map Prod.fst, ∃ f ∈ fields, py f = k) :
    pairs.Perm (fields.map fun f => (py f, field pairs f)) := by
  have hkeys : ((fields.map fun f => (py f, field pairs f)).map Prod.fst).Nodup := by
    rw [List.map_map]
    exact hfields.map_on fun a _ b _ hab => py_injective hab
  refine (List.perm_ext_iff_of_nodup (List.Nodup.of_map _ hnodup) (List.Nodup.of_map _ hkeys)).mpr ?_
  rintro ⟨k, x⟩
  constructor
  · intro hmem
    obtain ⟨f, hf, rfl⟩ := honly k (List.mem_map_of_mem (f := Prod.fst) hmem)
    refine List.mem_map.mpr ⟨f, hf, ?_⟩
    rw [field, lookup_of_mem hnodup hmem, Option.getD_some]
  · intro hmem
    obtain ⟨f, hf, heq⟩ := List.mem_map.mp hmem
    rw [Prod.mk.injEq] at heq
    obtain ⟨rfl, rfl⟩ := heq
    obtain ⟨x, hx⟩ := Option.isSome_iff_exists.mp (hall f hf)
    rw [field, hx, Option.getD_some]
    exact mem_of_lookup hx

/-- The sorted form of such an object, when the fields are listed in ascending order. -/
theorem sortKeys_obj_fields {pairs : List (PyStr × Json)} (hnodup : (pairs.map Prod.fst).Nodup)
    {fields : List String} (hfields : Ascending fields)
    (hall : ∀ f ∈ fields, (lookup pairs (py f)).isSome)
    (honly : ∀ k ∈ pairs.map Prod.fst, ∃ f ∈ fields, py f = k) :
    (Json.obj pairs).sortKeys = .obj (fields.map fun f => (py f, (field pairs f).sortKeys)) := by
  have hperm := perm_fields hnodup hfields.nodup hall honly
  have hkeys : ((pairs.map fun e => (e.1, e.2.sortKeys)).map Prod.fst).Nodup := by
    rwa [List.map_map]
  rw [Json.sortKeys, sortKeysPairs_eq_map,
    sortPairs_eq_of_perm (hperm.map fun e => (e.1, e.2.sortKeys)) hkeys, List.map_map]
  exact congrArg Json.obj (sortPairs_of_ascending hfields fun f => (field pairs f).sortKeys)

/-! ### Telling serialized values apart -/

/-- Printable characters that need no escape are written as they are. -/
theorem serString_of_plain {s : PyStr} (h : ∀ c ∈ s, 48 ≤ c ∧ c ≤ 57 ∨ 97 ≤ c ∧ c ≤ 122) :
    serString s = [34] ++ s.map UInt8.ofNat ++ [34] := by
  have hplain : s.flatMap escapeCodePoint = s.map UInt8.ofNat := by
    rw [List.map_eq_flatMap]
    refine List.flatMap_congr fun c hc => ?_
    have := h c hc
    rw [escapeCodePoint, if_neg (by omega), if_neg (by omega), if_neg (by omega),
      if_neg (by omega), if_neg (by omega), if_neg (by omega), if_neg (by omega),
      if_pos (by omega)]
  rw [serString, hplain]

theorem ser_natCast (n : Nat) :
    (Json.int n).ser = (Nat.toDigits 10 n).map fun c => UInt8.ofNat c.toNat := by
  rw [Json.ser, ascii]
  show (Nat.repr n).toList.map _ = _
  rw [Nat.toList_repr]

theorem toNat_of_mem_toDigits {n : Nat} {c : Char} (h : c ∈ Nat.toDigits 10 n) :
    48 ≤ c.toNat ∧ c.toNat ≤ 57 := by
  have := Nat.isDigit_of_mem_toDigits (by decide) (by decide) h
  simpa [Char.isDigit, UInt32.le_iff_toNat_le] using this

theorem ser_natCast_injective {m n : Nat} (h : (Json.int m).ser = (Json.int n).ser) : m = n := by
  have hback : ∀ k : Nat,
      ((Json.int k).ser.map fun b => Char.ofNat b.toNat) = Nat.toDigits 10 k := by
    intro k
    rw [ser_natCast, List.map_map]
    refine Eq.trans (List.map_congr_left fun c hc => ?_) (List.map_id _)
    have := toNat_of_mem_toDigits hc
    show Char.ofNat (UInt8.ofNat c.toNat).toNat = c
    rw [UInt8.toNat_ofNat', Nat.mod_eq_of_lt (by omega), Char.ofNat_toNat]
  have hdigits := congrArg (List.map fun b => Char.ofNat b.toNat) h
  rw [hback, hback] at hdigits
  have hval := congrArg (fun l => Nat.ofDigitChars 10 l 0) hdigits
  simpa only [Nat.ofDigitChars_ten_toDigits] using hval

/-- What stands before the first delimiter and what stands after it. -/
theorem append_delimiter_inj {α : Type} {d : α} {xs ys s t : List α} (hx : d ∉ xs) (hy : d ∉ ys)
    (h : xs ++ d :: s = ys ++ d :: t) : xs = ys ∧ s = t := by
  induction xs generalizing ys with
  | nil =>
      cases ys with
      | nil =>
          cases h
          exact ⟨rfl, rfl⟩
      | cons y ys =>
          cases h
          exact absurd List.mem_cons_self hy
  | cons x xs ih =>
      cases ys with
      | nil =>
          cases h
          exact absurd List.mem_cons_self hx
      | cons y ys =>
          rw [List.cons_append, List.cons_append, List.cons.injEq] at h
          rw [List.mem_cons, not_or] at hx hy
          obtain ⟨hxs, hst⟩ := ih hx.2 hy.2 h.2
          exact ⟨by rw [h.1, hxs], hst⟩

/-- The digits of a number, followed by a comma, determine the number and what follows. -/
theorem ser_natCast_append_inj {m n : Nat} {s t : Bytes}
    (h : (Json.int m).ser ++ 44 :: s = (Json.int n).ser ++ 44 :: t) : m = n ∧ s = t := by
  have hcomma : ∀ k : Nat, (44 : UInt8) ∉ (Json.int k).ser := by
    intro k hk
    rw [ser_natCast] at hk
    obtain ⟨c, hc, heq⟩ := List.mem_map.mp hk
    have hrange := toNat_of_mem_toDigits hc
    have hval := congrArg UInt8.toNat heq
    rw [UInt8.toNat_ofNat', Nat.mod_eq_of_lt (by omega)] at hval
    have : (44 : UInt8).toNat = 44 := rfl
    omega
  obtain ⟨hmn, hst⟩ := append_delimiter_inj (hcomma m) (hcomma n) h
  exact ⟨ser_natCast_injective hmn, hst⟩

end CoreTex.Lib
