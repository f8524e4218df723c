import CoreTex.Substrate.PolicyAtom
import Mathlib.Tactic.Positivity

/-!
# CoreTex.Substrate.Region

Packed words and regions of slots (`substrate/retrieval-decoder.ts`).

A word is the bitwise or of fields that are shifted to their places; with the fields in
descending places and below their widths it is their weighted sum (`pack_cons`), from which every
field is read back by arithmetic. A region decoder looks at its positions one by one, so what a
write does to a region is what it does to one position (`roundTrips_iff`).
-/

namespace CoreTex

open CoreTex.Lib

/-! ### Packed words -/

/-- `(a << i) | (b << j) | …`. -/
def pack (fields : List (Int × Nat)) : Int :=
  fields.foldr (fun f w => Int.lor (f.1 <<< f.2) w) 0

@[simp] theorem pack_nil : pack [] = 0 := rfl

/-- A field above the rest of a word adds to it. -/
theorem pack_cons {v r : Int} {s : Nat} {rest : List (Int × Nat)} (hrest : pack rest = r)
    (hv : 0 ≤ v) (hr : 0 ≤ r) (hlt : r < 2 ^ s) : pack ((v, s) :: rest) = v * 2 ^ s + r := by
  obtain ⟨n, rfl⟩ := Int.eq_ofNat_of_zero_le hv
  obtain ⟨m, rfl⟩ := Int.eq_ofNat_of_zero_le hr
  have hlt' : m < 2 ^ s := by exact_mod_cast hlt
  rw [pack, List.foldr_cons, ← pack, hrest]
  show ((n <<< s ||| m : Nat) : Int) = _
  rw [← Nat.shiftLeft_add_eq_or_of_lt hlt', Nat.shiftLeft_eq]
  push_cast
  rfl

theorem pack_singleton {v : Int} {s : Nat} (hv : 0 ≤ v) : pack [(v, s)] = v * 2 ^ s := by
  rw [pack_cons pack_nil hv (Int.le_refl 0) (by positivity), Int.add_zero]

/-- A field of a word that is not negative, by division. -/
theorem field_eq {w : Int} (hw : 0 ≤ w) (s n : Nat) : field w s n = w / 2 ^ s % 2 ^ n := by
  obtain ⟨m, rfl⟩ := Int.eq_ofNat_of_zero_le hw
  have hmask : (2 ^ n - 1 : Int) = ((2 ^ n - 1 : Nat) : Int) := by
    rw [Nat.cast_sub Nat.one_le_two_pow]
    push_cast
    rfl
  rw [field, hmask]
  show ((m >>> s &&& (2 ^ n - 1) : Nat) : Int) = _
  rw [Nat.and_two_pow_sub_one_eq_mod, Nat.shiftRight_eq_div_pow]
  push_cast
  rfl

/-- A shift leaves nothing exactly when the value has no more bits than that. -/
theorem shiftRight_eq_zero {v : Int} {n : Nat} : v >>> n = 0 ↔ 0 ≤ v ∧ v < 2 ^ n := by
  have hcast : ((2 ^ n : Nat) : Int) = 2 ^ n := by
    push_cast
    rfl
  have hpos : (0 : Int) < 2 ^ n := by positivity
  rw [Int.shiftRight_eq_div_pow, hcast]
  constructor
  · intro h
    have hsplit := Int.emod_add_mul_ediv v (2 ^ n)
    rw [h, Int.mul_zero, Int.add_zero] at hsplit
    rw [← hsplit]
    exact ⟨Int.emod_nonneg v (ne_of_gt hpos), Int.emod_lt_of_pos v hpos⟩
  · intro ⟨hnonneg, hlt⟩
    exact Int.ediv_eq_zero_of_lt hnonneg hlt

/-! ### Regions -/

/-- What a decoder makes of one position: nothing there, a failure, an entry that is switched off,
or a record. -/
inductive SlotOutcome (α : Type)
  | empty
  | failed
  | inactive
  | decoded (entry : α)

/-- What a region decoder returns. -/
structure DecodedRegion (α : Type) where
  slots : List (Option α)
  attempts : Nat
  failures : Nat

/-- The entries of a region that is returned without its empty positions. -/
def DecodedRegion.entries {α : Type} (region : DecodedRegion α) : List α :=
  region.slots.filterMap id

section Region

variable {α : Type}

/-- The body of a region decoder's loop. -/
def decodeStep (outcome : Nat → SlotOutcome α) (out : DecodedRegion α) (k : Nat) :
    DecodedRegion α :=
  match outcome k with
  | .empty => { out with slots := out.slots ++ [none] }
  | .failed =>
      { slots := out.slots ++ [none], attempts := out.attempts + 1, failures := out.failures + 1 }
  | .inactive => { out with slots := out.slots ++ [none], attempts := out.attempts + 1 }
  | .decoded entry => { out with slots := out.slots ++ [some entry], attempts := out.attempts + 1 }

/-- A region decoder. -/
def decodeRegion (count : Nat) (outcome : Nat → SlotOutcome α) : DecodedRegion α :=
  (List.range count).foldl (decodeStep outcome) ⟨[], 0, 0⟩

/-- The record of a position. -/
def SlotOutcome.found : SlotOutcome α → Option α
  | .decoded entry => some entry
  | _ => none

def SlotOutcome.isFailed : SlotOutcome α → Bool
  | .failed => true
  | _ => false

theorem decodeRegion_succ (count : Nat) (outcome : Nat → SlotOutcome α) :
    decodeRegion (count + 1) outcome =
      decodeStep outcome (decodeRegion count outcome) count := by
  rw [decodeRegion, List.range_succ, List.foldl_append]
  rfl

theorem decodeRegion_spec (count : Nat) (outcome : Nat → SlotOutcome α) :
    (decodeRegion count outcome).slots = (List.range count).map (fun k => (outcome k).found) ∧
      (decodeRegion count outcome).failures =
        (List.range count).countP fun k => (outcome k).isFailed := by
  induction count with
  | zero => exact ⟨rfl, rfl⟩
  | succ count ih =>
      rw [decodeRegion_succ, List.range_succ, List.map_append, List.countP_append, ← ih.1, ← ih.2]
      cases h : outcome count <;> simp [decodeStep, h, SlotOutcome.found, SlotOutcome.isFailed]

/-- Writing `words` puts `record` at position `i`: the words are 256-bit words, the region decoder
returns the record there without a failure, and every other position is decoded as before. -/
structure RoundTrips (count : Nat) (before after : Nat → SlotOutcome α) (i : Nat) (record : α)
    (words : List Int) : Prop where
  words : ∀ w ∈ words, 0 ≤ w ∧ w < 2 ^ 256
  slots : (decodeRegion count after).slots =
    (decodeRegion count before).slots.set i (some record)
  failures : (decodeRegion count after).failures =
    ((List.range count).filter (· ≠ i)).countP fun k => (before k).isFailed

/-- A write that leaves the other positions alone round-trips when its own position does. -/
theorem roundTrips_iff {count i : Nat} (hi : i < count) {before after : Nat → SlotOutcome α}
    (helse : ∀ k < count, k ≠ i → after k = before k) {record : α} {words : List Int} :
    RoundTrips count before after i record words ↔
      (∀ w ∈ words, 0 ≤ w ∧ w < 2 ^ 256) ∧ after i = .decoded record := by
  obtain ⟨hslotsAfter, hfailuresAfter⟩ := decodeRegion_spec count after
  obtain ⟨hslotsBefore, hfailuresBefore⟩ := decodeRegion_spec count before
  constructor
  · intro h
    refine ⟨h.words, ?_⟩
    have hlength : i < (decodeRegion count before).slots.length := by
      rw [hslotsBefore, List.length_map, List.length_range]
      exact hi
    have hget := congrArg (fun l => l[i]?) (hslotsAfter.symm.trans h.slots)
    simp only [List.getElem?_set_self hlength, List.getElem?_map, List.getElem?_range hi,
      Option.map_some, Option.some.injEq] at hget
    cases hafter : after i with
    | decoded entry =>
        rw [hafter, SlotOutcome.found, Option.some.injEq] at hget
        rw [hget]
    | _ =>
        rw [hafter] at hget
        cases hget
  · intro ⟨hwords, hhere⟩
    refine ⟨hwords, ?_, ?_⟩
    · rw [hslotsAfter, hslotsBefore]
      refine List.ext_getElem? fun k => ?_
      rw [List.getElem?_set, List.getElem?_map, List.getElem?_map, List.length_map,
        List.length_range]
      by_cases hik : i = k
      · subst hik
        rw [List.getElem?_range hi, Option.map_some, hhere, if_pos rfl, if_pos hi,
          SlotOutcome.found]
      · rw [if_neg hik]
        by_cases hk : k < count
        · rw [List.getElem?_range hk, Option.map_some, Option.map_some,
            helse k hk (Ne.symm hik)]
        · rw [List.getElem?_eq_none (by rw [List.length_range]; omega)]
          rfl
    · rw [hfailuresAfter, List.countP_filter]
      refine List.countP_congr fun k hk => ?_
      by_cases hik : k = i
      · simp [hik, hhere, SlotOutcome.isFailed]
      · simp [hik, helse k (List.mem_range.mp hk) hik]

end Region

end CoreTex
