import CoreTex.Lib.Json
import Mathlib.Algebra.BigOperators.Group.Finset.Basic

/-!
# CoreTex.Lib.Dict

Dictionaries with string keys. The entries are kept in ascending key order, so two
dictionaries with the same values at the same keys are equal, whatever the order of
insertion was.

`Dict.entries_eq` reads the entries off the keys, and with it a sum over the entries is a
sum over the set of keys (`Dict.sum_entries`).
-/

namespace CoreTex.Lib

/-- Strictly before, in code-point order. -/
def KeyLt (a b : PyStr) : Prop :=
  a < b

instance : DecidableRel KeyLt := fun a b => inferInstanceAs (Decidable (a < b))

theorem KeyLt.ne {a b : PyStr} (h : KeyLt a b) : a ≠ b := by
  intro heq
  subst heq
  exact List.lt_irrefl _ h

/-- A dictionary: its entries in ascending key order. -/
structure Dict (α : Type) where
  entries : List (PyStr × α)
  ascending : (entries.map Prod.fst).Pairwise KeyLt

namespace Dict

variable {α : Type}

theorem ext {d d' : Dict α} (h : d.entries = d'.entries) : d = d' := by
  cases d
  cases d'
  cases h
  rfl

instance [DecidableEq α] : DecidableEq (Dict α) := fun d d' =>
  decidable_of_iff (d.entries = d'.entries) ⟨ext, fun h => by rw [h]⟩

/-- The keys, in ascending order. -/
def keys (d : Dict α) : List PyStr :=
  d.entries.map Prod.fst

theorem nodup_keys (d : Dict α) : d.keys.Nodup :=
  List.Pairwise.imp KeyLt.ne d.ascending

/-- `d[key]`, for a key that is there. -/
def value [Inhabited α] (d : Dict α) (key : PyStr) : α :=
  (lookup d.entries key).getD default

theorem value_of_mem [Inhabited α] {d : Dict α} {e : PyStr × α} (h : e ∈ d.entries) :
    d.value e.1 = e.2 := by
  have hget : lookup d.entries e.1 = some e.2 := lookup_of_mem d.nodup_keys h
  rw [value, hget, Option.getD_some]

/-- The entries, read off the keys. -/
theorem entries_eq [Inhabited α] (d : Dict α) :
    d.entries = d.keys.map fun key => (key, d.value key) := by
  have hself : ∀ e ∈ d.entries, (e.1, d.value e.1) = e := by
    intro e he
    rw [value_of_mem he]
  calc d.entries = d.entries.map id := (List.map_id _).symm
    _ = d.entries.map fun e => (e.1, d.value e.1) :=
        List.map_congr_left fun e he => (hself e he).symm
    _ = d.keys.map fun key => (key, d.value key) := by rw [keys, List.map_map]; rfl

/-- The values at the keys determine a dictionary. -/
theorem ext_value [Inhabited α] {d d' : Dict α} (hkeys : d.keys = d'.keys)
    (hvalue : ∀ key ∈ d.keys, d.value key = d'.value key) : d = d' := by
  refine ext ?_
  rw [d.entries_eq, d'.entries_eq, ← hkeys]
  exact List.map_congr_left fun key hkey => by rw [hvalue key hkey]

/-- A sum over the entries is a sum over the set of keys. -/
theorem sum_entries [Inhabited α] {β : Type} [AddCommMonoid β] (d : Dict α)
    (f : PyStr → α → β) :
    (d.entries.map fun e => f e.1 e.2).sum = ∑ key ∈ d.keys.toFinset, f key (d.value key) := by
  have hentries : (d.entries.map fun e => f e.1 e.2) =
      d.keys.map fun key => f key (d.value key) := by
    conv_lhs => rw [d.entries_eq]
    rw [List.map_map]
    rfl
  rw [hentries, List.sum_toFinset _ d.nodup_keys]

/-- A dictionary from pairs in any order, when no key repeats. -/
def ofPairs (pairs : List (PyStr × α)) : Option (Dict α) :=
  if h : ((sortPairs pairs).map Prod.fst).Pairwise KeyLt then some ⟨sortPairs pairs, h⟩ else none

end Dict

/-! ### Sorted names -/

/-- `sorted(names)`. -/
def sortNames (names : List PyStr) : List PyStr :=
  (sortPairs (names.map fun name => (name, ()))).map Prod.fst

theorem mem_sortNames {names : List PyStr} {name : PyStr} :
    name ∈ sortNames names ↔ name ∈ names := by
  rw [sortNames, ((sortPairs_perm _).map Prod.fst).mem_iff, List.map_map]
  simp

/-- Names that ascend are sorted. -/
theorem sortNames_of_ascending {names : List PyStr} (h : names.Pairwise KeyLt) :
    sortNames names = names := by
  have hpairs : (names.map fun name => (name, ())).Pairwise KeyLe :=
    List.pairwise_map.mpr (h.imp fun hab => le_of_lt hab)
  rw [sortNames, sortPairs, hpairs.insertionSort_eq, List.map_map]
  exact List.map_id' names

theorem sortNames_idem (names : List PyStr) : sortNames (sortNames names) = sortNames names := by
  have hsorted := List.pairwise_insertionSort KeyLe (names.map fun name => (name, ()))
  have hpairs : (sortNames names).map (fun name => (name, ())) =
      sortPairs (names.map fun name => (name, ())) := by
    rw [sortNames, List.map_map]
    exact List.map_id' _
  show (sortPairs ((sortNames names).map fun name => (name, ()))).map Prod.fst = sortNames names
  rw [hpairs, sortPairs, sortPairs, hsorted.insertionSort_eq]
  rfl

end CoreTex.Lib
