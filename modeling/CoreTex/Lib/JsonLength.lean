import CoreTex.Lib.JsonOrder
import CoreTex.Lib.SelfLength

/-!
# CoreTex.Lib.JsonLength

The length of canonical bytes. An object's bytes are as long as its members, its commas and two
braces, in whatever order the members stand (`length_dumps_obj`), so an assignment changes the
length by the value that is assigned (`length_dumps_assign`).
-/

namespace CoreTex.Lib

/-! ### Assignment -/

theorem mem_keys_iff_any {pairs : List (PyStr × Json)} {key : PyStr} :
    (pairs.any fun e => e.1 = key) = true ↔ key ∈ pairs.map Prod.fst := by
  rw [List.any_eq_true, List.mem_map]
  exact exists_congr fun e => and_congr_right fun _ => decide_eq_true_iff

theorem map_other_keys {pairs : List (PyStr × Json)} {key : PyStr}
    (hother : ∀ e ∈ pairs, e.1 ≠ key) (value : Json) :
    (pairs.map fun e => if e.1 = key then (key, value) else e) = pairs :=
  (List.map_congr_left fun e he => if_neg (hother e he)).trans (List.map_id' _)

theorem filter_other_keys {pairs : List (PyStr × Json)} {key : PyStr}
    (hother : ∀ e ∈ pairs, e.1 ≠ key) : (pairs.filter fun e => e.1 ≠ key) = pairs :=
  List.filter_eq_self.mpr fun e he => decide_eq_true (hother e he)

/-- An assignment puts the value beside the members of the other keys. -/
theorem assign_perm {pairs : List (PyStr × Json)} (hkeys : (pairs.map Prod.fst).Nodup)
    (key : PyStr) (value : Json) :
    (assign pairs key value).Perm ((key, value) :: pairs.filter fun e => e.1 ≠ key) := by
  rw [assign]
  split
  · rename_i hany
    have hmem := mem_keys_iff_any.mp hany
    clear hany
    induction pairs with
    | nil => exact absurd hmem List.not_mem_nil
    | cons e pairs ih =>
        rw [List.map_cons, List.nodup_cons] at hkeys
        by_cases he : e.1 = key
        · subst he
          -- the key does not stand again in the rest
          have hother : ∀ e' ∈ pairs, e'.1 ≠ e.1 := fun e' he' heq =>
            hkeys.1 (heq ▸ List.mem_map_of_mem he')
          rw [List.map_cons, if_pos rfl, map_other_keys hother, List.filter_cons,
            if_neg (by simp), filter_other_keys hother]
        · have hrest : key ∈ pairs.map Prod.fst :=
            (List.mem_cons.mp hmem).resolve_left (Ne.symm he)
          rw [List.map_cons, if_neg he, List.filter_cons, if_pos (decide_eq_true he)]
          exact ((ih hkeys.2 hrest).cons e).trans (.swap _ _ _)
  · rename_i hany
    have hother : ∀ e ∈ pairs, e.1 ≠ key := fun e he heq =>
      hany (mem_keys_iff_any.mpr (heq ▸ List.mem_map_of_mem he))
    rw [filter_other_keys hother]
    exact List.perm_append_singleton _ _

theorem nodup_keys_assign {pairs : List (PyStr × Json)} (hkeys : (pairs.map Prod.fst).Nodup)
    (key : PyStr) (value : Json) : ((assign pairs key value).map Prod.fst).Nodup := by
  have hperm := (assign_perm hkeys key value).map Prod.fst
  rw [hperm.nodup_iff, List.map_cons, List.nodup_cons]
  constructor
  · intro hmem
    obtain ⟨e, he, hkey⟩ := List.mem_map.mp hmem
    exact of_decide_eq_true (List.mem_filter.mp he).2 hkey
  · exact hkeys.sublist (List.filter_sublist.map Prod.fst)

/-- The second of two assignments to one key stands. -/
theorem assign_assign (pairs : List (PyStr × Json)) (key : PyStr) (a b : Json) :
    assign (assign pairs key a) key b = assign pairs key b := by
  by_cases hany : (pairs.any fun e => e.1 = key) = true
  · have hagain : ((pairs.map fun e => if e.1 = key then (key, a) else e).any
        fun e => e.1 = key) = true := by
      obtain ⟨e, he, hkey⟩ := List.any_eq_true.mp hany
      refine List.any_eq_true.mpr ⟨_, List.mem_map_of_mem he, ?_⟩
      rw [if_pos (of_decide_eq_true hkey)]
      exact decide_eq_true rfl
    rw [assign, assign, assign, if_pos hany, if_pos hagain, if_pos hany, List.map_map]
    refine List.map_congr_left fun e _ => ?_
    by_cases he : e.1 = key <;> simp [he]
  · have hother : ∀ e ∈ pairs, e.1 ≠ key := fun e he heq =>
      hany (mem_keys_iff_any.mpr (heq ▸ List.mem_map_of_mem he))
    have hthere : ((pairs ++ [(key, a)]).any fun e => e.1 = key) = true := by simp
    rw [assign, assign, assign, if_neg hany, if_pos hthere, if_neg hany, List.map_append,
      map_other_keys hother]
    simp

/-! ### Lengths -/

/-- The bytes of one member: the key, the colon and the value. -/
def memberLength (e : PyStr × Json) : Nat :=
  (serString e.1).length + 1 + e.2.ser.length

theorem length_serPairs (pairs : List (PyStr × Json)) :
    (serPairs pairs).length = (pairs.map memberLength).sum + (pairs.length - 1) := by
  induction pairs with
  | nil => rfl
  | cons e pairs ih =>
      obtain ⟨k, x⟩ := e
      cases pairs with
      | nil =>
          simp [serPairs, memberLength]
          omega
      | cons e' rest =>
          rw [serPairs, List.length_append, ih]
          simp [memberLength]
          omega

/-- The length of an object's canonical bytes does not see the order of its members. -/
theorem length_dumps_obj (pairs : List (PyStr × Json)) :
    (Json.obj pairs).dumps.length =
      (pairs.map fun e => (serString e.1).length + 1 + e.2.dumps.length).sum +
        (pairs.length - 1) + 2 := by
  have hperm := (sortPairs_perm (sortKeysPairs pairs)).map memberLength
  have hmembers : (sortKeysPairs pairs).map memberLength =
      pairs.map fun e => (serString e.1).length + 1 + e.2.dumps.length := by
    rw [sortKeysPairs_eq_map, List.map_map]
    rfl
  have hcount : (sortPairs (sortKeysPairs pairs)).length = pairs.length := by
    rw [(sortPairs_perm _).length_eq, sortKeysPairs_eq_map, List.length_map]
  rw [Json.dumps, Json.sortKeys, Json.ser, List.length_append, List.length_append,
    length_serPairs, hperm.sum_nat, hmembers, hcount]
  simp
  omega

theorem length_dumps_natCast (n : Nat) : (Json.int n).dumps.length = digitCount 10 n := by
  show (Json.int n).ser.length = digitCount 10 n
  rw [ser_natCast, List.length_map, digitCount]

/-- What an assignment leaves of an object's canonical bytes, by length. -/
def lengthBeside (pairs : List (PyStr × Json)) (key : PyStr) : Nat :=
  ((pairs.filter fun e => e.1 ≠ key).map fun e =>
      (serString e.1).length + 1 + e.2.dumps.length).sum +
    (pairs.filter fun e => e.1 ≠ key).length + (serString key).length + 3

theorem length_dumps_assign {pairs : List (PyStr × Json)} (hkeys : (pairs.map Prod.fst).Nodup)
    (key : PyStr) (value : Json) : (Json.obj (assign pairs key value)).dumps.length =
      lengthBeside pairs key + value.dumps.length := by
  have hperm := assign_perm hkeys key value
  rw [length_dumps_obj, (hperm.map _).sum_nat, hperm.length_eq, lengthBeside]
  simp only [List.map_cons, List.sum_cons, List.length_cons]
  omega

end CoreTex.Lib
